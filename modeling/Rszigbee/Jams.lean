import Rszigbee.Link

/-! When the adapter's methods return: a method that waits can be answered until the link jams,
and a jammed link stays so. -/
namespace Rszigbee
namespace Ember
namespace Link

variable {α : Type} {gone : EzspError} {s s' : State α}

section Jammed

/-- No move undoes a jam, and none tells a caller anything. -/
theorem Jammed.move (hservice : s.stop = .inService) (hbusy : s.Busy) (h : s.Jammed)
    (hmove : Move gone s s') : s'.stop = .inService ∧ s'.Busy ∧ s'.Jammed ∧
      s'.connection.histories = s.connection.histories := by
  obtain ⟨hstalled,hpump⟩ := h
  cases hmove with
  | serve hstep =>
    obtain ⟨hstill,hsame,hwaits⟩ := Serving.Stalled.step hstalled hstep
    exact ⟨hservice,hwaits hbusy,⟨hstill,hpump⟩,hsame⟩
  | call _ _ hidle => exact absurd hbusy hidle
  | spawn _ _ hidle => exact absurd hbusy hidle
  | abandonStart _ hidle => exact absurd hbusy hidle
  | take hidle => rcases hpump with hpump | ⟨_,hpump,-⟩ <;> simp [hidle] at hpump
  | push hheld _ room =>
    rcases hpump with hpump | ⟨_,-,hfull,-⟩
    · simp [hheld] at hpump
    · exact absurd room hfull
  | pumpFails hheld hdropped =>
    rcases hpump with hpump | ⟨_,-,-,hreceiving⟩
    · simp [hheld] at hpump
    · simp [hdropped] at hreceiving
  | pumpEnds hidle => rcases hpump with hpump | ⟨_,hpump,-⟩ <;> simp [hidle] at hpump
  | receive _ _ _ hidle => exact absurd hbusy hidle
  | stop _ hidle => exact absurd hbusy hidle
  | disconnect hstopping => simp [hservice] at hstopping
  | drop hstopped => simp [hservice] at hstopped

theorem Jammed.run (hservice : s.stop = .inService) (hbusy : s.Busy) (h : s.Jammed)
    (hrun : Relation.ReflTransGen (Move gone) s s') : s'.stop = .inService ∧ s'.Busy ∧ s'.Jammed ∧
      s'.connection.histories = s.connection.histories := by
  induction hrun with
  | refl => exact ⟨hservice,hbusy,h,rfl⟩
  | tail _ hmove ih =>
    obtain ⟨hservice',hbusy',hjammed,hsame⟩ := ih
    obtain ⟨hservice'',hbusy'',hstill,hlast⟩ := Jammed.move hservice' hbusy' hjammed hmove
    exact ⟨hservice'',hbusy'',hstill,hlast.trans hsame⟩

end Jammed
section Draining

/-- What the NCP has raised and the runtime has yet to receive. -/
def State.backlog (s : State α) : ℕ :=
  s.connection.pending.length + s.pump.held.length + s.events.items.length

/-- Moves that answer no caller and add nothing to what waits for the runtime. -/
def Quietly (gone : EzspError) (s s' : State α) : Prop :=
  Relation.ReflTransGen (Move gone) s s' ∧ s'.connection.callers = s.connection.callers ∧
    s'.backlog ≤ s.backlog

theorem Quietly.refl : Quietly gone s s := ⟨.refl,rfl,Nat.le_refl _⟩

theorem Quietly.head {m : State α} (hmove : Move gone s m)
    (hcallers : m.connection.callers = s.connection.callers)
    (hbacklog : m.backlog ≤ s.backlog) (h : Quietly gone m s') : Quietly gone s s' :=
  ⟨.head hmove h.1,h.2.1.trans hcallers,h.2.2.trans hbacklog⟩

theorem Quietly.inv (h : Quietly gone s s') (hinv : Inv gone s) : Inv gone s' := by
  obtain ⟨hrun,-⟩ := h
  induction hrun with
  | refl => exact hinv
  | tail _ hmove ih => exact ih.move hmove

theorem Quietly.busy (h : Quietly gone s s') (hbusy : s.Busy) : s'.Busy := by
  obtain ⟨c,hc,hwaits⟩ := hbusy
  exact ⟨c,by rw [h.2.1]; exact hc,hwaits⟩

/-- How far what was raised is from the runtime's queue. -/
def State.load (s : State α) (batch : List Callback) : ℕ :=
  3 * batch.length + 2 * s.connection.notices.items.length + s.pump.held.length

/-- What the NCP's task has to forward, it can forward, unless the link jams. -/
theorem drain (hinv : Inv gone s) {batch : List Callback}
    (howner : s.connection.owner = .handing batch) :
    ∃ s', Quietly gone s s' ∧ s'.connection.requests = s.connection.requests ∧
      (s'.connection.owner = .handing [] ∨ s'.Jammed) := by
  induction hload : s.load batch using Nat.strong_induction_on generalizing s batch with
  | _ load ih =>
    have next {m : State α} {rest : List Callback} (hmove : Move gone s m)
        (hrest : m.connection.owner = .handing rest) (hless : m.load rest < load)
        (hcallers : m.connection.callers = s.connection.callers)
        (hbacklog : m.backlog ≤ s.backlog)
        (hrequests : m.connection.requests = s.connection.requests) :
        ∃ s', Quietly gone s s' ∧ s'.connection.requests = s.connection.requests ∧
          (s'.connection.owner = .handing [] ∨ s'.Jammed) := by
      obtain ⟨s',hrun,hsame,hend⟩ := ih _ hless (hinv.move hmove) hrest rfl
      exact ⟨s',hrun.head hmove hcallers hbacklog,hsame.trans hrequests,hend⟩
    cases batch with
    | nil => exact ⟨s,.refl,rfl,.inl howner⟩
    | cons callback rest =>
      cases hlistening : s.connection.listening with
      | false =>
        refine next (.serve (.discard howner hlistening)) rfl ?_ rfl ?_ rfl
        · simp only [State.load,List.length_cons,List.length_nil] at hload ⊢
          omega
        · simp [State.backlog,Serving.State.pending,howner,Serving.Owner.batch]
      | true =>
        by_cases room : s.connection.notices.Room
        · refine next (.serve (.forward howner hlistening room)) rfl ?_ rfl ?_ rfl
          · simp only [State.load,List.length_cons,Channel.push_items,List.length_append,
              List.length_nil] at hload ⊢
            omega
          · simp [State.backlog,Serving.State.pending,howner,Serving.Owner.batch]
        have hstalled : s.connection.Stalled := ⟨callback,rest,howner,hlistening,room⟩
        cases hpump : s.pump with
        | unspawned => exact ⟨s,.refl,rfl,.inr ⟨hstalled,.inl hpump⟩⟩
        | ended =>
          have hdeaf := hinv.deaf hpump
          rw [hlistening] at hdeaf
          cases hdeaf
        | idle =>
          obtain ⟨first,others,hnotices⟩ := Channel.exists_of_not_room room (by decide)
          refine next (.take hpump hnotices) howner ?_ rfl ?_ rfl
          · simp only [State.load,hpump,hnotices,Pump.held,List.length_cons,List.length_nil]
              at hload
            simp only [State.load,Serving.State.taken,Channel.tail_items,hnotices,List.tail_cons,
              List.length_cons]
            cases translate first with
            | none =>
              simp only [Option.elim_none,Pump.held,List.length_nil]
              omega
            | some event =>
              simp only [Option.elim_some,Pump.held,List.length_cons,List.length_nil]
              omega
          · simp only [State.backlog,Serving.State.pending,Serving.State.taken,Channel.tail_items,
              hnotices,hpump,List.tail_cons,List.length_append,List.length_cons]
            cases translate first with
            | none =>
              simp only [Option.elim_none,Pump.held,List.length_nil]
              omega
            | some event =>
              simp only [Option.elim_some,Pump.held,List.length_cons,List.length_nil]
              omega
        | holding event =>
          cases hreceiving : s.receiving with
          | false =>
            refine next (.pumpFails hpump hreceiving) howner ?_ rfl ?_ rfl
            · simp only [State.load,hpump,Pump.held,List.length_cons,List.length_nil] at hload
              simp only [State.load,Serving.State.deaf,Channel.empty_items,Pump.held,
                List.length_cons,List.length_nil]
              omega
            · simp only [State.backlog,Serving.State.pending,Serving.State.deaf,Channel.empty_items,
                hpump,Pump.held,List.length_append,List.length_nil,List.length_cons]
              omega
          | true =>
            by_cases hspace : s.events.Room
            · refine next (.push hpump hreceiving hspace) howner ?_ rfl ?_ rfl
              · simp only [State.load,hpump,Pump.held,List.length_cons,List.length_nil] at hload ⊢
                omega
              · simp only [State.backlog,hpump,Pump.held,Channel.push_items,List.length_append,
                  List.length_nil,List.length_cons]
                omega
            · exact ⟨s,.refl,rfl,.inr ⟨hstalled,.inr ⟨event,hpump,hspace,hreceiving⟩⟩⟩

end Draining

section Answering

/-- Some caller has been told more. -/
def Told (s s' : State α) : Prop :=
  ∃ (i : ℕ) (before after : List (Σ q, EzspCommand.Response q)),
    s.connection.histories[i]? = some before ∧ s'.connection.histories[i]? = some after ∧
    before.length < after.length

/-- A caller that waited has heard one more answer. -/
theorem told_of_hear {callers : List (Serving.Caller EzspCommand EzspCommand.Response AdapterError α)}
    {i : ℕ} {c d : Serving.Caller EzspCommand EzspCommand.Response AdapterError α}
    {answer : Σ q, EzspCommand.Response q}
    (hbefore : s.connection.histories = callers.map Serving.Caller.heard)
    (hc : callers[i]? = some c) (hd : s'.connection.callers[i]? = some d)
    (hheard : d.heard = c.heard ++ [answer]) : Told s s' := by
  refine ⟨i,c.heard,d.heard,?_,?_,by simp [hheard]⟩
  · rw [hbefore,List.getElem?_map,hc]
    rfl
  · rw [Serving.State.histories,List.getElem?_map,hd]
    rfl

theorem Quietly.histories (h : Quietly gone s s') :
    s'.connection.histories = s.connection.histories := by
  rw [Serving.State.histories,h.2.1]
  rfl

/-- From where the link is to where somebody has been answered, or the link has jammed. -/
def Answerable (gone : EzspError) (s : State α) : Prop :=
  ∃ s', Relation.ReflTransGen (Move gone) s s' ∧
    (Told s s' ∨ s'.Busy ∧ s'.Jammed ∧ s'.backlog ≤ s.backlog)

theorem Quietly.answerable {m : State α} (h : Quietly gone s m) (hm : Answerable gone m) :
    Answerable gone s := by
  obtain ⟨s',hrun,htold | ⟨hbusy,hjammed,hbacklog⟩⟩ := hm
  · obtain ⟨i,before,after,hbefore,hrest⟩ := htold
    rw [h.histories] at hbefore
    exact ⟨s',h.1.trans hrun,.inl ⟨i,before,after,hbefore,hrest⟩⟩
  · exact ⟨s',h.1.trans hrun,.inr ⟨hbusy,hjammed,hbacklog.trans h.2.2⟩⟩

/-- The command with the NCP is answered: its caller is told, or the task is free again. -/
theorem answer_running (hinv : Inv gone s) {i : ℕ} {q : EzspCommand}
    (hrunning : s.connection.owner = .running i q) : Answerable gone s ∨
      ∃ m, Quietly gone s m ∧ m.connection.owner = .handing [] ∧
        m.connection.requests = s.connection.requests := by
  have hmem : (i,q) ∈ s.connection.outstanding := by
    simp [Serving.State.outstanding,hrunning,Serving.Owner.current]
  obtain ⟨c,next,hc,-,hask⟩ := hinv.serving.present (i,q) hmem
  cases hgone : c.gone with
  | false =>
    refine .inl ⟨_,.single (.serve (.answer (closed gone q) [] hrunning hc hgone hask)),.inl ?_⟩
    exact told_of_hear rfl hc (Serving.set_same hc) rfl
  | true =>
    have hmove : Move gone s _ := .serve (.discardAnswer (closed gone q) [] hrunning hc hgone)
    refine .inr ⟨_,Quietly.head hmove rfl ?_ .refl,rfl,rfl⟩
    simp [State.backlog,Serving.State.pending,hrunning,Serving.Owner.batch]

/-- A task that is free takes what was asked, oldest first, and the caller that waits is answered in
its turn. -/
theorem answer_ready (hinv : Inv gone s) (hbusy : s.Busy)
    (hready : s.connection.owner = .handing []) : Answerable gone s := by
  induction hrequests : s.connection.requests.items generalizing s with
  | cons x rest ih =>
    obtain ⟨i,q⟩ := x
    have hmove : Move gone s _ := .serve (.start hready hrequests)
    have hquiet : Quietly gone s _ := Quietly.head hmove rfl
      (by simp [State.backlog,Serving.State.pending,hready,Serving.Owner.batch]) .refl
    refine hquiet.answerable ?_
    rcases answer_running (hinv.move hmove) rfl with hanswered | ⟨m,hquiet,hfree,hsame⟩
    · exact hanswered
    · have hbusy' : m.Busy := hquiet.busy hbusy
      refine hquiet.answerable (ih (hquiet.inv (hinv.move hmove)) hbusy' hfree ?_)
      rw [hsame]
      simp [hrequests]
  | nil =>
    obtain ⟨c,hmem,hstays,hover⟩ := hbusy
    obtain ⟨i,hc⟩ := List.getElem?_of_mem hmem
    have hopen : s.connection.owner ≠ .stopped := by simp [hready]
    have hnone : s.connection.outstanding = [] := by
      rw [Serving.State.outstanding,hready,hrequests]
      rfl
    have hqueued : c.queued = false := by
      by_contra hqueued
      have hin := hinv.serving.waiting i c hc hstays (by simpa using hqueued) hopen
      rw [hnone] at hin
      cases hin
    cases hp : c.program with
    | done r =>
      rw [hp] at hover
      exact absurd trivial hover
    | ask q next =>
      have room : s.connection.requests.Room := by
        rw [Channel.Room,hrequests]
        decide
      let sent : Connection α := { s.connection with
        callers := s.connection.callers.set i { c with queued := true }
        requests := s.connection.requests.push (i,q) room
        accepted := s.connection.accepted ++ [(i,q)] }
      have hsend : Serving.Step (closed gone) s.connection sent :=
        .send hc hp hstays hqueued hopen room
      have hpushed : (s.connection.requests.push (i,q) room).items = [(i,q)] := by
        rw [Channel.push_items,hrequests,List.nil_append]
      have hstart : Serving.Step (closed gone) sent
          { sent with owner := .running i q, requests := sent.requests.tail } :=
        .start hready hpushed
      have hset : sent.callers[i]? = some { c with queued := true } := Serving.set_same hc
      have hanswer : Serving.Step (closed gone)
          { sent with owner := .running i q, requests := sent.requests.tail } _ :=
        .answer (closed gone q) [] rfl hset hstays hp
      refine ⟨_,.tail (.tail (.single (.serve hsend)) (.serve hstart)) (.serve hanswer),
        .inl ?_⟩
      have hsame : sent.callers.map Serving.Caller.heard = s.connection.histories :=
        Serving.histories_set hc rfl
      exact told_of_hear hsame.symm hset (Serving.set_same hset) rfl

/-- While a method waits, somebody can still be answered, or the link can jam. -/
theorem answerable (hinv : Inv gone s) (hbusy : s.Busy) : Answerable gone s := by
  have ready {m : State α} (h : Quietly gone s m) (hfree : m.connection.owner = .handing []) :
      Answerable gone s := h.answerable (answer_ready (h.inv hinv) (h.busy hbusy) hfree)
  cases howner : s.connection.owner with
  | running i q =>
    rcases answer_running hinv howner with hanswered | ⟨m,hquiet,hfree,-⟩
    · exact hanswered
    · exact ready hquiet hfree
  | polling =>
    have hmove : Move gone s _ := .serve (.polled [] howner)
    refine ready (Quietly.head hmove rfl ?_ .refl) rfl
    simp [State.backlog,Serving.State.pending,howner,Serving.Owner.batch]
  | handing batch =>
    obtain ⟨m,hquiet,-,hfree | hjammed⟩ := drain hinv howner
    · exact ready hquiet hfree
    · exact ⟨m,hquiet.1,.inr ⟨hquiet.busy hbusy,hjammed,hquiet.2.2⟩⟩
  | stopped =>
    obtain ⟨c,hmem,hstays,hover⟩ := hbusy
    obtain ⟨i,hc⟩ := List.getElem?_of_mem hmem
    cases hp : c.program with
    | done r =>
      rw [hp] at hover
      exact absurd trivial hover
    | ask q next =>
      exact ⟨_,.single (.serve (.refuse hc hp hstays howner)),
        .inl (told_of_hear rfl hc (Serving.set_same hc) rfl)⟩

end Answering

/-- A method that waits can be answered until the link jams, and then never is. -/
theorem answered_or_jammed (h : Reachable gone s) (hbusy : s.Busy) :
    (∃ s', Relation.ReflTransGen (Move gone) s s' ∧ (Told s s' ∨ s'.Jammed)) ∧
    (s.Jammed → ∀ s', Relation.ReflTransGen (Move gone) s s' →
      s'.Busy ∧ s'.Jammed ∧ s'.connection.histories = s.connection.histories) := by
  constructor
  · obtain ⟨s',hrun,hend⟩ := answerable h.inv hbusy
    exact ⟨s',hrun,hend.imp_right fun hjam => hjam.2.1⟩
  · intro hjammed s' hrun
    exact (Jammed.run (h.inv.service hbusy) hbusy hjammed hrun).2

/-- A method called there. -/
def jamming (method : Method α) : State α := session (overflowing.call method)

theorem reachable_jamming (method : Method α) : Reachable gone (jamming method) :=
  reachable_overflowing.tail (.move (.call method rfl not_busy_overflowing))

theorem busy_jamming {method : Method α} (h : ¬ method.Over) : (jamming method).Busy :=
  ⟨{ method := method },List.mem_singleton_self _,rfl,h⟩

theorem jammed_jamming (method : Method α) : (jamming method).Jammed :=
  ⟨⟨.other,[],rfl,rfl,Nat.lt_irrefl _⟩,.inl rfl⟩

def jammedRequest : State (Option ZclRx) :=
  jamming (ofSend (connected.sendZcl rsezsp ⟨7⟩ request).2)

theorem reachable_jammedRequest : Reachable "closed" jammedRequest := reachable_jamming _

theorem jammedRequest_waits :
    (∃ s', Relation.ReflTransGen (Move "closed") jammedRequest s' ∧
      (Told jammedRequest s' ∨ s'.Jammed)) ∧
    ∀ s', Relation.ReflTransGen (Move "closed") jammedRequest s' →
      s'.Busy ∧ s'.Jammed ∧ s'.connection.histories = jammedRequest.connection.histories := by
  have hend := answered_or_jammed reachable_jammedRequest (busy_jamming id)
  exact ⟨hend.1,hend.2 (jammed_jamming _)⟩

/-- How much waits when the link jams. -/
theorem Jammed.backlog (h : s.Jammed) : requestDepth < s.backlog ∧
    (s.pump ≠ .unspawned → requestDepth + eventDepth + 1 < s.backlog) := by
  obtain ⟨⟨callback,rest,howner,-,hfull⟩,hpump⟩ := h
  have hnotices := Channel.length_of_not_room hfull
  have hpending : requestDepth < s.connection.pending.length := by
    rw [Serving.State.pending,howner,List.length_append,hnotices,Serving.Owner.batch,
      List.length_cons]
    omega
  refine ⟨by rw [State.backlog]; omega,fun hspawned => ?_⟩
  rcases hpump with hpump | ⟨event,hpump,hspace,-⟩
  · exact absurd hpump hspawned
  · have hevents := Channel.length_of_not_room hspace
    rw [State.backlog,hpump,hevents,Pump.held,List.length_singleton]
    omega

/-- A pump that runs is never taken back. -/
theorem Move.spawned (hmove : Move gone s s') (hspawned : s.pump ≠ .unspawned) :
    s'.pump ≠ .unspawned := by
  cases hmove with
  | @take callback rest => cases translate callback <;> simp
  | spawn => simp
  | push => simp
  | pumpFails => simp
  | pumpEnds => simp
  | _ => exact hspawned

/-- A method that waits can be answered as long as no more has piled up for the runtime than the
channels hold: 64 callbacks before `start` returns, 577 after. -/
theorem answered_of_backlog (h : Reachable gone s) (hbusy : s.Busy)
    (hfew : s.backlog ≤ requestDepth ∨
      s.pump ≠ .unspawned ∧ s.backlog ≤ requestDepth + eventDepth + 1) :
    ∃ s', Relation.ReflTransGen (Move gone) s s' ∧ Told s s' := by
  obtain ⟨s',hrun,htold | ⟨-,hjammed,hbacklog⟩⟩ := answerable h.inv hbusy
  · exact ⟨s',hrun,htold⟩
  · obtain ⟨hmany,hmore⟩ := Jammed.backlog hjammed
    rcases hfew with hfew | ⟨hspawned,hfew⟩
    · omega
    · have hspawned' : s'.pump ≠ .unspawned := by
        clear hjammed hbacklog hmany hmore
        induction hrun with
        | refl => exact hspawned
        | tail _ hmove ih => exact hmove.spawned ih
      have := hmore hspawned'
      omega

/-- A method called when as much has piled up as the channel holds. -/
def crowded (method : Method α) : State α :=
  session ((raising (List.replicate requestDepth .other)).call method)

theorem reachable_crowded (method : Method α) : Reachable gone (crowded method) := by
  have hidle : ¬ (session (raising (List.replicate requestDepth .other)) : State α).Busy := by
    rintro ⟨c,hc,-⟩
    cases hc
  exact (reachable_raising _).tail (.move (.call method rfl hidle))

theorem crowded_answered : ∃ s', Relation.ReflTransGen (Move "closed")
    (crowded (ofSend (connected.sendZcl rsezsp ⟨7⟩ request).2)) s' ∧
    Told (crowded (ofSend (connected.sendZcl rsezsp ⟨7⟩ request).2)) s' :=
  answered_of_backlog (reachable_crowded _) ⟨_,List.mem_singleton_self _,rfl,id⟩
    (.inl (by decide))

end Link
end Ember
end Rszigbee
