import Rszigbee.Turns

/-! Whose answer a caller is given.
A pending request is found by its cluster and its sequence number, so an answer is the
right one exactly when every frame that matches a pending request belongs to it. -/
namespace Rszigbee
namespace Task

variable {E : Engine}

section Frames

/-- An answer that no frame brought: it is about something else, the adapter handed it back,
or the request failed. -/
inductive Ordinary (a : Answer E) : Prop
  | plain (h : isExchange a.reply = false)
  | inline (h : a.cause = .inline)
  | zdoFailed {e : RuntimeError} (h : a.reply = .zdo (.error e))
  | readFailed {e : RuntimeError} (h : a.reply = .zclRead (.error e))
      (he : ∀ ieee status, e ≠ .readRefused ieee status)

variable {fits : Question → Answer E → Prop} {free : Answer E → Prop}

/-- A frame that settles a request may go to the one who waits. -/
def Framed (t : Task E) (fits : Question → Answer E → Prop) (free : Answer E → Prop) :
    Input E → Prop
  | .event event origin _ => ∀ op, t.frameOp event origin = some op →
      op.Matching fits free Waiter.reply t.ledger
  | _ => True

theorem zdoOp_matching (hfree : ∀ a, Ordinary a → free a) (t : Task E) (ieee : Ieee)
    (cluster : ZdoClusterId) (build : UInt8 → Nwk → Bytes) (n : ℕ) (env : Env) (l : Exchange E) :
    (t.zdoOp ieee cluster build n env).Matching fits free Waiter.reply l := by
  unfold zdoOp
  split
  · exact hfree _ (.zdoFailed rfl)
  · dsimp only
    split
    · exact Or.inl (hfree _ (.inline rfl))
    · trivial
    · exact Or.inl (hfree _ (.zdoFailed rfl))

theorem readOp_matching (hfree : ∀ a, Ordinary a → free a) (t : Task E) (ieee : Ieee)
    (endpoint : EndpointId) (cluster : ClusterId) (attributes : List AttrId) (n : ℕ) (env : Env)
    (l : Exchange E) :
    (t.readOp ieee endpoint cluster attributes n env).Matching fits free Waiter.reply l := by
  unfold readOp
  split
  · exact hfree _ (.readFailed rfl (by simp))
  · dsimp only
    split
    · exact Or.inl (hfree _ (.inline rfl))
    · trivial
    · exact Or.inl (hfree _ (.readFailed rfl (by simp)))

theorem plain_matching (hfree : ∀ a, Ordinary a → free a) {request : Request E}
    {op : ExchangeOp E} (h : Plain request op) (l : Exchange E) : op.Matching fits free Waiter.reply l := by
  cases h with
  | hold => trivial
  | refuse ha hfits => exact hfree _ (.plain ha)

theorem attributed_sweep {l : Exchange E} (h : l.Attributed fits free)
    (zdo : List (ZdoClusterId × UInt8)) (zcl : List (ClusterId × UInt8))
    {zdoReply zclReply : Waiter → Reply E} {cause : Cause}
    (hzdo : ∀ w, free (settled zdoReply cause w)) (hzcl : ∀ w, free (settled zclReply cause w)) :
    (sweep l zdo zcl zdoReply zclReply cause).Attributed fits free :=
  (h.settleAll _ hzdo).settleAll _ hzcl

theorem attributed_drained (hfree : ∀ a, Ordinary a → free a) {t : Task E}
    (h : t.ledger.Attributed fits free) : t.drained.Attributed fits free :=
  attributed_sweep h _ _ (fun _ => hfree _ (.zdoFailed rfl))
    fun _ => hfree _ (.readFailed rfl (by simp))

theorem attributed_expired (hfree : ∀ a, Ordinary a → free a) {t : Task E}
    (h : t.ledger.Attributed fits free) (now : Instant) :
    (t.expiredAt now).Attributed fits free :=
  attributed_sweep h _ _ (fun _ => hfree _ (.zdoFailed rfl))
    fun _ => hfree _ (.readFailed rfl (by simp))

/-- Where the answers that no frame brought do not matter, a turn keeps every answer
attributed exactly when its frame does. -/
theorem attributed_step (hfree : ∀ a, Ordinary a → free a) (t : Task E) (i : Input E)
    (hrun : t.stopped = false) (hs : t.Sound) (h : t.ledger.Attributed fits free) :
    (t.step i).ledger.Attributed fits free ↔ t.Framed fits free i := by
  have hturn := turn hrun i
  generalize (t.step i).ledger = l at hturn
  cases hturn with
  | zdo ieee cluster build env =>
    rw [Ledger.attributed_step_iff hs h]
    exact iff_of_true (zdoOp_matching hfree _ _ _ _ _ _ _) trivial
  | read ieee endpoint cluster attributes env =>
    rw [Ledger.attributed_step_iff hs h]
    exact iff_of_true (readOp_matching hfree _ _ _ _ _ _ _ _) trivial
  | plain hplain env hop =>
    rw [Ledger.attributed_step_iff hs h]
    exact iff_of_true (plain_matching hfree hop _) trivial
  | stop env ha hfits =>
    have hsound : t.drained.Sound Waiter.reply Question.form := sound_sweep hs _ _ _ _ _
    rw [Ledger.attributed_step_iff hsound (attributed_drained hfree h)]
    exact iff_of_true (hfree _ (.plain ha)) trivial
  | @frame event origin op hop env =>
    rw [Ledger.attributed_step_iff hs h]
    constructor
    · intro hmatch op' hop'
      obtain rfl := Option.some.inj (hop.symm.trans hop')
      exact hmatch
    · intro hmatch
      exact hmatch op hop
  | silent hop env => exact iff_of_true h fun op hop' => by simp [hop] at hop'
  | tick env => exact iff_of_true (attributed_expired hfree h _) trivial
  | abandon reply => exact iff_of_true h trivial
  | handlesDropped env => exact iff_of_true (attributed_drained hfree h) trivial
  | adapterClosed env => exact iff_of_true (attributed_drained hfree h) trivial

/-- What follows when the frames' condition is spelled out. -/
theorem attributed_iff_meets {P : Task E → Prop} {C : Task E → Input E → Prop}
    (hfree : ∀ a, Ordinary a → free a)
    (hP : ∀ t, P t ↔ t.ledger.Attributed fits free)
    (hC : ∀ t i, t.Sound → t.stopped = false → (t.Framed fits free i ↔ C t i))
    (hstopped : ∀ t i, t.stopped = true → C t i)
    (config : TaskConfig E) (env : Env) (is : List (Input E)) :
    (∀ pre, pre <+: is → P (Runs.run step (start config env) pre)) ↔
      Runs.Meets step C (start config env) is := by
  have hnone : P (start config env) := by
    rw [hP,ledger_start]
    exact Ledger.Attributed.new
  refine Runs.always_iff_meets step sound_step (fun t i hs h => ?_) (sound_start config env) hnone is
  by_cases hrun : t.stopped = true
  · rw [step_stopped hrun]
    exact iff_of_true h (hstopped t i hrun)
  · have hrun' : t.stopped = false := by simpa using hrun
    rw [hP] at h ⊢
    rw [attributed_step hfree t i hrun' hs h,hC t i hs hrun']

end Frames

section Zdo

/-- A payload delivered to a caller came from the address the caller's request was sent to,
in a frame for that request's cluster and sequence number, unless the adapter handed the
response back with the transmission. -/
def ZdoAttributed (t : Task E) : Prop :=
  ∀ a ∈ t.replies, ∀ payload, a.reply = .zdo (.ok payload) → a.cause ≠ .inline →
    ∃ s ∈ t.sentZdo, s.purpose = .zdo a.id ∧ ∃ ieee nwk, s.tx.dest = .unicast ieee nwk ∧
      a.cause = .zdoFrame s.tx.cluster.response nwk payload ∧ payload.head? = some s.sequence

/-- A ZDO frame with the cluster and sequence number of a pending request is received from
the address that request was sent to. -/
def ZdoFromAsked (t : Task E) : Input E → Prop
  | .event (.zdo cluster nwk (sequence::_)) _ _ => t.stopped = false →
    ∀ w, t.pendingZdo.lookup (cluster,sequence) = some w →
      ∃ s ∈ t.sentZdo, s.purpose = .zdo w.reply ∧ s.tx.dest = .unicast w.ieee nwk
  | _ => True

def ZdoFits : Question → Answer E → Prop
  | .zdo s, a => ∃ ieee nwk payload, s.tx.dest = .unicast ieee nwk ∧
      a.reply = .zdo (.ok payload) ∧ a.cause = .zdoFrame s.tx.cluster.response nwk payload ∧
      payload.head? = some s.sequence
  | .read _ _, _ => False

def ZdoFree (a : Answer E) : Prop := ∀ payload, a.reply = .zdo (.ok payload) → a.cause = .inline

theorem zdoAttributed_iff (t : Task E) :
    t.ZdoAttributed ↔ t.ledger.Attributed ZdoFits ZdoFree := by
  constructor
  · intro h id a ha
    obtain ⟨hmem,rfl⟩ := mem_answers.mp ha
    by_cases hfree : ZdoFree a
    · exact Or.inl hfree
    · simp only [ZdoFree,not_forall] at hfree
      obtain ⟨payload,hreply,hcause⟩ := hfree
      obtain ⟨s,hs,hp,ieee,nwk,hdest,hframe,hhead⟩ := h a hmem payload hreply hcause
      exact Or.inr ⟨.zdo s,⟨hs,hp⟩,ieee,nwk,payload,hdest,hreply,hframe,hhead⟩
  · intro h a ha payload hreply hcause
    rcases h a.id a (mem_answers.mpr ⟨ha,rfl⟩) with hfree | ⟨q,hq,hfits⟩
    · exact absurd (hfree payload hreply) hcause
    · cases q with
      | read i s => exact absurd hfits not_false
      | zdo s =>
        obtain ⟨ieee,nwk,payload',hdest,hreply',hframe,hhead⟩ := hfits
        have he : payload = payload' := by
          rw [hreply] at hreply'
          simpa using hreply'
        subst payload'
        exact ⟨s,hq.1,hq.2,ieee,nwk,hdest,hframe,hhead⟩

theorem zdoFree_of_ordinary {a : Answer E} (h : Ordinary a) : ZdoFree a := by
  intro payload hreply
  cases h with
  | plain h => simp [hreply,isExchange] at h
  | inline h => exact h
  | zdoFailed h => simp [hreply] at h
  | readFailed h _ => simp [hreply] at h

/-- The frame of a pending request is delivered to its caller, whoever sent it. -/
theorem zdoFrame_matching {t : Task E} (hs : t.Sound) (cluster : ZdoClusterId) (nwk : Nwk)
    (sequence : UInt8) (rest : Bytes) :
    (Ledger.Op.settle (.inl (cluster,sequence)) (settled (fun _ => .zdo (.ok (sequence::rest)))
      (.zdoFrame cluster nwk (sequence::rest)))).Matching ZdoFits ZdoFree Waiter.reply t.ledger ↔
    ∀ w, t.pendingZdo.lookup (cluster,sequence) = some w →
      ∃ s ∈ t.sentZdo, s.purpose = .zdo w.reply ∧ s.tx.dest = .unicast w.ieee nwk := by
  constructor
  · intro h w hw
    obtain ⟨q,hq,hkey,hrec⟩ := hs.recorded (.inl (cluster,sequence)) w hw
    rcases h w hw with hfree | ⟨q',hq',hfits⟩
    · have hinline := hfree (sequence::rest) rfl
      simp [settled] at hinline
    · obtain rfl := hs.single _ q q' hq hq'
      cases q with
      | read i s => simp [Question.form,Question.key] at hkey
      | zdo s =>
        obtain ⟨⟨nwk',hdest⟩,-⟩ := hrec
        obtain ⟨ieee,nwk'',payload,hdest',-,hframe,-⟩ := hfits
        have he : nwk'' = nwk := by
          simp only [settled,Cause.zdoFrame.injEq] at hframe
          exact hframe.2.1.symm
        subst nwk''
        rw [hdest] at hdest'
        obtain ⟨-,rfl⟩ := Destination.unicast.inj hdest'
        exact ⟨s,hq.1,hq.2,hdest⟩
  · intro h w hw
    obtain ⟨s,hs',hp,hdest⟩ := h w hw
    obtain ⟨q,hq,hkey,-⟩ := hs.recorded (.inl (cluster,sequence)) w hw
    obtain rfl := hs.single _ q (.zdo s) hq ⟨hs',hp⟩
    simp only [Question.form,Question.key,Sum.inl.injEq,Prod.mk.injEq] at hkey
    obtain ⟨rfl,rfl⟩ := hkey
    exact Or.inr ⟨.zdo s,hq,w.ieee,nwk,s.sequence::rest,hdest,rfl,rfl,rfl⟩

theorem readFrame_matching_zdo {t : Task E} {rx : ZclRx} {origin : Option ℕ} {op : ExchangeOp E}
    (h : t.readFrameOp rx origin = some op) (l : Exchange E) :
    op.Matching ZdoFits ZdoFree Waiter.reply l := by
  unfold readFrameOp at h
  split at h
  · simp at h
  · split at h
    · simp at h
    · obtain rfl := Option.some.inj h
      intro w _
      exact Or.inl fun payload hreply => by simp [settled] at hreply

theorem zdo_framed_iff (t : Task E) (i : Input E) (hs : t.Sound) (hrun : t.stopped = false) :
    t.Framed ZdoFits ZdoFree i ↔ t.ZdoFromAsked i := by
  cases i with
  | event event origin env =>
    cases event with
    | zdo cluster nwk payload =>
      cases payload with
      | nil => simp [Framed,ZdoFromAsked,frameOp]
      | cons sequence rest =>
        have hmatch := zdoFrame_matching hs cluster nwk sequence rest
        simpa [Framed,ZdoFromAsked,frameOp,hrun] using hmatch
    | zcl rx => exact iff_of_true (fun op hop => readFrame_matching_zdo hop _) trivial
    | _ => exact iff_of_true (fun op hop => by simp [frameOp] at hop) trivial
  | _ => exact iff_of_true trivial trivial

/-- Every ZDO payload of a run reaches a caller who asked its sender for it, exactly when
every frame received for a pending request comes from the device that was asked. -/
theorem zdo_attributed_iff (config : TaskConfig E) (env : Env) (is : List (Input E)) :
    (∀ pre, pre <+: is → (Runs.run step (start config env) pre).ZdoAttributed) ↔
      Runs.Meets step ZdoFromAsked (start config env) is := by
  refine attributed_iff_meets (fun _ => zdoFree_of_ordinary) zdoAttributed_iff zdo_framed_iff
    (fun t i hstopped => ?_) config env is
  unfold ZdoFromAsked
  split
  · simp [hstopped]
  · trivial

/-- Devices `a` and `b` join, `a` is asked for its endpoints, and `b` answers with the
sequence number of that request. -/
def misattributedZdo : List (Input Engine.bare) :=
  [joins ⟨0xa⟩ ⟨0x1001⟩,joins ⟨0xb⟩ ⟨0x1002⟩,
    .request (.zdo ⟨0xa⟩ .activeEpReq fun sequence _ => [sequence]) fun _ => {},
    .event (.zdo ZdoClusterId.activeEpReq.response ⟨0x1002⟩ [1,7]) none fun _ => {}]

/-- The endpoints of `b` are delivered as those of `a`. -/
theorem other_device_answers : ¬ (Runs.run step fresh misattributedZdo).ZdoAttributed := by
  have hreplies : (Runs.run step fresh misattributedZdo).replies = [⟨0,.zdo (.ok [1,7]),
      .zdoFrame ZdoClusterId.activeEpReq.response ⟨0x1002⟩ [1,7]⟩] := by
    rw [fresh_eq]
    rfl
  have hsent : (Runs.run step fresh misattributedZdo).sentZdo.map (fun s => s.tx.dest) =
      [.unicast ⟨0xa⟩ ⟨0x1001⟩] := by
    rw [fresh_eq]
    rfl
  intro h
  rw [ZdoAttributed,hreplies] at h
  obtain ⟨s,hs,-,ieee,nwk,hdest,hcause,-⟩ := h _ (List.mem_singleton_self _) [1,7] rfl (by simp)
  have hto : s.tx.dest = .unicast ⟨0xa⟩ ⟨0x1001⟩ := by
    have hmem := List.mem_map_of_mem (f := fun s => s.tx.dest) hs
    rw [hsent] at hmem
    simpa using hmem
  rw [hto] at hdest
  simp only [Destination.unicast.injEq] at hdest
  simp only [Cause.zdoFrame.injEq,← hdest.2] at hcause
  simp at hcause

end Zdo

section Reads

/-- A frame is the answer to the read that transmission `i` made for a caller: its Read
Attributes Response, or a Default Response that names Read Attributes and answers no probe. -/
def AnswersRead (id i : ℕ) (frame : ZclFrame) (origin : Option (ℕ × Purpose)) : Prop :=
  match ReadAnswer.of frame with
  | some .attributes => origin = some (i,.read id)
  | some (.refused _) => frame.payload.head? = some 0x00 ∧ ∀ j, origin ≠ some (j,.probe)
  | none => False

/-- A read came back, with values or with a refusal. -/
def Completed : Reply E → Prop
  | .zclRead (.ok _) => True
  | .zclRead (.error (.readRefused _ _)) => True
  | _ => False

/-- A read was completed by a frame of the device it was sent to, on its cluster and with its
transaction number, that answers it, unless the adapter handed the response back with the
transmission. -/
def ReadAttributed (t : Task E) : Prop :=
  ∀ a ∈ t.replies, Completed a.reply → a.cause ≠ .inline →
    ∃ i s, t.sentZcl[i]? = some s ∧ s.purpose = .read a.id ∧
      ∃ ieee nwk frame origin, s.tx.dest = .unicast ieee nwk ∧
        a.cause = .zclFrame ieee s.tx.cluster frame origin ∧ frame.header.tsn = s.sequence ∧
        AnswersRead a.id i frame origin

/-- A frame shaped like the answer to a read, with the cluster and transaction number of a
pending one, is sent by the device that read went to and answers it. -/
def ReadFromAsked (t : Task E) : Input E → Prop
  | .event (.zcl rx) origin _ => t.stopped = false →
    ∀ ieee frame answer w, t.senderOf rx = some ieee → t.readAnswered rx = some (frame,answer) →
      t.pendingZcl.lookup (rx.cluster,frame.header.tsn) = some w →
      ∃ i s, t.sentZcl[i]? = some s ∧ s.purpose = .read w.reply ∧
        (∃ nwk, s.tx.dest = .unicast ieee nwk) ∧
        AnswersRead w.reply i frame (t.transmissionOf origin)
  | _ => True

def ReadFits : Question → Answer E → Prop
  | .read i s, a => ∃ ieee nwk frame origin, s.tx.dest = .unicast ieee nwk ∧
      a.cause = .zclFrame ieee s.tx.cluster frame origin ∧ frame.header.tsn = s.sequence ∧
      AnswersRead a.id i frame origin
  | .zdo _, _ => False

def ReadFree (a : Answer E) : Prop := Completed a.reply → a.cause = .inline

theorem readAttributed_iff (t : Task E) :
    t.ReadAttributed ↔ t.ledger.Attributed ReadFits ReadFree := by
  constructor
  · intro h id a ha
    obtain ⟨hmem,rfl⟩ := mem_answers.mp ha
    by_cases hfree : ReadFree a
    · exact Or.inl hfree
    · simp only [ReadFree,Classical.not_imp] at hfree
      obtain ⟨i,s,hs,hp,hfits⟩ := h a hmem hfree.1 hfree.2
      exact Or.inr ⟨.read i s,⟨hs,hp⟩,hfits⟩
  · intro h a ha hreply hcause
    rcases h a.id a (mem_answers.mpr ⟨ha,rfl⟩) with hfree | ⟨q,hq,hfits⟩
    · exact absurd (hfree hreply) hcause
    · cases q with
      | zdo s => exact absurd hfits not_false
      | read i s => exact ⟨i,s,hq.1,hq.2,hfits⟩

theorem readFree_of_ordinary {a : Answer E} (h : Ordinary a) : ReadFree a := by
  intro hreply
  cases h with
  | plain h =>
    cases hr : a.reply <;> simp_all [isExchange,Completed]
  | inline h => exact h
  | zdoFailed h => simp [h,Completed] at hreply
  | readFailed h he =>
    rename_i e
    cases e with
    | readRefused ieee status => exact absurd rfl (he ieee status)
    | _ => simp [h,Completed] at hreply

theorem completed_readResult (t : Task E) (ieee : Ieee) (rx : ZclRx) (answer : ReadAnswer) :
    Completed (.zclRead (t.readResult ieee rx answer) : Reply E) := by
  cases answer <;> trivial

/-- The read a frame matches is completed, whoever sent the frame and whatever it answers. -/
theorem readFrame_matching {t : Task E} (hs : t.Sound) (ieee : Ieee) (rx : ZclRx)
    (frame : ZclFrame) (answer : ReadAnswer) (origin : Option (ℕ × Purpose)) :
    (Ledger.Op.settle (.inr (rx.cluster,frame.header.tsn))
      (settled (fun _ => .zclRead (t.readResult ieee rx answer))
        (.zclFrame ieee rx.cluster frame origin))).Matching ReadFits ReadFree Waiter.reply
          t.ledger ↔
    ∀ w, t.pendingZcl.lookup (rx.cluster,frame.header.tsn) = some w →
      ∃ i s, t.sentZcl[i]? = some s ∧ s.purpose = .read w.reply ∧
        (∃ nwk, s.tx.dest = .unicast ieee nwk) ∧ AnswersRead w.reply i frame origin := by
  constructor
  · intro h w hw
    rcases h w hw with hfree | ⟨q,hq,hfits⟩
    · have hinline := hfree (completed_readResult t ieee rx answer)
      simp [settled] at hinline
    · cases q with
      | zdo s => exact absurd hfits not_false
      | read i s =>
        obtain ⟨ieee',nwk,frame',origin',hdest,hcause,-,hanswers⟩ := hfits
        simp only [settled,Cause.zclFrame.injEq] at hcause
        obtain ⟨rfl,-,rfl,rfl⟩ := hcause
        exact ⟨i,s,hq.1,hq.2,⟨nwk,hdest⟩,hanswers⟩
  · intro h w hw
    obtain ⟨i,s,hs',hp,⟨nwk,hdest⟩,hanswers⟩ := h w hw
    obtain ⟨q,hq,hkey,-⟩ := hs.recorded (.inr (rx.cluster,frame.header.tsn)) w hw
    obtain rfl := hs.single _ q (.read i s) hq ⟨hs',hp⟩
    simp only [Question.form,Question.key,Sum.inr.injEq,Prod.mk.injEq] at hkey
    refine Or.inr ⟨.read i s,hq,ieee,nwk,frame,origin,hdest,?_,hkey.2.symm,hanswers⟩
    rw [settled,hkey.1]

theorem read_framed_iff (t : Task E) (i : Input E) (hs : t.Sound) (hrun : t.stopped = false) :
    t.Framed ReadFits ReadFree i ↔ t.ReadFromAsked i := by
  cases i with
  | event event origin env =>
    cases event with
    | zdo cluster nwk payload =>
      cases payload with
      | nil => simp [Framed,ReadFromAsked,frameOp]
      | cons sequence rest =>
        refine iff_of_true (fun op hop => ?_) trivial
        obtain rfl := Option.some.inj hop
        intro w _
        exact Or.inl fun hcompleted => absurd hcompleted not_false
    | zcl rx =>
      simp only [Framed,ReadFromAsked,frameOp,readFrameOp,hrun,true_imp_iff]
      cases t.senderOf rx with
      | none => simp
      | some ieee =>
        cases t.readAnswered rx with
        | none => simp
        | some found =>
          obtain ⟨frame,answer⟩ := found
          have hmatch := readFrame_matching hs ieee rx frame answer (t.transmissionOf origin)
          constructor
          · intro h ieee' frame' answer' w hsender hanswered hw
            obtain rfl := Option.some.inj hsender
            obtain ⟨rfl,rfl⟩ := Prod.mk.inj (Option.some.inj hanswered)
            exact hmatch.mp (h _ rfl) w hw
          · intro h op hop
            obtain rfl := Option.some.inj hop
            exact hmatch.mpr fun w hw => h ieee frame answer w rfl rfl hw
    | _ => exact iff_of_true (fun op hop => by simp [frameOp] at hop) trivial
  | _ => exact iff_of_true trivial trivial

/-- Every read of a run is completed by its own answer, exactly when every answer-shaped frame
that matches a pending read is the answer to it. -/
theorem read_attributed_iff (config : TaskConfig E) (env : Env) (is : List (Input E)) :
    (∀ pre, pre <+: is → (Runs.run step (start config env) pre).ReadAttributed) ↔
      Runs.Meets step ReadFromAsked (start config env) is := by
  refine attributed_iff_meets (fun _ => readFree_of_ordinary) readAttributed_iff read_framed_iff
    (fun t i hstopped => ?_) config env is
  unfold ReadFromAsked
  split
  · simp [hstopped]
  · trivial

/-- Devices `a` and `b` join, `a` is asked for its on/off state, and `b` sends an attribute
response of its own on that cluster with the same transaction number. -/
def misattributedRead : List (Input Engine.bare) :=
  [joins ⟨0xa⟩ ⟨0x1001⟩,joins ⟨0xb⟩ ⟨0x1002⟩,
    .request (.zclRead ⟨0xa⟩ ⟨1⟩ ⟨0x0006⟩ [⟨0x0000⟩]) fun _ => {},
    .event (.zcl {
      ieee := some ⟨0xb⟩
      nwk := ⟨0x1002⟩
      endpoint := ⟨1⟩
      destinationEndpoint := ⟨1⟩
      cluster := ⟨0x0006⟩
      group := none
      wasBroadcast := false
      linkQuality := none
      frame := [0x18,0x01,0x01] }) none fun _ => {}]

/-- A frame of `b` completes the read of `a`. -/
theorem other_device_completes_read :
    ¬ (Runs.run step fresh misattributedRead).ReadAttributed := by
  have hreplies : (Runs.run step fresh misattributedRead).replies = [⟨0,.zclRead (.ok []),
      .zclFrame ⟨0xb⟩ ⟨0x0006⟩ ⟨{ ZclHeader.global 0x01 ⟨0x01⟩ with
        direction := .serverToClient
        disableDefaultResponse := true },[]⟩ none⟩] := by
    rw [fresh_eq]
    rfl
  have hsent : (Runs.run step fresh misattributedRead).sentZcl.map (fun s => s.tx.dest) =
      [.unicast ⟨0xa⟩ ⟨0x1001⟩] := by
    rw [fresh_eq]
    rfl
  intro h
  rw [ReadAttributed,hreplies] at h
  obtain ⟨i,s,hs,-,ieee,nwk,frame,origin,hdest,hcause,-⟩ :=
    h _ (List.mem_singleton_self _) trivial (by simp)
  have hto : s.tx.dest = .unicast ⟨0xa⟩ ⟨0x1001⟩ := by
    have hmem := List.mem_map_of_mem (f := fun s => s.tx.dest) (List.mem_of_getElem? hs)
    rw [hsent] at hmem
    simpa using hmem
  rw [hto] at hdest
  simp only [Destination.unicast.injEq] at hdest
  simp only [Cause.zclFrame.injEq,← hdest.1] at hcause
  simp at hcause

end Reads

end Task
end Rszigbee
