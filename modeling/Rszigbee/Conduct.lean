import Rszigbee.Script
import Rszigbee.Serving
import Rszigbee.Settling

/-! How interviews go beside the loop. Each puts its script to the loop through the channel that all
handles share; whatever else goes on, it is told the answers to its own questions, and what it
reports reaches the loop in the order of the script. -/
namespace Rszigbee

open Interview (Ask ErrorText Said told)

namespace Dialogue

variable {C : Type} {R : C → Type} {ε α : Type}

/-- A run of what is left is a run of the whole after what was heard. -/
theorem Follows.run {d p : Dialogue C R ε α} {heard T : Transcript R} {r : Except ε α}
    (h : d.Follows heard p) (hp : Run p T r) : Run d (heard ++ T) r := by
  induction h generalizing T with
  | refl => exact hp
  | snoc a _ ih =>
    rw [List.append_assoc]
    exact ih (.ask hp)

end Dialogue

variable {E : Engine}

namespace Progress

/-- What is left of the interview, the question it waits on included. -/
def rest : Progress → Interview.Part InterviewOutcome
  | ready rest => rest
  | waiting c _ next => .ask c next

/-- The call it waits on. -/
def pending : Progress → List ℕ
  | ready _ => []
  | waiting _ i _ => [i]

end Progress

namespace Session

variable {errors : ErrorText} {holds : Prop} {party : Party} {s s' : Session E}

section Calls

/-- What nobody waits on any more stays as it is. -/
theorem Step.settled (h : Step errors holds party s s') {i : ℕ} {c : Call E}
    (hc : s.calls[i]? = some c) (hsettled : c.stage.isSettled = true) : s'.calls[i]? = some c := by
  have hput {j : ℕ} {request : Request E} {old stage : Stage E}
      (hj : s.calls[j]? = some ⟨request,old⟩) (hold : old.isSettled = false) :
      (s.put j request stage).calls[i]? = some c := by
    have hij : j ≠ i := by
      rintro rfl
      rw [hc] at hj
      obtain rfl := Option.some.inj hj
      rw [hold] at hsettled
      cases hsettled
    rw [put,List.getElem?_set_ne hij,hc]
  have hoffer (request : Request E) : (s.offer request).calls[i]? = some c :=
    (List.getElem?_append_left (List.getElem?_eq_some_iff.mp hc).1).trans hc
  cases h with
  | call _ _ => exact hoffer _
  | begin _ => exact hoffer _
  | accept hj _ _ => exact hput hj rfl
  | refuse hj _ => exact hput hj rfl
  | lose hj _ => exact hput hj rfl
  | answer hj _ => exact hput hj rfl
  | report hj _ _ => exact hput hj rfl
  | orphan hj _ _ => exact hput hj rfl
  | cancel hj _ =>
    rcases hj with hj | hj
    · exact hput hj rfl
    · exact hput hj rfl
  | abandon hj _ => exact hput hj rfl
  | @receive _ j rest d env hitems hj _ =>
    obtain ⟨request,stage⟩ := d
    unfold Session.receive
    dsimp only
    split
    · exact hput hj rfl
    · exact hc
    · exact hc
  | _ => exact hc

/-- The calls whose requests the channel has taken, in order. -/
def admitted (s : Session E) : List ℕ := s.served ++ s.queue.items

theorem Inv.lt_of_admitted (h : s.Inv) {i : ℕ} (hi : i ∈ s.admitted) : i < s.calls.length := by
  rcases List.mem_append.mp hi with hserved | hqueued
  · obtain ⟨place,hplace⟩ := List.mem_iff_getElem?.mp hserved
    obtain ⟨c,hc,-⟩ := h.requested place i hplace
    exact (List.getElem?_eq_some_iff.mp hc).1
  · exact h.offered i hqueued

/-- The channel takes one request at a time, while the loop runs; the loop takes out the oldest. -/
theorem Step.admitted (h : Step errors holds party s s') : s'.admitted = s.admitted ∨
    ∃ (i : ℕ) (request : Request E), s.calls[i]? = some ⟨request,.offered⟩ ∧
      s.task.stopped = false ∧ s'.admitted = s.admitted ++ [i] := by
  cases h with
  | @accept _ i request hc hrun hroom =>
    refine .inr ⟨i,request,hc,hrun,?_⟩
    rw [Session.admitted,Session.admitted,List.append_assoc,Channel.push_items]
    rfl
  | @receive _ i rest c env hitems hc hrun =>
    have hall : (s.served ++ [i]) ++ s.queue.tail.items = s.admitted := by
      rw [Channel.tail_items,hitems,List.tail_cons,List.append_assoc,Session.admitted,hitems]
      rfl
    refine .inl (Eq.trans ?_ hall)
    unfold Session.receive
    dsimp only
    split <;> rfl
  | _ => exact .inl rfl

end Calls

/-- The request was put to the loop in this call, and this is what was made of it. -/
def Put (s : Session E) (ieee : Ieee) (x : Σ c : Ask, c.Response) (i : ℕ) : Prop :=
  ∃ stage, s.calls[i]? = some ⟨x.1.request ieee,stage⟩ ∧ x.1.heard stage = some x.2

section Put

variable {ieee : Ieee} {x : Σ c : Ask, c.Response} {i : ℕ}

theorem settled_of_heard {c : Ask} {stage : Stage E} {response : c.Response}
    (h : c.heard stage = some response) : stage.isSettled = true := by
  cases stage with
  | posted => rfl
  | returned place reply => rfl
  | offered => cases h
  | queued => cases h
  | received place => cases h
  | gone => cases h

theorem Put.step (h : s.Put ieee x i) (hstep : Step errors holds party s s') : s'.Put ieee x i := by
  obtain ⟨stage,hc,hheard⟩ := h
  exact ⟨stage,hstep.settled hc (settled_of_heard hheard),hheard⟩

/-- What was put to the loop went into the channel, unless the loop had stopped. -/
theorem Put.admitted (h : s.Put ieee x i) (hinv : s.Inv) :
    i ∈ s.admitted ∨ s.task.stopped = true := by
  obtain ⟨stage,hc,hheard⟩ := h
  have hstands := hinv.stands i _ hc
  have hserved {place : ℕ} (hplace : s.served[place]? = some i) : i ∈ s.admitted :=
    List.mem_append_left _ (List.mem_of_getElem? hplace)
  cases stage with
  | posted => exact .inl hstands.2
  | returned place reply =>
    cases place with
    | none => exact .inr hstands.2.1
    | some place =>
      cases reply with
      | none => exact .inl (hserved hstands.2.1)
      | some reply => exact .inl (hserved hstands.2.1)
  | offered => cases hheard
  | queued => cases hheard
  | received place => cases hheard
  | gone => cases hheard

/-- An update that was handed over is in the channel. -/
theorem Put.admitted_of_told {update : InterviewUpdate} (h : s.Put ieee (told update) i)
    (hinv : s.Inv) : i ∈ s.admitted := by
  obtain ⟨stage,hc,hheard⟩ := h
  have hstands := hinv.stands i _ hc
  cases stage with
  | posted => exact hstands.2
  | returned place reply =>
    cases reply with
    | none => cases hheard
    | some reply => cases hheard
  | offered => cases hheard
  | queued => cases hheard
  | received place => cases hheard
  | gone => cases hheard

/-- An update is refused by a loop that has stopped, and by no other. -/
theorem Put.stopped {update : InterviewUpdate} {e : RuntimeError}
    (h : s.Put ieee ⟨.update update,.error e⟩ i) (hinv : s.Inv) :
    e = .stopped ∧ s.task.stopped = true := by
  obtain ⟨stage,hc,hheard⟩ := h
  have hstands := hinv.stands i _ hc
  cases stage with
  | posted => cases hheard
  | returned place reply =>
    cases reply with
    | some reply => cases hheard
    | none =>
      refine ⟨by cases hheard; rfl,?_⟩
      cases place with
      | none => exact hstands.2.1
      | some place => cases hstands.1
  | offered => cases hheard
  | queued => cases hheard
  | received place => cases hheard
  | gone => cases hheard

end Put

/-- What an interview has been told, and in which calls: it made them itself, those that went into
the channel did so in this order, and the others come after them. -/
structure Conducted (errors : ErrorText) (s : Session E) (k : ℕ) (a : Spawned)
    (T : Transcript Ask.Response) (places : List ℕ) : Prop where
  follows : (Interview.run errors).Follows T a.progress.rest
  put : List.Forall₂ (s.Put a.ieee) T places
  own : ∀ i ∈ places ++ a.progress.pending, s.makers[i]? = some (some k)
  order : ∃ early late, places ++ a.progress.pending = early ++ late ∧
    List.Sublist early s.admitted ∧ ∀ i ∈ late, i ∉ s.admitted

section Conduct

variable {k : ℕ} {a : Spawned} {T : Transcript Ask.Response} {places : List ℕ}

theorem conducted_begun (s : Session E) (k : ℕ) (ieee : Ieee) :
    s.Conducted errors k ⟨ieee,.ready (Interview.run errors)⟩ [] [] :=
  ⟨.refl,.nil,by simp [Progress.pending],[],[],rfl,List.nil_sublist _,by simp⟩

/-- A call keeps its maker. -/
theorem Step.maker (hstep : Step errors holds party s s') (hsane : s.Sane) {i : ℕ}
    {maker : Option ℕ} (h : s.makers[i]? = some maker) : s'.makers[i]? = some maker := by
  obtain ⟨more,hmore⟩ := (hstep.makers hsane.makers).1
  rw [← hmore,List.getElem?_append_left (List.getElem?_eq_some_iff.mp h).1]
  exact h

/-- What comes first of two parts, of which one is in and the other out. -/
theorem filter_early {A early late : List ℕ} (hearly : ∀ i ∈ early, i ∈ A)
    (hlate : ∀ i ∈ late, i ∉ A) : (early ++ late).filter (· ∈ A) = early := by
  rw [List.filter_append,List.filter_eq_self.mpr (by simpa using hearly),
    List.filter_eq_nil_iff.mpr (by simpa using hlate),List.append_nil]

/-- Whoever takes a step, an interview that takes none keeps its calls. -/
theorem Conducted.step (h : s.Conducted errors k a T places) (hsane : s.Sane)
    (hstep : Step errors holds party s s') : s'.Conducted errors k a T places := by
  obtain ⟨hfollows,hput,hown,early,late,hsplit,hearly,hlate⟩ := h
  have hinv := hsane.inv
  have hput' : List.Forall₂ (s'.Put a.ieee) T places := hput.imp fun x i hx => hx.step hstep
  refine ⟨hfollows,hput',fun i hi => hstep.maker hsane (hown i hi),?_⟩
  rcases hstep.admitted with hsame | ⟨i,request,hi,hrun,hmore⟩
  · rw [hsame]
    exact ⟨early,late,hsplit,hearly,hlate⟩
  have hnew : i ∉ s.admitted := hinv.stands i _ hi
  have hplaces : ∀ j ∈ places, j ∈ s.admitted := by
    intro j hj
    obtain ⟨x,-,hx⟩ := exists_of_forall₂ hput.flip hj
    refine (Put.admitted hx hinv).resolve_right fun hstopped => ?_
    rw [hrun] at hstopped
    cases hstopped
  rw [hmore]
  by_cases hmine : a.progress.pending = [i]
  · -- The loop runs, so the earlier calls are all in the channel.
    have hsame : early = places := by
      rw [← filter_early hearly.subset hlate,← hsplit,hmine]
      exact filter_early hplaces (by simpa using hnew)
    refine ⟨places ++ [i],[],by rw [hmine,List.append_nil],?_,by simp⟩
    exact (hsame ▸ hearly).append (List.Sublist.refl [i])
  · refine ⟨early,late,hsplit,hearly.trans (List.sublist_append_left _ _),fun j hj hmem => ?_⟩
    rcases List.mem_append.mp hmem with hold | hlast
    · exact hlate j hj hold
    · obtain rfl := List.mem_singleton.mp hlast
      have hthere : j ∈ places ++ a.progress.pending := hsplit ▸ List.mem_append_right _ hj
      rcases List.mem_append.mp hthere with hplace | hpending
      · exact hnew (hplaces j hplace)
      · cases hprogress : a.progress with
        | ready rest =>
          rw [hprogress] at hpending
          cases hpending
        | waiting c k next =>
          rw [hprogress] at hpending hmine
          exact hmine (congrArg (fun k => [k]) (List.mem_singleton.mp hpending).symm)

/-- Every interview is conducted. -/
def Orderly (errors : ErrorText) (s : Session E) : Prop :=
  ∀ (k : ℕ) (a : Spawned), s.interviews[k]? = some a →
    ∃ T places, s.Conducted errors k a T places

/-- What is there after a turn was there before, or is at its beginning. -/
theorem getElem?_turn {input : Input E} (ha : (s.turn errors input).interviews[k]? = some a) :
    s.interviews[k]? = some a ∨ ∃ ieee, a = ⟨ieee,.ready (Interview.run errors)⟩ := by
  obtain ⟨new,-,hthis,-⟩ := s.interviews_turn errors input
  rw [hthis] at ha
  rcases Nat.lt_or_ge k s.interviews.length with hold | hnew
  · rw [List.getElem?_append_left hold] at ha
    exact .inl ha
  · rw [List.getElem?_append_right hnew] at ha
    obtain ⟨i,-,rfl⟩ := List.mem_map.mp (List.mem_of_getElem? ha)
    exact .inr ⟨i.1,rfl⟩

theorem Orderly.step (h : s.Orderly errors) (hsane : s.Sane)
    (hstep : Step errors holds party s s') : s'.Orderly errors := by
  have hkeep {j : ℕ} {a : Spawned} (ha : s.interviews[j]? = some a) :
      ∃ T places, s'.Conducted errors j a T places := by
    obtain ⟨T,places,hconducted⟩ := h j a ha
    exact ⟨T,places,hconducted.step hsane hstep⟩
  have hturn {j : ℕ} {a : Spawned}
      (ha : s.interviews[j]? = some a ∨ ∃ ieee, a = ⟨ieee,.ready (Interview.run errors)⟩) :
      ∃ T places, s'.Conducted errors j a T places := by
    rcases ha with ha | ⟨ieee,rfl⟩
    · exact hkeep ha
    · exact ⟨[],[],conducted_begun s' j ieee⟩
  intro j a ha
  cases hstep with
  | @begin _ k ieee c next hk =>
    have ha' : (s.interviews.set k ⟨ieee,.waiting c s.calls.length next⟩)[j]? = some a := ha
    rw [getElem?_set_of hk] at ha'
    split at ha'
    · rename_i hkj
      subst hkj
      obtain rfl := Option.some.inj ha'
      obtain ⟨T,places,hfollows,hput,hown,early,late,hsplit,hearly,hlate⟩ := hkeep hk
      refine ⟨T,places,hfollows,hput,fun i hi => ?_,early,late ++ [s.calls.length],?_,hearly,
        fun i hi => ?_⟩
      · rcases List.mem_append.mp hi with hplace | hpending
        · exact hown i (List.mem_append_left _ hplace)
        · obtain rfl := List.mem_singleton.mp hpending
          show (s.makers ++ [some k])[s.calls.length]? = _
          rw [← hsane.makers]
          exact List.getElem?_concat_length
      · rw [← List.append_assoc,← hsplit]
        exact congrArg (· ++ _) (List.append_nil places).symm
      · rcases List.mem_append.mp hi with hi | hi
        · exact hlate i hi
        · obtain rfl := List.mem_singleton.mp hi
          exact fun hmem => Nat.lt_irrefl _ (hsane.inv.lt_of_admitted hmem)
    · exact hkeep ha'
  | @resume _ k i ieee c next call response hk hi hr =>
    have ha' : (s.interviews.set k ⟨ieee,.ready (next response)⟩)[j]? = some a := ha
    rw [getElem?_set_of hk] at ha'
    split at ha'
    · rename_i hkj
      subst hkj
      obtain rfl := Option.some.inj ha'
      obtain ⟨T,places,hfollows,hput,hown,early,late,hsplit,hearly,hlate⟩ := hkeep hk
      obtain ⟨stage,hc,-⟩ := hsane.tended _ (List.mem_of_getElem? hk) c i next rfl
      obtain rfl := Option.some.inj (hc.symm.trans hi)
      refine ⟨T ++ [⟨c,response⟩],places ++ [i],.snoc response hfollows,?_,?_,early,late,?_,hearly,
        hlate⟩
      · exact List.rel_append hput (.cons ⟨stage,hc,hr⟩ .nil)
      · rw [show Progress.pending (.ready (next response)) = [] from rfl,List.append_nil]
        exact hown
      · rw [← hsplit]
        exact List.append_nil _
    · exact hkeep ha'
  | @receive _ i rest c env hitems hc hrun =>
    refine hturn ?_
    unfold Session.receive at ha
    dsimp only at ha
    split at ha
    · exact getElem?_turn ha
    · rcases getElem?_turn ha with hold | hnew
      · exact getElem?_turn hold
      · exact .inr hnew
    · exact getElem?_turn ha
  | abandon _ _ => exact hturn (getElem?_turn ha)
  | event event origin env _ => exact hturn (getElem?_turn ha)
  | tick env _ => exact hturn (getElem?_turn ha)
  | unplug env _ _ => exact hturn (getElem?_turn ha)
  | close env _ _ _ => exact hturn (getElem?_turn ha)
  | _ => exact hkeep ha

theorem Reachable.orderly (h : Reachable errors holds s) : s.Orderly errors := by
  induction h with
  | start config env => exact fun k a ha => by cases ha
  | step hreach hstep ih => exact ih.step hreach.sane hstep

/-- An interview that is over either was told that the runtime had stopped, or has gone through its
whole script: it put every question and every update of it to the loop, in calls that it made itself
and that the channel took in that order, and the outcome is what the answers make of it, each step
through or failed. -/
theorem interviews_conducted (h : Reachable errors holds s) {k : ℕ} {ieee : Ieee}
    {result : Except RuntimeError InterviewOutcome}
    (hk : s.interviews[k]? = some ⟨ieee,.ready (.done result)⟩) :
    (result = .error .stopped ∧ s.task.stopped = true) ∨
      ∃ (said : Said) (places : List ℕ), result = .ok (said.outcome errors) ∧
        List.Forall₂ (s.Put ieee) (said.transcript errors) places ∧
        (∀ i ∈ places, s.makers[i]? = some (some k)) ∧
        List.Sublist places (s.served ++ s.queue.items) ∧
        ((said.outcome errors).completed ++ (said.outcome errors).failures.map Prod.fst).Perm
          said.steps := by
  have hinv := h.sane.inv
  obtain ⟨T,places,hfollows,hput,hown,early,late,hsplit,hearly,hlate⟩ := h.orderly k _ hk
  have hrun : Dialogue.Run (Interview.run errors) T result := by
    have hdone := Dialogue.Follows.run hfollows (.done result)
    rwa [List.append_nil] at hdone
  have hplaces : places = early ++ late := (List.append_nil _).symm.trans hsplit
  cases result with
  | error e =>
    obtain ⟨x,hx,update,rfl⟩ := Interview.run_blames errors T e hrun
    obtain ⟨i,-,hthis⟩ := exists_of_forall₂ hput hx
    obtain ⟨rfl,hstopped⟩ := hthis.stopped hinv
    exact .inl ⟨rfl,hstopped⟩
  | ok outcome =>
    obtain ⟨said,rfl,rfl⟩ := Interview.run_follows_script errors T outcome hrun
    refine .inr ⟨said,places,rfl,hput,fun i hi => hown i (List.mem_append_left _ hi),?_,
      said.steps_perm errors⟩
    -- The last call went into the channel, so all of them did.
    have hnone : late = [] := by
      rcases List.eq_nil_or_concat late with hnil | ⟨late',i,hlast⟩
      · exact hnil
      have hreverse := List.rel_reverse hput
      rw [hplaces,hlast,Said.transcript] at hreverse
      simp only [List.reverse_append,List.reverse_cons,List.concat_eq_append,List.reverse_nil,
        List.nil_append,List.cons_append] at hreverse
      cases hreverse with
      | cons hthis _ =>
        refine absurd (hthis.admitted_of_told hinv) (hlate i ?_)
        rw [hlast]
        simp
    rw [hplaces,hnone,List.append_nil]
    exact hearly

end Conduct

section Described

/-- A session with nothing on its way to the loop and one interview, of a device on record. -/
structure Attending (s : Session Engine.bare) (ieee : Ieee)
    (rest : Interview.Part InterviewOutcome) : Prop where
  reachable : Reachable untold True s
  runs : s.task.stopped = false
  idle : s.queue.items = []
  known : ∃ nwk, s.task.devices.nwkOf ieee = some nwk
  interview : s.interviews = [⟨ieee,.ready rest⟩]

theorem attending_spawned : Attending spawned ⟨1⟩ (Interview.run untold) := by
  have hfresh : spawned = { ({ bare with task := Task.fresh }.turn untold
      (Task.joins ⟨1⟩ ⟨2⟩)) with
      calls := [⟨.interview ⟨1⟩,.queued⟩]
      makers := [none]
      queue := joined.queue.push 0 room_bare }.receive untold 0 ⟨.interview ⟨1⟩,.queued⟩
        fun _ => {} := rfl
  refine ⟨reachable_spawned,?_,rfl,⟨⟨2⟩,?_⟩,?_⟩
  · rw [hfresh,Task.fresh_eq]
    rfl
  · rw [hfresh,Task.fresh_eq]
    rfl
  · rw [hfresh,Task.fresh_eq]
    rfl

/-- A radio that has each answer at once. -/
def radio (device : ZdoClusterId → Bytes) : Ask → Env
  | .update _ => {}
  | .zdo cluster _ => { sendZdo := .ok (some (device cluster)) }
  | .zclRead endpoint cluster _ =>
    { sendZcl := .ok (some ⟨none,⟨2⟩,endpoint,⟨1⟩,cluster,none,false,none,[]⟩) }

/-- What an interview hears through it; the engine makes nothing of a ZCL frame. -/
def hears (device : ZdoClusterId → Bytes) : (c : Ask) → c.Response
  | .update _ => .ok ()
  | .zdo cluster _ => .ok (device cluster)
  | .zclRead _ _ _ => .ok []

variable {s : Session Engine.bare} {ieee : Ieee} (device : ZdoClusterId → Bytes)

/-- What the adapter hands over at once is answered in the same turn. -/
theorem repliesTo_ask {t : Task Engine.bare} (hrun : t.stopped = false) (hs : t.Sound)
    (hknown : ∃ nwk, t.devices.nwkOf ieee = some nwk) {c : Ask}
    (hexpects : (c.request ieee : Request Engine.bare).expects = true) :
    ∃ a, (t.step (.request (c.request ieee) fun _ => radio device c)).repliesTo
      t.requests.length = [a] ∧ c.received a.reply = some (hears device c) := by
  have hnone : t.replies.filter (fun a => a.id = t.requests.length) = [] :=
    hs.unopened _ (le_refl _)
  have hlast {u : Task Engine.bare} {a : Answer Engine.bare} (hid : a.id = t.requests.length)
      (hu : u.replies = t.replies ++ [a]) : u.repliesTo t.requests.length = [a] := by
    rw [Task.repliesTo,hu,List.filter_append,hnone]
    simp [hid]
  obtain ⟨nwk,hnwk⟩ := hknown
  obtain ⟨e,he,-⟩ := Inventory.nwkOf_eq_some.mp hnwk
  cases c with
  | update u => cases hexpects
  | zdo cluster build =>
    refine ⟨⟨t.requests.length,.zdo (.ok (device cluster)),.inline⟩,hlast rfl ?_,rfl⟩
    simp [Task.step,hrun,Task.handleRequest,Task.sendZdo,Ask.request,he,radio,Task.answer,
      Task.transmitZdo]
  | zclRead endpoint cluster attributes =>
    refine ⟨⟨t.requests.length,.zclRead (.ok []),.inline⟩,hlast rfl ?_,rfl⟩
    simp [Task.step,hrun,Task.handleRequest,Task.zclRead,Ask.request,he,radio,Task.answer,
      Task.transmitZcl,Task.decodedAttributes,Engine.bare]

theorem Attending.ask {c : Ask} {next : c.Response → Interview.Part InterviewOutcome}
    (h : Attending s ieee (.ask c next)) : ∃ s', Attending s' ieee (next (hears device c)) := by
  have hk : s.interviews[0]? = some ⟨ieee,.ready (.ask c next)⟩ := by
    rw [h.interview]
    rfl
  have hinv := h.reachable.sane.inv
  obtain ⟨m,hrun,htask,hidle,hcalls,hinterviews⟩ : ∃ m, Onward untold True s m ∧ _ :=
    exists_received h.runs h.idle hk fun _ => radio device c
  rw [h.interview] at hinterviews
  have hreach : Reachable untold True m := h.reachable.onward hrun
  have hrequest : (c.request ieee : Request Engine.bare) ≠ .stop := by cases c <;> simp [Ask.request]
  have hruns : m.task.stopped = false := by
    rw [htask,Task.stopped_step,h.runs]
    cases c <;> rfl
  have hknown : ∃ nwk, m.task.devices.nwkOf ieee = some nwk := by
    rw [htask,Task.nwkOf_request h.runs hrequest]
    exact h.known
  have hwaiting : m.interviews[0]? = some ⟨ieee,.waiting c s.calls.length next⟩ := by
    rw [hinterviews]
    rfl
  have hthere := hcalls ▸ List.getElem?_concat_length (l := s.calls)
  cases hexpects : (c.request ieee : Request Engine.bare).expects with
  | false =>
    rw [hexpects,if_neg (by simp)] at hthere
    have hheard : c.heard (.posted : Stage Engine.bare) = some (hears device c) := by
      cases c with
      | update u => rfl
      | zdo cluster build => cases hexpects
      | zclRead endpoint cluster attributes => cases hexpects
    refine ⟨_,hreach.step (.resume hwaiting hthere hheard),hruns,hidle,hknown,?_⟩
    show m.interviews.set 0 _ = _
    rw [hinterviews]
    rfl
  | true =>
    rw [hexpects,if_pos rfl] at hthere
    obtain ⟨a,ha,hreply⟩ := repliesTo_ask device h.runs hinv.answerable.sound h.known hexpects
    rw [← htask] at ha
    have hanswer : Step untold True .runtime m _ := .answer hthere (congrArg List.head? ha)
    have hreturned : (m.put s.calls.length (c.request ieee)
        (.returned (some s.task.requests.length) (some a.reply))).calls[s.calls.length]? =
          some ⟨c.request ieee,.returned (some s.task.requests.length) (some a.reply)⟩ := by
      rw [put,getElem?_set_of hthere,if_pos rfl]
    refine ⟨_,(hreach.step hanswer).step (.resume hwaiting hreturned hreply),hruns,hidle,hknown,?_⟩
    show m.interviews.set 0 _ = _
    rw [hinterviews]
    rfl

theorem Attending.done {rest : Interview.Part InterviewOutcome} (h : Attending s ieee rest) :
    ∃ s', Attending s' ieee (.done (rest.result (hears device))) := by
  induction rest generalizing s with
  | done result => exact ⟨s,h⟩
  | ask c next ih =>
    obtain ⟨s',hs'⟩ := h.ask device
    exact ih _ hs'

/-- A mains-powered router with one endpoint. -/
def router (cluster : ZdoClusterId) : Bytes :=
  if cluster = .nodeDescReq then
    [0x01,0x00,0x02,0x00,0x01,0x40,0x8e,0x49,0x10,0x52,0x52,0x00,0x2c,0x00]
  else if cluster = .activeEpReq then [0x02,0x00,0x02,0x00,0x01,0x05]
  else [0x03,0x00,0x02,0x00,0x0a,0x05,0x04,0x01,0x00,0x01,0x00,0x01,0x00,0x00,0x00]

/-- What its interview makes of it: it tells no model. -/
def described : InterviewOutcome where
  state := .successful
  completed := [.nodeDescriptor,.activeEndpoints,.simpleDescriptor ⟨5⟩]
  failures := [(.basicAttributes,"answered without a modelId, so no definition can be resolved")]
  endpoints := [⟨⟨5⟩,⟨0x0104⟩,0x0100,[⟨0⟩],[]⟩]
  basic := some ⟨none,none,none,none,none,none,none,none⟩

theorem run_router : (Interview.run untold).result (hears router) = .ok described := rfl

theorem described_conducted : ∃ s : Session Engine.bare, s.task.stopped = false ∧
    s.interviews = [⟨⟨1⟩,.ready (.done (.ok described))⟩] ∧
    ∃ (said : Said) (places : List ℕ), said.outcome untold = described ∧
      List.Forall₂ (s.Put ⟨1⟩) (said.transcript untold) places ∧
      (∀ i ∈ places, s.makers[i]? = some (some 0)) ∧
      List.Sublist places (s.served ++ s.queue.items) ∧
      (described.completed ++ described.failures.map Prod.fst).Perm said.steps := by
  obtain ⟨s,hs⟩ := attending_spawned.done router
  rw [run_router] at hs
  have hk : s.interviews[0]? = some ⟨⟨1⟩,.ready (.done (.ok described))⟩ := by
    rw [hs.interview]
    rfl
  refine ⟨s,hs.runs,hs.interview,?_⟩
  rcases interviews_conducted hs.reachable hk with ⟨herror,-⟩ | ⟨said,places,hresult,hput,hown,
    hplaces,hsteps⟩
  · cases herror
  · obtain hsame := Except.ok.inj hresult
    rw [← hsame] at hsteps
    exact ⟨said,places,hsame.symm,hput,hown,hplaces,hsteps⟩

end Described

end Session
end Rszigbee
