import Rszigbee.Handles

/-! Interviews run beside the loop, and so nobody waits for ever: wherever a session is, its own
tasks can bring every method to its end and every interview to its outcome, whatever the radio
does. -/
namespace Rszigbee

open Interview (Ask ErrorText)

variable {E : Engine}

namespace Stage

def isOffered : Stage E → Bool
  | .offered => true
  | _ => false

def isQueued : Stage E → Bool
  | .queued => true
  | _ => false

/-- How many steps are left to bring a request to the loop. -/
def weight (stage : Stage E) : ℕ :=
  (if stage.isOffered then 4 else 0) + if stage.isQueued then 1 else 0

@[simp] theorem weight_offered : (offered : Stage E).weight = 4 := rfl
@[simp] theorem weight_queued : (queued : Stage E).weight = 1 := rfl
@[simp] theorem weight_received (place : ℕ) : (received place : Stage E).weight = 0 := rfl
@[simp] theorem weight_posted : (posted : Stage E).weight = 0 := rfl
@[simp] theorem weight_returned (place : Option ℕ) (reply : Option (Reply E)) :
    (returned place reply).weight = 0 := rfl

/-- Waiting for an answer to a request that the loop has. -/
def isReceived : Stage E → Bool
  | .received _ => true
  | _ => false

/-- Over: there is nothing more to come. -/
def isSettled : Stage E → Bool
  | .posted => true
  | .returned _ _ => true
  | .gone => true
  | _ => false

end Stage

namespace Session

variable {errors : ErrorText} {holds : Prop} {party : Party} {s s' : Session E}

section Tending

/-- An interview waits on a call that was made for it and that nobody gives up. -/
def Tended (s : Session E) : Prop :=
  ∀ a ∈ s.interviews, ∀ c i next, a.progress = .waiting c i next →
    ∃ stage, s.calls[i]? = some ⟨c.request a.ieee,stage⟩ ∧ stage ≠ .gone

theorem Tended.of (h : s.Tended)
    (hinterviews : ∀ a ∈ s'.interviews, ∀ c i next, a.progress = .waiting c i next →
      a ∈ s.interviews)
    (hcalls : ∀ i c, s.AwaitedBy i → s.calls[i]? = some c →
      ∃ stage, s'.calls[i]? = some ⟨c.request,stage⟩ ∧ (stage = .gone → c.stage = .gone)) :
    s'.Tended := by
  intro a ha c i next hwaiting
  have hold := hinterviews a ha c i next hwaiting
  obtain ⟨stage,hi,hstage⟩ := h a hold c i next hwaiting
  obtain ⟨stage',hi',hgone⟩ := hcalls i _ ⟨a,hold,c,next,hwaiting⟩ hi
  exact ⟨stage',hi',fun hthis => hstage (hgone hthis)⟩

/-- What a turn spawns waits on nothing yet. -/
theorem waiting_of_turn {input : Input E} {a : Spawned} (ha : a ∈ (s.turn errors input).interviews)
    {c : Ask} {i : ℕ} {next : c.Response → Interview.Part InterviewOutcome}
    (h : a.progress = .waiting c i next) : a ∈ s.interviews := by
  obtain ⟨new,-,hthis,-⟩ := s.interviews_turn errors input
  rw [hthis,List.mem_append] at ha
  rcases ha with hold | hnew
  · exact hold
  · obtain ⟨i,-,rfl⟩ := List.mem_map.mp hnew
    cases h

theorem Tended.step (h : s.Tended) (hstep : Step errors holds party s s') : s'.Tended := by
  have hextends := hstep.extends
  have hsame {calls : List (Call E)} (hcalls : calls = s.calls) (i : ℕ) (c : Call E)
      (hc : s.calls[i]? = some c) :
      ∃ stage, calls[i]? = some ⟨c.request,stage⟩ ∧ (stage = .gone → c.stage = .gone) :=
    ⟨c.stage,hcalls ▸ hc,id⟩
  have hgone {i : ℕ} (request : Request E) (hawaited : ¬ s.AwaitedBy i) (j : ℕ) (c : Call E)
      (hj : s.AwaitedBy j) (hc : s.calls[j]? = some c) :
      ∃ stage, (s.put i request .gone).calls[j]? = some ⟨c.request,stage⟩ ∧
        (stage = .gone → c.stage = .gone) := by
    have hij : i ≠ j := by
      rintro rfl
      exact hawaited hj
    refine ⟨c.stage,?_,id⟩
    rw [put,List.getElem?_set_ne hij,hc]
  have htasks (hparty : party = .runtime) (i : ℕ) (c : Call E) (_ : s.AwaitedBy i)
      (hc : s.calls[i]? = some c) :
      ∃ stage, s'.calls[i]? = some ⟨c.request,stage⟩ ∧ (stage = .gone → c.stage = .gone) := by
    obtain ⟨stage,hc',-,hthis⟩ := hextends.calls i c hc
    exact ⟨stage,hc',hthis hparty⟩
  cases hstep with
  | clone _ => exact h.of (fun _ ha _ _ _ _ => ha) fun i c _ => hsame rfl i c
  | drop _ => exact h.of (fun _ ha _ _ _ _ => ha) fun i c _ => hsame rfl i c
  | call _ _ =>
    refine h.of (fun _ ha _ _ _ _ => ha) fun i c _ hc => ⟨c.stage,?_,id⟩
    exact (List.getElem?_append_left (List.getElem?_eq_some_iff.mp hc).1).trans hc
  | @cancel _ i request hc hawaited =>
    exact h.of (fun _ ha _ _ _ _ => ha) (hgone request hawaited)
  | @abandon _ i place request hc hawaited =>
    exact h.of (fun _ ha _ _ _ hwaiting => waiting_of_turn ha hwaiting) (hgone request hawaited)
  | event event origin env _ =>
    exact h.of (fun _ ha _ _ _ hwaiting => waiting_of_turn ha hwaiting) fun i c _ => hsame rfl i c
  | unplug env _ _ =>
    exact h.of (fun _ ha _ _ _ hwaiting => waiting_of_turn ha hwaiting) fun i c _ => hsame rfl i c
  | tick env _ => exact h.of (fun _ ha _ _ _ hwaiting => waiting_of_turn ha hwaiting) (htasks rfl)
  | close env _ _ _ =>
    exact h.of (fun _ ha _ _ _ hwaiting => waiting_of_turn ha hwaiting) (htasks rfl)
  | @receive _ i rest c env hitems hc hrun =>
    refine h.of (fun a ha _ _ _ hwaiting => ?_) (htasks rfl)
    unfold Session.receive at ha
    dsimp only at ha
    split at ha
    · exact waiting_of_turn ha hwaiting
    · exact waiting_of_turn (waiting_of_turn ha hwaiting) hwaiting
    · exact waiting_of_turn ha hwaiting
  | @begin _ k ieee c next hk =>
    intro a ha c' i next' hwaiting
    rcases List.mem_or_eq_of_mem_set ha with hold | rfl
    · obtain ⟨stage,hi,hstage⟩ := h a hold c' i next' hwaiting
      refine ⟨stage,?_,hstage⟩
      exact (List.getElem?_append_left (List.getElem?_eq_some_iff.mp hi).1).trans hi
    · cases hwaiting
      exact ⟨.offered,List.getElem?_concat_length,by simp⟩
  | resume _ _ _ =>
    refine h.of (fun a ha _ _ _ hwaiting => ?_) (htasks rfl)
    rcases List.mem_or_eq_of_mem_set ha with hold | rfl
    · exact hold
    · cases hwaiting
  | _ => exact h.of (fun _ ha _ _ _ _ => ha) (htasks rfl)

/-- Every call that is made has a maker, and keeps it. -/
theorem Step.makers (h : Step errors holds party s s')
    (hlength : s.makers.length = s.calls.length) :
    s.makers <+: s'.makers ∧ s'.makers.length = s'.calls.length := by
  have hput (i : ℕ) (request : Request E) (stage : Stage E) :
      s.makers.length = (s.put i request stage).calls.length := by
    rw [hlength,put,List.length_set]
  have hoffer (maker : Option ℕ) (c : Call E) :
      (s.makers ++ [maker]).length = (s.calls ++ [c]).length := by
    rw [List.length_append,List.length_append,hlength]
    rfl
  cases h with
  | call _ _ => exact ⟨List.prefix_append _ _,hoffer _ _⟩
  | begin _ => exact ⟨List.prefix_append _ _,hoffer _ _⟩
  | accept _ _ _ => exact ⟨List.prefix_rfl,hput _ _ _⟩
  | refuse _ _ => exact ⟨List.prefix_rfl,hput _ _ _⟩
  | lose _ _ => exact ⟨List.prefix_rfl,hput _ _ _⟩
  | answer _ _ => exact ⟨List.prefix_rfl,hput _ _ _⟩
  | report _ _ _ => exact ⟨List.prefix_rfl,hput _ _ _⟩
  | orphan _ _ _ => exact ⟨List.prefix_rfl,hput _ _ _⟩
  | cancel _ _ => exact ⟨List.prefix_rfl,hput _ _ _⟩
  | abandon _ _ => exact ⟨List.prefix_rfl,hput _ _ _⟩
  | @receive _ i rest c env _ _ _ =>
    unfold Session.receive
    dsimp only
    split
    · exact ⟨List.prefix_rfl,hput _ _ _⟩
    · exact ⟨List.prefix_rfl,hlength⟩
    · exact ⟨List.prefix_rfl,hlength⟩
  | _ => exact ⟨List.prefix_rfl,hlength⟩

/-- What every reachable session has. -/
structure Sane (s : Session E) : Prop where
  inv : s.Inv
  tended : s.Tended
  makers : s.makers.length = s.calls.length

theorem Sane.step (h : s.Sane) (hstep : Step errors holds party s s') : s'.Sane :=
  ⟨h.inv.step errors hstep,h.tended.step hstep,(hstep.makers h.makers).2⟩

theorem Reachable.sane (h : Reachable errors holds s) : s.Sane := by
  induction h with
  | start config env => exact ⟨inv_start config env,by simp [Tended,Session.start],rfl⟩
  | step _ hstep ih => exact ih.step hstep

/-- What the tasks of the runtime bring about by themselves. -/
abbrev Onward (errors : ErrorText) (holds : Prop) : Session E → Session E → Prop :=
  Relation.ReflTransGen (Step errors holds .runtime)

theorem Reachable.onward (h : Reachable errors holds s) (hrun : Onward errors holds s s') :
    Reachable errors holds s' := by
  induction hrun with
  | refl => exact h
  | tail _ hstep ih => exact ih.step hstep

theorem Sane.onward (h : s.Sane) (hrun : Onward errors holds s s') : s'.Sane := by
  induction hrun with
  | refl => exact h
  | tail _ hstep ih => exact ih.step hstep

end Tending

section Draining

/-- Nothing is on its way to the loop, and nothing in its channel. -/
structure Empty (s : Session E) : Prop where
  offered : ∀ c ∈ s.calls, c.stage.isOffered = false
  queued : ∀ c ∈ s.calls, c.stage.isQueued = false
  channel : s.task.stopped = false → s.queue.items = []

def count (p : Stage E → Bool) (s : Session E) : ℕ := s.calls.countP fun c => p c.stage

theorem count_put (p : Stage E → Bool) {i : ℕ} {request : Request E} {old : Stage E}
    (hc : s.calls[i]? = some ⟨request,old⟩) (stage : Stage E) :
    (s.put i request stage).count p + (if p old then 1 else 0) =
      s.count p + if p stage then 1 else 0 := by
  obtain ⟨hlt,hi⟩ := List.getElem?_eq_some_iff.mp hc
  have hset : (s.put i request stage).count p =
      s.calls.countP (fun c => p c.stage) - (if p s.calls[i].stage then 1 else 0) +
        if p stage then 1 else 0 := List.countP_set hlt
  have hpos : p old = true → 0 < s.calls.countP fun c => p c.stage := fun hold =>
    List.countP_pos_iff.mpr ⟨_,List.mem_of_getElem? hc,hold⟩
  rw [hi] at hset
  dsimp only at hset
  rw [hset,count]
  split
  · rename_i hold
    have := hpos hold
    omega
  · omega

/-- What is still to be done until nothing is on its way. -/
def load (s : Session E) : ℕ :=
  4 * s.count Stage.isOffered + s.count Stage.isQueued + 2 * s.queue.items.length

theorem load_put {i : ℕ} {request : Request E} {old : Stage E}
    (hc : s.calls[i]? = some ⟨request,old⟩) (stage : Stage E) :
    (s.put i request stage).load + old.weight = s.load + stage.weight := by
  have hoffered := count_put Stage.isOffered hc stage
  have hqueued := count_put Stage.isQueued hc stage
  have hqueue : (s.put i request stage).queue = s.queue := rfl
  simp only [load,Stage.weight,hqueue]
  split_ifs at hoffered hqueued ⊢ <;> omega

theorem exists_of_isOffered (h : ∃ c ∈ s.calls, c.stage.isOffered = true) :
    ∃ (i : ℕ) (request : Request E), s.calls[i]? = some ⟨request,.offered⟩ := by
  obtain ⟨⟨request,stage⟩,hc,hstage⟩ := h
  obtain ⟨i,hi⟩ := List.mem_iff_getElem?.mp hc
  cases stage with
  | offered => exact ⟨i,request,hi⟩
  | _ => cases hstage

theorem exists_of_isQueued (h : ∃ c ∈ s.calls, c.stage.isQueued = true) :
    ∃ (i : ℕ) (request : Request E), s.calls[i]? = some ⟨request,.queued⟩ := by
  obtain ⟨⟨request,stage⟩,hc,hstage⟩ := h
  obtain ⟨i,hi⟩ := List.mem_iff_getElem?.mp hc
  cases stage with
  | queued => exact ⟨i,request,hi⟩
  | _ => cases hstage

theorem load_receive {i : ℕ} {rest : List ℕ} {c : Call E} (env : ℕ → Env)
    (hitems : s.queue.items = i::rest) (hc : s.calls[i]? = some c) :
    (s.receive errors i c env).load < s.load := by
  obtain ⟨request,stage⟩ := c
  have htake : (s.take errors i request env).load + 2 = s.load := by
    have hcount : (s.take errors i request env).load =
        4 * s.count Stage.isOffered + s.count Stage.isQueued + 2 * s.queue.items.tail.length := rfl
    rw [hcount,load,hitems,List.tail_cons,List.length_cons]
    omega
  unfold Session.receive
  dsimp only
  split
  · have hput := load_put (s := s.take errors i request env) hc (.received s.task.requests.length)
    rw [Stage.weight_queued,Stage.weight_received] at hput
    omega
  · have hturn : ((s.take errors i request env).turn errors
        (.abandon s.task.requests.length)).load = (s.take errors i request env).load := rfl
    omega
  · omega

/-- While something is on its way, a step of the tasks brings it further. -/
theorem exists_lighter (h : s.Sane) (hnot : ¬ s.Empty) :
    ∃ s', Step errors holds .runtime s s' ∧ s'.load < s.load := by
  have hweight {i : ℕ} {request : Request E} {old : Stage E}
      (hc : s.calls[i]? = some ⟨request,old⟩) (hold : 0 < old.weight) :
      (s.put i request (.returned none none)).load < s.load := by
    have hput := load_put hc (.returned none none)
    rw [Stage.weight_returned] at hput
    omega
  have hempty (hoffered : ¬ ∃ c ∈ s.calls, c.stage.isOffered = true)
      (hqueued : ¬ ∃ c ∈ s.calls, c.stage.isQueued = true)
      (hchannel : s.task.stopped = false → s.queue.items = []) : s.Empty := by
    refine ⟨fun c hc => ?_,fun c hc => ?_,hchannel⟩
    · simpa using fun hthis => hoffered ⟨c,hc,hthis⟩
    · simpa using fun hthis => hqueued ⟨c,hc,hthis⟩
  by_cases hstopped : s.task.stopped = true
  · by_cases hoffered : ∃ c ∈ s.calls, c.stage.isOffered = true
    · obtain ⟨i,request,hc⟩ := exists_of_isOffered hoffered
      exact ⟨_,.refuse hc hstopped,hweight hc (by simp)⟩
    · by_cases hqueued : ∃ c ∈ s.calls, c.stage.isQueued = true
      · obtain ⟨i,request,hc⟩ := exists_of_isQueued hqueued
        exact ⟨_,.lose hc hstopped,hweight hc (by simp)⟩
      · exact absurd (hempty hoffered hqueued (by simp [hstopped])) hnot
  · have hrun : s.task.stopped = false := by simpa using hstopped
    cases hitems : s.queue.items with
    | cons i rest =>
      have hi := h.inv.offered i (by simp [hitems])
      have hc := List.getElem?_eq_getElem hi
      exact ⟨_,.receive (fun _ => {}) hitems hc hrun,load_receive _ hitems hc⟩
    | nil =>
      by_cases hoffered : ∃ c ∈ s.calls, c.stage.isOffered = true
      · obtain ⟨i,request,hc⟩ := exists_of_isOffered hoffered
        have hroom : s.queue.Room := by
          rw [Channel.Room,hitems]
          decide
        refine ⟨_,.accept hc hrun hroom,?_⟩
        have hput := load_put hc (if request.expects then .queued else .posted)
        have hlight : (if request.expects then .queued else .posted : Stage E).weight ≤ 1 := by
          split <;> simp
        have hpush : { s.put i request (if request.expects then .queued else .posted) with
            queue := s.queue.push i hroom }.load =
              (s.put i request (if request.expects then .queued else .posted)).load + 2 := by
          simp only [load,Channel.push_items,List.length_append,List.length_singleton]
          exact (Nat.add_assoc _ _ _).symm
        rw [Stage.weight_offered] at hput
        omega
      · have hqueued : ¬ ∃ c ∈ s.calls, c.stage.isQueued = true := by
          intro hthis
          obtain ⟨i,request,hc⟩ := exists_of_isQueued hthis
          have hmem := (h.inv.stands i _ hc).2
          rw [hitems] at hmem
          cases hmem
        exact absurd (hempty hoffered hqueued fun _ => hitems) hnot

/-- The tasks bring everything on its way to where it goes. -/
theorem exists_empty (h : s.Sane) : ∃ s', Onward errors holds s s' ∧ s'.Empty := by
  induction hload : s.load using Nat.strong_induction_on generalizing s with
  | _ n ih =>
    by_cases hempty : s.Empty
    · exact ⟨s,.refl,hempty⟩
    · obtain ⟨m,hstep,hlighter⟩ := exists_lighter h hempty
      obtain ⟨s',hrun,hempty'⟩ := ih m.load (hload ▸ hlighter) (h.step hstep) rfl
      exact ⟨s',.head hstep hrun,hempty'⟩

end Draining

section Answering

/-- A turn that starts no interview changes the loop only. -/
theorem turn_quiet {input : Input E} (hrun : s.task.stopped = false)
    (hnone : s.task.spawns input = none) :
    s.turn errors input = { s with task := s.task.step input } := by
  have hinterviews := Task.interviews_step hrun input
  rw [hnone,Option.toList_none,List.append_nil] at hinterviews
  rw [turn,hinterviews,List.drop_length]
  simp

/-- Nobody waits in the loop for a device. -/
def Clear (s : Session E) : Prop := ∀ k, s.task.ledger.waiting k = none

/-- Everyone who still waits in the loop can be told that the time is up. -/
theorem exists_clear (h : s.Sane) : ∃ task : Task E,
    Onward errors holds s { s with task := task } ∧ task.stopped = s.task.stopped ∧
      { s with task := task }.Clear := by
  by_cases hstopped : s.task.stopped = true
  · exact ⟨s.task,.refl,rfl,h.inv.answerable.idle hstopped⟩
  · have hrun : s.task.stopped = false := by simpa using hstopped
    obtain ⟨now,hnow⟩ := Task.clear_tick hrun
    refine ⟨s.task.step (.tick fun _ => { now := now }),?_,?_,hnow _ rfl⟩
    · rw [← turn_quiet hrun rfl]
      exact .single (.tick _ hrun)
    · rw [Task.stopped_step]
      exact Bool.or_false _

/-- Every interview whose outcome somebody waits for under this place is over. -/
def Concluded (s : Session E) (place : ℕ) : Prop :=
  ∀ (k : ℕ) (ieee : Ieee), s.task.interviews[k]? = some (ieee,some place) →
    ∃ result, s.interviews[k]? = some ⟨ieee,.ready (.done result)⟩

/-- A method the loop has received can then return. -/
theorem exists_return {i place : ℕ} {request : Request E}
    (hc : s.calls[i]? = some ⟨request,.received place⟩) (hclear : s.Clear)
    (hover : s.Concluded place) : ∃ place' reply,
      Step errors holds .runtime s (s.put i request (.returned place' reply)) := by
  cases hreplies : s.task.repliesTo place with
  | cons a rest => exact ⟨_,_,.answer hc (by rw [hreplies]; rfl)⟩
  | nil =>
    by_cases hheld : ∃ ieee, (ieee,some place) ∈ s.task.interviews
    · obtain ⟨ieee,hieee⟩ := hheld
      obtain ⟨k,hk⟩ := List.mem_iff_getElem?.mp hieee
      obtain ⟨result,hresult⟩ := hover k ieee hk
      exact ⟨_,_,.report hc hk hresult⟩
    · refine ⟨_,_,.orphan hc hreplies ?_⟩
      rintro (⟨k,w,hw,-⟩ | hheld')
      · rw [hclear k] at hw
        cases hw
      · exact hheld hheld'

end Answering

section Interviewing

variable {c : Ask} {ieee : Ieee} {i : ℕ}

/-- A request of an interview starts no interview. -/
theorem spawns_request (t : Task E) (c : Ask) (ieee : Ieee) (env : ℕ → Env) :
    t.spawns (.request (c.request ieee) env) = none := by
  cases c <;> rfl

/-- What an interview waits for is an answer of the kind it asked for. -/
theorem heard_returned (h : s.Inv) {place : Option ℕ} {reply : Option (Reply E)}
    (hc : s.calls[i]? = some ⟨c.request ieee,.returned place reply⟩) :
    ∃ response, c.heard (.returned place reply) = some response := by
  cases reply with
  | none => exact ⟨_,rfl⟩
  | some reply =>
    have hexpects : (c.request ieee : Request E).expects = true := by
      have hstands := h.stands i _ hc
      cases place with
      | none => cases hstands.1
      | some place => exact hstands.1
    obtain ⟨htold,-⟩ := h.told hc
    cases htold with
    | @answered _ a hreceived hanswer hfits =>
      obtain ⟨id,reply,cause⟩ := a
      cases c with
      | update u => cases hexpects
      | zdo cluster build =>
        cases reply with
        | zdo result => exact ⟨result,rfl⟩
        | _ => exact hfits.elim
      | zclRead endpoint cluster attributes =>
        cases reply with
        | zclRead result => exact ⟨result,rfl⟩
        | _ => exact hfits.elim
    | interviewed _ hrequest _ _ => cases c <;> cases hrequest

theorem heard_posted (h : s.Inv) (hc : s.calls[i]? = some ⟨c.request ieee,.posted⟩) :
    ∃ response, c.heard (.posted : Stage E) = some response := by
  have hexpects := (h.stands i _ hc).1
  cases c with
  | update u => exact ⟨_,rfl⟩
  | zdo cluster build => cases hexpects
  | zclRead endpoint cluster attributes => cases hexpects

/-- No interview answers what an interview asks. -/
theorem not_spawned_of_ask (h : s.Inv) {place k : ℕ} {device : Ieee}
    (hc : s.calls[i]? = some ⟨c.request ieee,.received place⟩) :
    s.task.interviews[k]? ≠ some (device,some place) := by
  intro hk
  obtain ⟨d,hd,hrequest⟩ := h.requested place i (h.stands i _ hc).2
  rw [hc] at hd
  obtain rfl := Option.some.inj hd
  rw [h.answerable.spawned device place (List.mem_of_getElem? hk)] at hrequest
  cases c <;> cases hrequest

theorem concluded_of_ask (h : s.Inv) {place : ℕ}
    (hc : s.calls[i]? = some ⟨c.request ieee,.received place⟩) : s.Concluded place :=
  fun _ _ hk => absurd hk (not_spawned_of_ask h hc)

theorem Empty.concat (h : s.Empty) {request : Request E} {stage : Stage E}
    (hoffered : stage.isOffered = false) (hqueued : stage.isQueued = false)
    (hcalls : s'.calls = s.calls ++ [⟨request,stage⟩])
    (hchannel : s'.task.stopped = false → s'.queue.items = []) : s'.Empty := by
  refine ⟨fun d hd => ?_,fun d hd => ?_,hchannel⟩
  · rw [hcalls,List.mem_append,List.mem_singleton] at hd
    rcases hd with hold | rfl
    · exact h.offered d hold
    · exact hoffered
  · rw [hcalls,List.mem_append,List.mem_singleton] at hd
    rcases hd with hold | rfl
    · exact h.queued d hold
    · exact hqueued

theorem Empty.put (h : s.Empty) (i : ℕ) (request : Request E) {stage : Stage E}
    (hoffered : stage.isOffered = false) (hqueued : stage.isQueued = false) :
    (s.put i request stage).Empty := by
  refine ⟨fun d hd => ?_,fun d hd => ?_,h.channel⟩
  · rcases List.mem_or_eq_of_mem_set hd with hold | rfl
    · exact h.offered d hold
    · exact hoffered
  · rcases List.mem_or_eq_of_mem_set hd with hold | rfl
    · exact h.queued d hold
    · exact hqueued

variable {k : ℕ} {next : c.Response → Interview.Part InterviewOutcome}

/-- What an interview asks next reaches a loop that runs, whatever the loop makes of it. -/
theorem exists_received (hrun : s.task.stopped = false) (hnone : s.queue.items = [])
    (hk : s.interviews[k]? = some ⟨ieee,.ready (.ask c next)⟩) (env : ℕ → Env) :
    ∃ s', Onward errors holds s s' ∧ s'.task = s.task.step (.request (c.request ieee) env) ∧
      s'.queue.items = [] ∧
      s'.calls = s.calls ++ [⟨c.request ieee,if (c.request ieee : Request E).expects then
        .received s.task.requests.length else .posted⟩] ∧
      s'.interviews = s.interviews.set k ⟨ieee,.waiting c s.calls.length next⟩ := by
  let begun : Session E := { s.offer (c.request ieee) with
    makers := s.makers ++ [some k]
    interviews := s.interviews.set k ⟨ieee,.waiting c s.calls.length next⟩ }
  have hbegin : Step errors holds .runtime s begun := .begin hk
  have hlast : begun.calls[s.calls.length]? = some ⟨c.request ieee,.offered⟩ :=
    List.getElem?_concat_length
  have hroom : begun.queue.Room := by
    show s.queue.items.length < 64
    rw [hnone]
    decide
  let sent : Session E := { begun.put s.calls.length (c.request ieee)
    (if (c.request ieee : Request E).expects then .queued else .posted) with
    queue := begun.queue.push s.calls.length hroom }
  have haccept : Step errors holds .runtime begun sent := .accept hlast hrun hroom
  have hitems : sent.queue.items = [s.calls.length] := by
    show s.queue.items ++ [s.calls.length] = _
    rw [hnone,List.nil_append]
  have hsent : sent.calls = s.calls ++ [⟨c.request ieee,
      if (c.request ieee : Request E).expects then .queued else .posted⟩] := by
    simp [sent,begun,put,offer]
  have hthere : sent.calls[s.calls.length]? = some ⟨c.request ieee,
      if (c.request ieee : Request E).expects then .queued else .posted⟩ := by
    rw [hsent]
    exact List.getElem?_concat_length
  have hreceive : Step errors holds .runtime sent _ := .receive env hitems hthere hrun
  have hrest : sent.queue.items.tail = [] := by
    rw [hitems]
    rfl
  have hquiet : (sent.turn errors (.request (c.request ieee) env)).interviews =
      sent.interviews := by
    rw [turn_quiet (s := sent) hrun (spawns_request _ _ _ _)]
  refine ⟨_,.head hbegin (.head haccept (.single hreceive)),?_⟩
  cases hexpects : (c.request ieee : Request E).expects with
  | true =>
    rw [if_pos rfl,if_pos rfl]
    rw [hexpects,if_pos rfl] at hsent
    refine ⟨rfl,hrest,?_,hquiet⟩
    show sent.calls.set _ _ = _
    rw [hsent]
    simp
    rfl
  | false =>
    rw [if_neg (by simp),if_neg (by simp)]
    rw [hexpects,if_neg (by simp)] at hsent
    exact ⟨rfl,hrest,hsent,hquiet⟩

/-- What an interview asks next reaches the loop, or finds that it has ended. -/
theorem exists_asked (hempty : s.Empty)
    (hk : s.interviews[k]? = some ⟨ieee,.ready (.ask c next)⟩) :
    ∃ s', Onward errors holds s s' ∧ s'.Empty ∧
      s'.interviews = s.interviews.set k ⟨ieee,.waiting c s.calls.length next⟩ := by
  by_cases hstopped : s.task.stopped = true
  · let begun : Session E := { s.offer (c.request ieee) with
      makers := s.makers ++ [some k]
      interviews := s.interviews.set k ⟨ieee,.waiting c s.calls.length next⟩ }
    have hbegin : Step errors holds .runtime s begun := .begin hk
    have hlast : begun.calls[s.calls.length]? = some ⟨c.request ieee,.offered⟩ :=
      List.getElem?_concat_length
    have hput : (begun.put s.calls.length (c.request ieee) (.returned none none)).calls =
        s.calls ++ [⟨c.request ieee,.returned none none⟩] := by
      simp [begun,put,offer]
    refine ⟨_,.head hbegin (.single (.refuse hlast hstopped)),?_,rfl⟩
    exact hempty.concat rfl rfl hput hempty.channel
  · have hrun : s.task.stopped = false := by simpa using hstopped
    obtain ⟨s',hasked,-,hnone,hcalls,hinterviews⟩ : ∃ s', Onward errors holds s s' ∧ _ :=
      exists_received hrun (hempty.channel hrun) hk fun _ => {}
    refine ⟨s',hasked,hempty.concat ?_ ?_ hcalls fun _ => hnone,hinterviews⟩
    · split <;> rfl
    · split <;> rfl

/-- An interview that waits hears something. -/
theorem exists_heard (h : s.Sane) (hempty : s.Empty)
    (hk : s.interviews[k]? = some ⟨ieee,.waiting c i next⟩) :
    ∃ s' call response, Onward errors holds s s' ∧ s'.Empty ∧ s'.interviews = s.interviews ∧
      s'.calls[i]? = some call ∧ c.heard call.stage = some response := by
  obtain ⟨stage,hc,hstage⟩ := h.tended _ (List.mem_of_getElem? hk) c i next rfl
  have hmem := List.mem_of_getElem? hc
  cases stage with
  | offered => cases hempty.offered _ hmem
  | queued => cases hempty.queued _ hmem
  | gone => exact absurd rfl hstage
  | posted =>
    obtain ⟨response,hresponse⟩ := heard_posted h.inv hc
    exact ⟨s,_,response,.refl,hempty,rfl,hc,hresponse⟩
  | returned place reply =>
    obtain ⟨response,hresponse⟩ := heard_returned h.inv hc
    exact ⟨s,_,response,.refl,hempty,rfl,hc,hresponse⟩
  | received place =>
    obtain ⟨task,hrun,hstopped,hclear⟩ : ∃ task, Onward errors holds s { s with task := task } ∧
      task.stopped = s.task.stopped ∧ { s with task := task }.Clear := exists_clear h
    have hcalled : { s with task := task }.calls[i]? =
        some ⟨c.request ieee,.received place⟩ := hc
    have hsane := h.onward hrun
    obtain ⟨place',reply,hreturn⟩ := exists_return hcalled hclear
      (concluded_of_ask hsane.inv hcalled)
    have hreturned : ({ s with task := task }.put i (c.request ieee)
        (.returned place' reply)).calls[i]? = some ⟨c.request ieee,.returned place' reply⟩ := by
      rw [put,getElem?_set_of hcalled,if_pos rfl]
    obtain ⟨response,hresponse⟩ := heard_returned (hsane.step hreturn).inv hreturned
    refine ⟨_,_,response,hrun.tail hreturn,?_,rfl,hreturned,hresponse⟩
    have hempty' : { s with task := task }.Empty :=
      ⟨hempty.offered,hempty.queued,fun hthis => hempty.channel (hstopped ▸ hthis)⟩
    refine hempty'.put i (c.request ieee) ?_ ?_
    · rfl
    · rfl

/-- It goes on with what it hears. -/
theorem exists_resumed (h : s.Sane) (hempty : s.Empty)
    (hk : s.interviews[k]? = some ⟨ieee,.waiting c i next⟩) :
    ∃ s' response, Onward errors holds s s' ∧ s'.Empty ∧
      s'.interviews = s.interviews.set k ⟨ieee,.ready (next response)⟩ := by
  obtain ⟨m,call,response,hrun,hempty',hsame,hcall,hheard⟩ := exists_heard h hempty hk
  have hk' : m.interviews[k]? = some ⟨ieee,.waiting c i next⟩ := hsame ▸ hk
  refine ⟨_,response,hrun.tail (.resume hk' hcall hheard),
    ⟨hempty'.offered,hempty'.queued,hempty'.channel⟩,?_⟩
  show m.interviews.set k _ = _
  rw [hsame]

theorem exists_done {rest : Interview.Part InterviewOutcome} (h : s.Sane) (hempty : s.Empty)
    (hk : s.interviews[k]? = some ⟨ieee,.ready rest⟩) :
    ∃ s' result, Onward errors holds s s' ∧ s'.Empty ∧
      s'.interviews = s.interviews.set k ⟨ieee,.ready (.done result)⟩ := by
  induction rest generalizing s with
  | done result => exact ⟨s,result,.refl,hempty,(set_of_getElem? hk).symm⟩
  | ask c next ih =>
    obtain ⟨m,hasked,hempty',hm⟩ : ∃ m, Onward errors holds s m ∧ m.Empty ∧
      m.interviews = s.interviews.set k ⟨ieee,.waiting c s.calls.length next⟩ :=
      exists_asked hempty hk
    have hwaiting : m.interviews[k]? = some ⟨ieee,.waiting c s.calls.length next⟩ := by
      rw [hm,getElem?_set_of hk,if_pos rfl]
    obtain ⟨m',response,hresumed,hempty'',hm'⟩ : ∃ m' response, Onward errors holds m m' ∧
      m'.Empty ∧ m'.interviews = m.interviews.set k ⟨ieee,.ready (next response)⟩ :=
      exists_resumed (h.onward hasked) hempty' hwaiting
    have hready : m'.interviews[k]? = some ⟨ieee,.ready (next response)⟩ := by
      rw [hm',getElem?_set_of hwaiting,if_pos rfl]
    obtain ⟨s',result,hdone,hover,hs'⟩ :=
      ih response ((h.onward hasked).onward hresumed) hempty'' hready
    refine ⟨s',result,(hasked.trans hresumed).trans hdone,hover,?_⟩
    rw [hs',hm',hm,List.set_set,List.set_set]

/-- Every interview comes to its outcome. -/
theorem exists_concluded (h : s.Sane) (hempty : s.Empty) {a : Spawned}
    (hk : s.interviews[k]? = some a) : ∃ s' result, Onward errors holds s s' ∧ s'.Empty ∧
      s'.interviews = s.interviews.set k ⟨a.ieee,.ready (.done result)⟩ := by
  obtain ⟨ieee,progress⟩ := a
  cases progress with
  | ready rest => exact exists_done h hempty hk
  | waiting c i next =>
    obtain ⟨m,response,hresumed,hempty',hm⟩ : ∃ m response, Onward errors holds s m ∧
      m.Empty ∧ m.interviews = s.interviews.set k ⟨ieee,.ready (next response)⟩ :=
      exists_resumed h hempty hk
    have hready : m.interviews[k]? = some ⟨ieee,.ready (next response)⟩ := by
      rw [hm,getElem?_set_of hk,if_pos rfl]
    obtain ⟨s',result,hdone,hover,hs'⟩ := exists_done (h.onward hresumed) hempty' hready
    refine ⟨s',result,hresumed.trans hdone,hover,?_⟩
    rw [hs',hm,List.set_set]

theorem exists_all_concluded (h : s.Sane) (hempty : s.Empty) (n : ℕ) :
    ∃ s', Onward errors holds s s' ∧ s'.Empty ∧ s'.interviews.length = s.interviews.length ∧
      ∀ j a, j < n → s'.interviews[j]? = some a → a.progress.isOver = true := by
  induction n with
  | zero => exact ⟨s,.refl,hempty,rfl,by simp⟩
  | succ n ih =>
    obtain ⟨m,hrun,hempty',hlength,hover⟩ := ih
    cases hn : m.interviews[n]? with
    | none =>
      refine ⟨m,hrun,hempty',hlength,fun j a hj ha => ?_⟩
      rcases Nat.lt_succ_iff_lt_or_eq.mp hj with hlt | rfl
      · exact hover j a hlt ha
      · rw [hn] at ha
        cases ha
    | some b =>
      obtain ⟨s',result,hdone,hempty'',hs'⟩ := exists_concluded (h.onward hrun) hempty' hn
      refine ⟨s',hrun.trans hdone,hempty'',?_,fun j a hj ha => ?_⟩
      · rw [hs',List.length_set,hlength]
      · rw [hs',getElem?_set_of hn] at ha
        split at ha
        · obtain rfl := Option.some.inj ha
          rfl
        · rename_i hne
          exact hover j a (by omega) ha

end Interviewing

section Settling

/-- No method waits, and no interview goes on. -/
structure Settled (s : Session E) : Prop where
  calls : ∀ c ∈ s.calls, c.stage.isSettled = true
  interviews : ∀ a ∈ s.interviews, a.progress.isOver = true

theorem concluded_of_over (h : s.Inv) (hover : ∀ a ∈ s.interviews, a.progress.isOver = true)
    (place : ℕ) : s.Concluded place := by
  intro k ieee hk
  have hpaired : (s.interviews.map Spawned.ieee)[k]? = some ieee := by
    rw [h.paired,List.getElem?_map,hk]
    rfl
  rw [List.getElem?_map] at hpaired
  obtain ⟨⟨ieee',progress⟩,ha,rfl⟩ := Option.map_eq_some_iff.mp hpaired
  have hthis := hover _ (List.mem_of_getElem? ha)
  unfold Progress.isOver at hthis
  split at hthis
  · rename_i result hprogress
    exact ⟨result,by rw [ha]; exact congrArg (fun p => some (Spawned.mk ieee' p)) hprogress⟩
  · cases hthis

theorem exists_settled_of_clear (h : s.Sane) (hempty : s.Empty) (hclear : s.Clear)
    (hover : ∀ a ∈ s.interviews, a.progress.isOver = true) :
    ∃ s', Onward errors holds s s' ∧ s'.Settled := by
  induction hcount : s.count Stage.isReceived generalizing s with
  | zero =>
    refine ⟨s,.refl,fun c hc => ?_,hover⟩
    have hoffered := hempty.offered c hc
    have hqueued := hempty.queued c hc
    have hreceived : c.stage.isReceived = false := by
      simpa using List.countP_eq_zero.mp hcount c hc
    generalize c.stage = stage at hoffered hqueued hreceived
    cases stage <;> first | rfl | simp_all [Stage.isOffered,Stage.isQueued,Stage.isReceived]
  | succ n ih =>
    have hpos : 0 < s.count Stage.isReceived := hcount ▸ Nat.succ_pos n
    obtain ⟨⟨request,stage⟩,hc,hstage⟩ := List.countP_pos_iff.mp hpos
    obtain ⟨i,hi⟩ := List.mem_iff_getElem?.mp hc
    cases stage with
    | received place =>
      obtain ⟨place',reply,hstep⟩ : ∃ place' reply, Step errors holds .runtime s
        (s.put i request (.returned place' reply)) :=
        exists_return hi hclear (concluded_of_over h.inv hover place)
      have hput := count_put Stage.isReceived hi (.returned place' reply)
      have hfewer : (s.put i request (.returned place' reply)).count Stage.isReceived = n := by
        have hthis : (Stage.received place : Stage E).isReceived = true := rfl
        have hthen : (Stage.returned place' reply).isReceived = false := rfl
        rw [hthis,hthen,if_pos rfl,if_neg (by simp)] at hput
        omega
      obtain ⟨s',hrun,hsettled⟩ := ih (h.step hstep) (hempty.put i request rfl rfl) hclear hover
        hfewer
      exact ⟨s',.head hstep hrun,hsettled⟩
    | _ => cases hstage

theorem calls_onward (hrun : Onward errors holds s s') (i : ℕ) (c : Call E)
    (hc : s.calls[i]? = some c) : ∃ stage, s'.calls[i]? = some ⟨c.request,stage⟩ ∧
      (stage = .gone → c.stage = .gone) := by
  induction hrun with
  | refl => exact ⟨c.stage,hc,id⟩
  | tail _ hstep ih =>
    obtain ⟨stage,hm,hgone⟩ := ih
    obtain ⟨stage',hc',-,hgone'⟩ := hstep.extends.calls i _ hm
    exact ⟨stage',hc',fun hthis => hgone (hgone' rfl hthis)⟩

/-- From every session the tasks of the runtime can by themselves let every method return and
every interview end: the loop waits for no interview, and no interview for anyone but the loop. -/
theorem settles (h : Reachable errors holds s) : ∃ s', Onward errors holds s s' ∧ s'.Settled ∧
    ∀ (i : ℕ) (c : Call E), s.calls[i]? = some c → ∃ stage,
      s'.calls[i]? = some ⟨c.request,stage⟩ ∧ (stage = .gone → c.stage = .gone) := by
  obtain ⟨received,hreceived,hempty⟩ : ∃ m, Onward errors holds s m ∧ m.Empty :=
    exists_empty h.sane
  have hsane := h.sane.onward hreceived
  obtain ⟨finished,hconcluded,hempty',hlength,hover⟩ : ∃ m, Onward errors holds received m ∧
      m.Empty ∧ m.interviews.length = received.interviews.length ∧
      ∀ j a, j < received.interviews.length → m.interviews[j]? = some a →
        a.progress.isOver = true := exists_all_concluded hsane hempty _
  have hall : ∀ a ∈ finished.interviews, a.progress.isOver = true := by
    intro a ha
    obtain ⟨j,hj⟩ := List.mem_iff_getElem?.mp ha
    exact hover j a (hlength ▸ (List.getElem?_eq_some_iff.mp hj).1) hj
  obtain ⟨task,hcleared,hstopped,hclear⟩ : ∃ task, Onward errors holds finished
      { finished with task := task } ∧ task.stopped = finished.task.stopped ∧
      { finished with task := task }.Clear := exists_clear (hsane.onward hconcluded)
  have hempty'' : { finished with task := task }.Empty :=
    ⟨hempty'.offered,hempty'.queued,fun hthis => hempty'.channel (hstopped ▸ hthis)⟩
  obtain ⟨s',hsettle,hsettled⟩ := exists_settled_of_clear
    ((hsane.onward hconcluded).onward hcleared) hempty'' hclear hall
  have hrun := ((hreceived.trans hconcluded).trans hcleared).trans hsettle
  exact ⟨s',hrun,hsettled,calls_onward hrun⟩

/-- A device has joined. -/
def joined : Session Engine.bare := bare.turn untold (Task.joins ⟨1⟩ ⟨2⟩)

/-- Its interview is asked for. -/
def interviewing : Session Engine.bare :=
  { (joined.offer (.interview ⟨1⟩)).put 0 (.interview ⟨1⟩) .queued with
    queue := joined.queue.push 0 room_bare }

/-- The loop has spawned it. -/
def spawned : Session Engine.bare :=
  interviewing.receive untold 0 ⟨.interview ⟨1⟩,.queued⟩ fun _ => {}

theorem runs_joined : joined.task.stopped = false := by
  have hstopped := Task.stopped_step bare.task (Task.joins ⟨1⟩ ⟨2⟩)
  rwa [runs_bare] at hstopped

theorem reachable_spawned : Reachable untold holds spawned := by
  have hjoin : Step untold holds .radio bare joined := .event _ _ _ runs_bare
  have hcall : Step untold holds .user joined (joined.offer (.interview ⟨1⟩)) :=
    .call (Nat.zero_lt_succ 0) rfl
  have hoffered : (joined.offer (.interview ⟨1⟩)).calls[0]? = some ⟨.interview ⟨1⟩,.offered⟩ := rfl
  have haccept : Step untold holds .runtime (joined.offer (.interview ⟨1⟩)) interviewing :=
    .accept hoffered runs_joined room_bare
  have hreceive : Step untold holds .runtime interviewing spawned := .receive _ rfl rfl runs_joined
  exact (((Reachable.start _ _).step hjoin).step hcall).step haccept |>.step hreceive

theorem spawned_settles : ∃ s', Onward untold True spawned s' ∧ s'.Settled ∧
    ∀ (i : ℕ) (c : Call Engine.bare), spawned.calls[i]? = some c → ∃ stage,
      s'.calls[i]? = some ⟨c.request,stage⟩ ∧ (stage = .gone → c.stage = .gone) :=
  settles reachable_spawned

end Settling

end Session
end Rszigbee
