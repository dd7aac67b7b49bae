import Rszigbee.Channels
import Rszigbee.Replies

/-! Handles on a running runtime. Every method puts a request into the channel to the loop and
waits on a reply channel of its own. The loop holds a handle for the interviews it spawns, which
run beside it and go through the same channel. -/
namespace Rszigbee

open Interview (Ask ErrorText)

variable {E : Engine}

/-- How far a method has come. Its place is that of its request among all the loop has received;
without a reply it has returned `Stopped`. -/
inductive Stage (E : Engine)
  | offered
  | queued
  | received (place : ℕ)
  /-- In the channel, and no answer is waited for. -/
  | posted
  | returned (place : Option ℕ) (reply : Option (Reply E))
  /-- Its caller went away. -/
  | gone

structure Call (E : Engine) where
  request : Request E
  stage : Stage E

/-- What an interview makes of the call it waits on. -/
def Interview.Ask.heard (c : Ask) : Stage E → Option c.Response
  | .posted => c.handedOver.map .ok
  | .returned _ (some reply) => c.received reply
  | .returned _ none => some (.error .stopped)
  | _ => none

/-- A loop, the channel to it, the methods called so far and the interviews; an interview's
progress tells the call it waits on. -/
structure Session (E : Engine) where
  task : Task E
  queue : Channel ℕ 64
  calls : List (Call E)
  /-- Who made each call: an interview, by its number, or someone with a handle. -/
  makers : List (Option ℕ)
  /-- The calls whose requests the loop has received, in order. -/
  served : List ℕ
  interviews : List Spawned
  /-- The handles held outside. -/
  handles : ℕ

namespace Session

variable (s : Session E)

def start (config : TaskConfig E) (env : Env) : Session E where
  task := .start config env
  queue := .empty
  calls := []
  makers := []
  served := []
  interviews := []
  handles := 1

def offer (request : Request E) : Session E :=
  { s with
    calls := s.calls ++ [⟨request,.offered⟩]
    makers := s.makers ++ [none] }

def put (i : ℕ) (request : Request E) (stage : Stage E) : Session E :=
  { s with calls := s.calls.set i ⟨request,stage⟩ }

/-- The senders of the channel: the loop has one itself while it lives. -/
def senders : ℕ :=
  s.handles + (if s.task.stopped then 0 else 1) +
    (s.interviews.filter fun a => !a.progress.isOver).length

/-- The loop or an interview has the other end of a reply channel. -/
def Holds (place : ℕ) : Prop :=
  (∃ k w, s.task.ledger.waiting k = some w ∧ w.reply = place) ∨
    ∃ ieee, (ieee,some place) ∈ s.task.interviews

/-- An interview waits on the call. -/
def AwaitedBy (i : ℕ) : Prop := ∃ a ∈ s.interviews, ∃ c next, a.progress = .waiting c i next

variable (errors : ErrorText)

/-- A turn of the loop; what it spawned begins. -/
def turn (input : Input E) : Session E :=
  let task := s.task.step input
  { s with
    task := task
    interviews := s.interviews ++ (task.interviews.drop s.task.interviews.length).map fun i =>
      ⟨i.1,.ready (Interview.run errors)⟩ }

/-- The loop takes out the oldest request. -/
def take (i : ℕ) (request : Request E) (env : ℕ → Env) : Session E :=
  { s.turn errors (.request request env) with
    queue := s.queue.tail
    served := s.served ++ [i] }

/-- The loop receives a request; that nobody waits for its answer any more can be told from its
reply channel. -/
def receive (i : ℕ) (c : Call E) (env : ℕ → Env) : Session E :=
  let place := s.task.requests.length
  let s := s.take errors i c.request env
  match c.stage with
  | .queued => s.put i c.request (.received place)
  | .gone => s.turn errors (.abandon place)
  | _ => s

/-- Who takes a step: someone with a handle, the tasks of the runtime, or the radio. -/
inductive Party
  | user
  | runtime
  | radio

/-- One step of one party. `holds` tells that the adapter keeps a sender of its own events. -/
inductive Step (holds : Prop) : Party → Session E → Session E → Prop
  | clone {s : Session E} (h : 0 < s.handles) :
    Step holds .user s { s with handles := s.handles + 1 }
  | drop {s : Session E} (h : 0 < s.handles) :
    Step holds .user s { s with handles := s.handles - 1 }
  | call {s : Session E} {request : Request E} (h : 0 < s.handles)
      (hpublic : request.expects = true) : Step holds .user s (s.offer request)
  | accept {s : Session E} {i : ℕ} {request : Request E}
      (h : s.calls[i]? = some ⟨request,.offered⟩) (hrun : s.task.stopped = false)
      (hroom : s.queue.Room) :
    Step holds .runtime s { s.put i request (if request.expects then .queued else .posted) with
      queue := s.queue.push i hroom }
  | refuse {s : Session E} {i : ℕ} {request : Request E}
      (h : s.calls[i]? = some ⟨request,.offered⟩) (hstopped : s.task.stopped = true) :
    Step holds .runtime s (s.put i request (.returned none none))
  /-- The channel goes down with the loop, and what is in it. -/
  | lose {s : Session E} {i : ℕ} {request : Request E}
      (h : s.calls[i]? = some ⟨request,.queued⟩) (hstopped : s.task.stopped = true) :
    Step holds .runtime s (s.put i request (.returned none none))
  | receive {s : Session E} {i : ℕ} {rest : List ℕ} {c : Call E} (env : ℕ → Env)
      (h : s.queue.items = i::rest) (hc : s.calls[i]? = some c) (hrun : s.task.stopped = false) :
    Step holds .runtime s (s.receive errors i c env)
  | answer {s : Session E} {i place : ℕ} {request : Request E} {a : Answer E}
      (h : s.calls[i]? = some ⟨request,.received place⟩)
      (ha : (s.task.repliesTo place).head? = some a) :
    Step holds .runtime s (s.put i request (.returned (some place) (some a.reply)))
  | report {s : Session E} {i place k : ℕ} {request : Request E} {ieee : Ieee}
      {result : Except RuntimeError InterviewOutcome}
      (h : s.calls[i]? = some ⟨request,.received place⟩)
      (hk : s.task.interviews[k]? = some (ieee,some place))
      (hover : s.interviews[k]? = some ⟨ieee,.ready (.done result)⟩) :
    Step holds .runtime s (s.put i request (.returned (some place) (some (.interview result))))
  /-- The other end is gone, and nothing came. -/
  | orphan {s : Session E} {i place : ℕ} {request : Request E}
      (h : s.calls[i]? = some ⟨request,.received place⟩) (hnone : s.task.repliesTo place = [])
      (hdropped : ¬ s.Holds place) :
    Step holds .runtime s (s.put i request (.returned (some place) none))
  | cancel {s : Session E} {i : ℕ} {request : Request E}
      (h : s.calls[i]? = some ⟨request,.offered⟩ ∨ s.calls[i]? = some ⟨request,.queued⟩)
      (hpublic : ¬ s.AwaitedBy i) : Step holds .user s (s.put i request .gone)
  | abandon {s : Session E} {i place : ℕ} {request : Request E}
      (h : s.calls[i]? = some ⟨request,.received place⟩) (hpublic : ¬ s.AwaitedBy i) :
    Step holds .user s ((s.put i request .gone).turn errors (.abandon place))
  | event {s : Session E} (event : AdapterEvent) (origin : Option ℕ) (env : ℕ → Env)
      (hrun : s.task.stopped = false) :
    Step holds .radio s (s.turn errors (.event event origin env))
  | tick {s : Session E} (env : ℕ → Env) (hrun : s.task.stopped = false) :
    Step holds .runtime s (s.turn errors (.tick env))
  | unplug {s : Session E} (env : ℕ → Env) (hrun : s.task.stopped = false) (hdrops : ¬ holds) :
    Step holds .radio s (s.turn errors (.adapterClosed env))
  | close {s : Session E} (env : ℕ → Env) (hrun : s.task.stopped = false)
      (hempty : s.queue.items = []) (hnone : s.senders = 0) :
    Step holds .runtime s (s.turn errors (.handlesDropped env))
  | begin {s : Session E} {k : ℕ} {ieee : Ieee} {c : Ask}
      {next : c.Response → Interview.Part InterviewOutcome}
      (h : s.interviews[k]? = some ⟨ieee,.ready (.ask c next)⟩) :
    Step holds .runtime s { s.offer (c.request ieee) with
      makers := s.makers ++ [some k]
      interviews := s.interviews.set k ⟨ieee,.waiting c s.calls.length next⟩ }
  | resume {s : Session E} {k i : ℕ} {ieee : Ieee} {c : Ask}
      {next : c.Response → Interview.Part InterviewOutcome} {call : Call E} {response : c.Response}
      (h : s.interviews[k]? = some ⟨ieee,.waiting c i next⟩) (hi : s.calls[i]? = some call)
      (hr : c.heard call.stage = some response) :
    Step holds .runtime s { s with interviews := s.interviews.set k ⟨ieee,.ready (next response)⟩ }

/-- The sessions a runtime may come to. -/
inductive Reachable (holds : Prop) : Session E → Prop
  | start (config : TaskConfig E) (env : Env) : Reachable holds (.start config env)
  | step {party : Party} {s s' : Session E} (h : Reachable holds s)
      (hstep : Step errors holds party s s') : Reachable holds s'

section Standing

/-- What a method that was answered has been told: the one answer on its reply channel, or the
outcome of the interview it started. -/
def Answered (place : ℕ) (reply : Reply E) : Prop :=
  (∃ a, s.task.repliesTo place = [a] ∧ a.reply = reply) ∨
    ∃ (k : ℕ) (ieee : Ieee) (result : Except RuntimeError InterviewOutcome),
      s.task.interviews[k]? = some (ieee,some place) ∧
        s.interviews[k]? = some ⟨ieee,.ready (.done result)⟩ ∧ reply = .interview result

/-- Nothing came on a reply channel, and nothing will. -/
def Forsaken (place : ℕ) : Prop := s.task.repliesTo place = [] ∧ ¬ s.Holds place

/-- Where a method is and what it has been told fits what the loop has done. -/
def Stands (i : ℕ) (request : Request E) : Stage E → Prop
  | .offered => i ∉ s.served ++ s.queue.items
  | .queued => request.expects = true ∧ i ∈ s.queue.items
  | .received place => request.expects = true ∧ s.served[place]? = some i
  | .posted => request.expects = false ∧ i ∈ s.served ++ s.queue.items
  | .returned none reply => reply = none ∧ s.task.stopped = true ∧ i ∉ s.served
  | .returned (some place) none =>
    request.expects = true ∧ s.served[place]? = some i ∧ s.Forsaken place
  | .returned (some place) (some reply) =>
    request.expects = true ∧ s.served[place]? = some i ∧ s.Answered place reply
  | .gone => True

/-- What every step keeps. -/
structure Inv (s : Session E) : Prop where
  answerable : s.task.Answerable
  length : s.served.length = s.task.requests.length
  nodup : (s.served ++ s.queue.items).Nodup
  requested : ∀ (place i : ℕ), s.served[place]? = some i →
    ∃ c, s.calls[i]? = some c ∧ s.task.requests[place]? = some c.request
  offered : ∀ i ∈ s.queue.items, i < s.calls.length
  stands : ∀ (i : ℕ) (c : Call E), s.calls[i]? = some c → s.Stands i c.request c.stage
  paired : s.interviews.map Spawned.ieee = s.task.interviews.map Prod.fst

/-- What was told stays told. -/
structure Advances (s s' : Session E) : Prop where
  served : s.served <+: s'.served
  stopped : s.task.stopped = true → s'.task.stopped = true ∧ s'.served = s.served
  answered : ∀ place reply, s.Answered place reply → s'.Answered place reply
  forsaken : ∀ place < s.task.requests.length, s.Forsaken place → s'.Forsaken place

end Standing

section Turns

variable {s}

/-- A turn spawns the interview it starts. -/
theorem interviews_turn (input : Input E) : ∃ new : Option (Ieee × Option ℕ),
    (s.turn errors input).task.interviews = s.task.interviews ++ new.toList ∧
    (s.turn errors input).interviews =
      s.interviews ++ new.toList.map (fun i => ⟨i.1,.ready (Interview.run errors)⟩) ∧
    ∀ ieee place, new = some (ieee,some place) → place = s.task.requests.length := by
  by_cases hstopped : s.task.stopped = true
  · refine ⟨none,?_,?_,by simp⟩
    · rw [turn,Task.step_stopped hstopped]
      simp
    · rw [turn,Task.step_stopped hstopped]
      simp
  · have hinterviews := Task.interviews_step (t := s.task) (by simpa using hstopped) input
    refine ⟨s.task.spawns input,hinterviews,?_,fun ieee place hnew => ?_⟩
    · rw [turn,hinterviews,List.drop_left]
    · unfold Task.spawns at hnew
      split at hnew
      · split at hnew
        · cases hnew
          rfl
        · cases hnew
      · obtain ⟨a,-,ha⟩ := Option.bind_eq_some_iff.mp hnew
        split at ha
        · cases ha
        · cases ha
      · cases hnew

theorem advances_turn (h : s.task.Answerable) (input : Input E) :
    s.Advances (s.turn errors input) where
  served := List.prefix_rfl
  stopped hstopped := by
    have hstop := Task.stopped_step s.task input
    rw [hstopped,Bool.true_or] at hstop
    exact ⟨hstop,rfl⟩
  answered place reply hanswered := by
    rcases hanswered with ⟨a,ha,hreply⟩ | ⟨k,ieee,result,hk,hover,hreply⟩
    · have hsome : s.task.repliesTo place ≠ [] := by simp [ha]
      have hclosed := Task.closed_of_answered h.sound hsome
      exact .inl ⟨a,(Task.closed_step h.sound hclosed input).2.trans ha,hreply⟩
    · obtain ⟨new,htask,hthis,-⟩ := s.interviews_turn errors input
      refine .inr ⟨k,ieee,result,?_,?_,hreply⟩
      · rw [htask,List.getElem?_append_left (List.getElem?_eq_some_iff.mp hk).1]
        exact hk
      · rw [hthis,List.getElem?_append_left (List.getElem?_eq_some_iff.mp hover).1]
        exact hover
  forsaken place hplace hforsaken := by
    obtain ⟨hnone,hdropped⟩ := hforsaken
    have hclosed : s.task.ledger.Closed Waiter.reply place :=
      ⟨hplace,fun k w hw hwho => hdropped (.inl ⟨k,w,hw,hwho⟩)⟩
    obtain ⟨hclosed',hsame⟩ := Task.closed_step h.sound hclosed input
    refine ⟨hsame.trans hnone,?_⟩
    rintro (⟨k,w,hw,hwho⟩ | ⟨ieee,hieee⟩)
    · exact hclosed'.2 k w hw hwho
    · obtain ⟨new,htask,-,hnew⟩ := s.interviews_turn errors input
      rw [htask,List.mem_append,Option.mem_toList] at hieee
      rcases hieee with hold | hlate
      · exact hdropped (.inr ⟨ieee,hold⟩)
      · exact absurd (hnew ieee place hlate) (Nat.ne_of_lt hplace)

theorem paired_turn (h : s.interviews.map Spawned.ieee = s.task.interviews.map Prod.fst)
    (input : Input E) : (s.turn errors input).interviews.map Spawned.ieee =
      (s.turn errors input).task.interviews.map Prod.fst := by
  obtain ⟨new,htask,hthis,-⟩ := s.interviews_turn errors input
  rw [htask,hthis,List.map_append,List.map_append,h]
  cases new <;> rfl

end Turns

section Steps

variable {s} {s' : Session E} {i : ℕ} {request : Request E} {stage : Stage E}

theorem Stands.mono (h : s.Stands i request stage) (hadvances : s.Advances s')
    (hlength : s.served.length = s.task.requests.length)
    (haccepted : i ∈ s'.served ++ s'.queue.items ↔ i ∈ s.served ++ s.queue.items)
    (hqueued : stage = .queued → i ∈ s'.queue.items) : s'.Stands i request stage := by
  have hserved {place : ℕ} (hplace : s.served[place]? = some i) : s'.served[place]? = some i := by
    obtain ⟨d,hd⟩ := hadvances.served
    rw [← hd,List.getElem?_append_left (List.getElem?_eq_some_iff.mp hplace).1]
    exact hplace
  cases stage with
  | offered => exact fun hmem => h (haccepted.mp hmem)
  | queued => exact ⟨h.1,hqueued rfl⟩
  | received place => exact ⟨h.1,hserved h.2⟩
  | posted => exact ⟨h.1,haccepted.mpr h.2⟩
  | gone => trivial
  | returned place reply =>
    cases place with
    | none =>
      obtain ⟨hreply,hstopped,hnever⟩ := h
      obtain ⟨hstopped',hserved'⟩ := hadvances.stopped hstopped
      exact ⟨hreply,hstopped',hserved' ▸ hnever⟩
    | some place =>
      cases reply with
      | some reply =>
        obtain ⟨hexpects,hplace,hanswered⟩ := h
        exact ⟨hexpects,hserved hplace,hadvances.answered place reply hanswered⟩
      | none =>
        obtain ⟨hexpects,hplace,hforsaken⟩ := h
        have hlt : place < s.task.requests.length := by
          rw [← hlength]
          exact (List.getElem?_eq_some_iff.mp hplace).1
        exact ⟨hexpects,hserved hplace,hadvances.forsaken place hlt hforsaken⟩

/-- One call moves on, in or out of the channel, and nothing else does. -/
theorem Inv.move (h : s.Inv) {old : Stage E} (hc : s.calls[i]? = some ⟨request,old⟩)
    {queue : Channel ℕ 64}
    (hstands : { s.put i request stage with queue := queue }.Stands i request stage)
    (hnodup : (s.served ++ queue.items).Nodup)
    (hqueue : ∀ j, j ≠ i → (j ∈ queue.items ↔ j ∈ s.queue.items)) :
    { s.put i request stage with queue := queue }.Inv where
  answerable := h.answerable
  length := h.length
  nodup := hnodup
  requested place j hplace := by
    obtain ⟨c,hj,hrequest⟩ := h.requested place j hplace
    by_cases hij : i = j
    · subst hij
      obtain rfl := Option.some.inj (hc.symm.trans hj)
      refine ⟨⟨request,stage⟩,?_,hrequest⟩
      rw [Session.put,getElem?_set_of hc,if_pos rfl]
    · refine ⟨c,?_,hrequest⟩
      rw [Session.put,getElem?_set_of hc,if_neg hij,hj]
  offered j hj := by
    rw [Session.put,List.length_set]
    by_cases hij : j = i
    · rw [hij]
      exact (List.getElem?_eq_some_iff.mp hc).1
    · exact h.offered j ((hqueue j hij).mp hj)
  stands j c hj := by
    rw [Session.put,getElem?_set_of hc] at hj
    split at hj
    · rename_i hij
      subst hij
      obtain rfl := Option.some.inj hj
      exact hstands
    · rename_i hij
      have hstands' := h.stands j c hj
      have hadvances : s.Advances { s.put i request stage with queue := queue } :=
        ⟨List.prefix_rfl,fun hstopped => ⟨hstopped,rfl⟩,fun _ _ => id,fun _ _ => id⟩
      have hsame := hqueue j (Ne.symm hij)
      refine hstands'.mono hadvances h.length ?_ fun hqueued => ?_
      · rw [List.mem_append,List.mem_append,hsame]
        rfl
      · rw [hqueued] at hstands'
        exact hsame.mpr hstands'.2
  paired := h.paired

theorem Inv.put (h : s.Inv) {old : Stage E} (hc : s.calls[i]? = some ⟨request,old⟩)
    (hstands : s.Stands i request stage) : (s.put i request stage).Inv :=
  h.move hc hstands h.nodup fun _ _ => Iff.rfl

theorem Inv.offer (h : s.Inv) (request : Request E) : (s.offer request).Inv where
  answerable := h.answerable
  length := h.length
  nodup := h.nodup
  requested place j hplace := by
    obtain ⟨c,hj,hrequest⟩ := h.requested place j hplace
    refine ⟨c,?_,hrequest⟩
    simp only [Session.offer,List.getElem?_append_left (List.getElem?_eq_some_iff.mp hj).1,hj]
  offered j hj := by
    have hlt := h.offered j hj
    simp only [Session.offer,List.length_append,List.length_singleton]
    exact Nat.lt_succ_of_lt hlt
  stands j c hj := by
    simp only [Session.offer,getElem?_concat] at hj
    split at hj
    · rename_i hlast
      obtain rfl := Option.some.inj hj
      -- Nothing is known of a call that has just been made.
      have hnew : j ∉ s.served ++ s.queue.items := by
        intro hmem
        rcases List.mem_append.mp hmem with hserved | hqueued
        · obtain ⟨place,hplace⟩ := List.mem_iff_getElem?.mp hserved
          obtain ⟨c,hc,-⟩ := h.requested place j hplace
          exact absurd (List.getElem?_eq_some_iff.mp hc).1 (by omega)
        · exact absurd (h.offered j hqueued) (by omega)
      exact hnew
    · exact h.stands j c hj
  paired := h.paired

/-- Whatever wakes the loop but a request. -/
theorem Inv.turn (h : s.Inv) {input : Input E} (hinput : (Task.logged input).1 = []) :
    (s.turn errors input).Inv := by
  have hrequests : (s.turn errors input).task.requests = s.task.requests := by
    show (s.task.step input).requests = _
    by_cases hstopped : s.task.stopped = true
    · rw [Task.step_stopped hstopped]
    · have hlog : (s.task.step input).requests = s.task.requests ++ (Task.logged input).1 :=
        congrArg Prod.fst (Task.logs_step (by simpa using hstopped) input)
      rw [hlog,hinput,List.append_nil]
  have hadvances := advances_turn errors h.answerable input
  refine ⟨Task.answerable_step h.answerable input,?_,h.nodup,?_,h.offered,?_,
    paired_turn errors h.paired input⟩
  · rw [hrequests]
    exact h.length
  · rw [hrequests]
    exact h.requested
  · intro j c hj
    have hstands := h.stands j c hj
    refine hstands.mono hadvances h.length Iff.rfl fun hqueued => ?_
    rw [hqueued] at hstands
    exact hstands.2

/-- An interview goes on. -/
theorem Inv.interview (h : s.Inv) {k : ℕ} {ieee : Ieee} {old new : Progress}
    (hk : s.interviews[k]? = some ⟨ieee,old⟩) (hold : old.isOver = false)
    (makers : List (Option ℕ)) :
    { s with makers := makers, interviews := s.interviews.set k ⟨ieee,new⟩ }.Inv := by
  have hlt := (List.getElem?_eq_some_iff.mp hk).1
  have hadvances : s.Advances
      { s with makers := makers, interviews := s.interviews.set k ⟨ieee,new⟩ } := by
    refine ⟨List.prefix_rfl,fun hstopped => ⟨hstopped,rfl⟩,fun place reply hanswered => ?_,
      fun _ _ hforsaken => hforsaken⟩
    rcases hanswered with hanswer | ⟨k',ieee',result,hk',hover,hreply⟩
    · exact .inl hanswer
    · refine .inr ⟨k',ieee',result,hk',?_,hreply⟩
      have hne : k ≠ k' := by
        rintro rfl
        obtain ⟨-,rfl⟩ := Spawned.mk.inj (Option.some.inj (hk.symm.trans hover))
        cases hold
      simpa [List.getElem?_set_ne hne] using hover
  refine ⟨h.answerable,h.length,h.nodup,h.requested,h.offered,fun j c hj => ?_,?_⟩
  · have hstands := h.stands j c hj
    refine hstands.mono hadvances h.length Iff.rfl fun hqueued => ?_
    rw [hqueued] at hstands
    exact hstands.2
  · show (s.interviews.set k ⟨ieee,new⟩).map Spawned.ieee = _
    rw [← h.paired,List.map_set]
    refine List.ext_getElem? fun j => ?_
    rw [List.getElem?_set']
    by_cases hj : k = j
    · rw [if_pos hj,← hj,List.getElem?_map,hk]
      rfl
    · rw [if_neg hj]

theorem put_self (hc : s.calls[i]? = some ⟨request,stage⟩) : s.put i request stage = s := by
  rw [put,set_of_getElem? hc]

/-- The loop has received the oldest request, wherever that leaves its call. -/
theorem Inv.take (h : s.Inv) {old : Stage E} {rest : List ℕ} (env : ℕ → Env)
    (hitems : s.queue.items = i::rest) (hc : s.calls[i]? = some ⟨request,old⟩)
    (hrun : s.task.stopped = false)
    (hstands : (s.take errors i request env).Stands i request stage) :
    ((s.take errors i request env).put i request stage).Inv := by
  have hrequests : (s.task.step (.request request env)).requests = s.task.requests ++ [request] :=
    congrArg Prod.fst (Task.logs_step hrun (.request request env))
  have htail : s.queue.tail.items = rest := by
    rw [Channel.tail_items,hitems,List.tail_cons]
  have hall : (s.served ++ [i]) ++ s.queue.tail.items = s.served ++ s.queue.items := by
    rw [htail,hitems,List.append_assoc,List.singleton_append]
  have hadvances := advances_turn errors h.answerable (.request request env)
  refine ⟨Task.answerable_step h.answerable (.request request env),?_,?_,?_,?_,?_,
    paired_turn errors h.paired _⟩
  · show (s.served ++ [i]).length = (s.task.step (.request request env)).requests.length
    rw [hrequests,List.length_append,List.length_append,h.length]
    rfl
  · show ((s.served ++ [i]) ++ s.queue.tail.items).Nodup
    rw [hall]
    exact h.nodup
  · intro place j hplace
    show ∃ c, (s.calls.set i ⟨request,stage⟩)[j]? = some c ∧
      (s.task.step (.request request env)).requests[place]? = some c.request
    have hplace' : (s.served ++ [i])[place]? = some j := hplace
    rw [hrequests,getElem?_concat,← h.length,getElem?_set_of hc]
    rw [getElem?_concat] at hplace'
    split at hplace'
    · rename_i hlast
      obtain rfl := Option.some.inj hplace'
      rw [if_pos rfl,if_pos hlast]
      exact ⟨_,rfl,rfl⟩
    · rename_i hearlier
      rw [if_neg hearlier]
      obtain ⟨c,hj,hrequest⟩ := h.requested place j hplace'
      split
      · rename_i hij
        rw [← hij,hc] at hj
        obtain rfl := Option.some.inj hj
        exact ⟨_,rfl,hrequest⟩
      · exact ⟨c,hj,hrequest⟩
  · intro j hj
    show j < (s.calls.set i ⟨request,stage⟩).length
    rw [List.length_set]
    refine h.offered j ?_
    rw [hitems]
    exact List.mem_cons_of_mem i (htail ▸ hj)
  · intro j c hj
    have hj' : (s.calls.set i ⟨request,stage⟩)[j]? = some c := hj
    rw [getElem?_set_of hc] at hj'
    split at hj'
    · rename_i hij
      subst hij
      obtain rfl := Option.some.inj hj'
      exact hstands
    · rename_i hij
      have hother := h.stands j c hj'
      have hruns : s.task.stopped ≠ true := by simp [hrun]
      refine hother.mono ⟨List.prefix_append _ _,fun hstopped => absurd hstopped hruns,
        hadvances.answered,hadvances.forsaken⟩ h.length ?_ fun hqueued => ?_
      · show j ∈ (s.served ++ [i]) ++ s.queue.tail.items ↔ _
        rw [hall]
      · rw [hqueued] at hother
        have hmem : j ∈ i::rest := hitems ▸ hother.2
        show j ∈ s.queue.tail.items
        rw [htail]
        exact (List.mem_cons.mp hmem).resolve_left fun hji => hij hji.symm

/-- The loop receives a request, and the call is where its caller has it. -/
theorem Inv.receive (h : s.Inv) {c : Call E} {rest : List ℕ} (env : ℕ → Env)
    (hitems : s.queue.items = i::rest) (hc : s.calls[i]? = some c)
    (hrun : s.task.stopped = false) : (s.receive errors i c env).Inv := by
  obtain ⟨request,stage⟩ := c
  have hlast : (s.served ++ [i])[s.task.requests.length]? = some i := by
    rw [← h.length]
    exact List.getElem?_concat_length
  have hmem : i ∈ s.served ++ s.queue.items := by simp [hitems]
  -- What is in the channel has not been received.
  have hearly {place : ℕ} : s.served[place]? ≠ some i := fun hplace =>
    (List.nodup_append.mp h.nodup).2.2 i (List.mem_of_getElem? hplace) i (by simp [hitems]) rfl
  have hstands := h.stands i _ hc
  have hsame : (s.take errors i request env).calls[i]? = some ⟨request,stage⟩ := hc
  cases stage with
  | queued => exact h.take errors env hitems hc hrun ⟨hstands.1,hlast⟩
  | gone =>
    have hgone : (s.take errors i request env).Stands i request .gone := trivial
    have htaken := h.take errors env hitems hc hrun hgone
    rw [put_self hsame] at htaken
    exact htaken.turn errors rfl
  | offered => exact absurd hmem hstands
  | posted =>
    have hposted : (s.served ++ [i]) ++ s.queue.tail.items = s.served ++ s.queue.items := by
      rw [Channel.tail_items,hitems,List.tail_cons,List.append_assoc,List.singleton_append]
    have hthere : i ∈ (s.served ++ [i]) ++ s.queue.tail.items := by
      rw [hposted]
      exact hmem
    have htaken := h.take errors env hitems hc hrun (show Stands _ i request .posted from
      ⟨hstands.1,hthere⟩)
    rwa [put_self hsame] at htaken
  | received place => exact absurd hstands.2 hearly
  | returned place reply =>
    cases place with
    | none =>
      have hstopped := hstands.2.1
      rw [hrun] at hstopped
      cases hstopped
    | some place =>
      cases reply with
      | none => exact absurd hstands.2.1 hearly
      | some reply => exact absurd hstands.2.1 hearly

theorem Inv.accept (h : s.Inv) (hc : s.calls[i]? = some ⟨request,.offered⟩) (hroom : s.queue.Room) :
    { s.put i request (if request.expects then .queued else .posted) with
      queue := s.queue.push i hroom }.Inv := by
  have hnew : i ∉ s.served ++ s.queue.items := h.stands i _ hc
  have hall : s.served ++ (s.queue.push i hroom).items = s.served ++ s.queue.items ++ [i] := by
    rw [Channel.push_items,List.append_assoc]
  refine h.move hc ?_ ?_ fun j hji => ?_
  · split
    · rename_i hexpects
      exact ⟨hexpects,by simp⟩
    · rename_i hexpects
      refine ⟨by simpa using hexpects,?_⟩
      show i ∈ s.served ++ (s.queue.push i hroom).items
      simp
  · rw [hall]
    exact List.nodup_append.mpr ⟨h.nodup,by simp,fun a ha b hb => by
      rw [List.mem_singleton.mp hb]
      rintro rfl
      exact hnew ha⟩
  · simp [hji]

theorem Inv.step {holds : Prop} {party : Party} (h : s.Inv)
    (hstep : Step errors holds party s s') : s'.Inv := by
  cases hstep with
  | clone _ => exact ⟨h.answerable,h.length,h.nodup,h.requested,h.offered,h.stands,h.paired⟩
  | drop _ => exact ⟨h.answerable,h.length,h.nodup,h.requested,h.offered,h.stands,h.paired⟩
  | call _ _ => exact h.offer _
  | accept hc _ hroom => exact h.accept hc hroom
  | @refuse _ i request hc hstopped =>
    have hnew : i ∉ s.served ++ s.queue.items := h.stands i _ hc
    exact h.put hc ⟨rfl,hstopped,fun hserved => hnew (List.mem_append_left _ hserved)⟩
  | @lose _ i request hc hstopped =>
    have hqueued := (h.stands i _ hc).2
    -- What is in the channel has not been received.
    exact h.put hc ⟨rfl,hstopped,fun hserved =>
      (List.nodup_append.mp h.nodup).2.2 i hserved i hqueued rfl⟩
  | receive env hitems hc hrun => exact h.receive errors env hitems hc hrun
  | @answer _ i place request a hc ha =>
    refine h.put hc ⟨(h.stands i _ hc).1,(h.stands i _ hc).2,.inl ⟨a,?_,rfl⟩⟩
    have hsingle : (s.task.repliesTo place).length ≤ 1 := h.answerable.single place
    cases hreplies : s.task.repliesTo place with
    | nil => rw [hreplies] at ha; cases ha
    | cons b rest =>
      rw [hreplies] at ha hsingle
      obtain rfl := Option.some.inj ha
      rw [List.length_eq_zero_iff.mp (Nat.le_zero.mp (Nat.le_of_succ_le_succ hsingle))]
  | @report _ i place k request ieee result hc hk hover =>
    exact h.put hc ⟨(h.stands i _ hc).1,(h.stands i _ hc).2,.inr ⟨k,ieee,result,hk,hover,rfl⟩⟩
  | @orphan _ i place request hc hnone hdropped =>
    exact h.put hc ⟨(h.stands i _ hc).1,(h.stands i _ hc).2,hnone,hdropped⟩
  | cancel hc _ =>
    rcases hc with hc | hc
    · exact h.put hc trivial
    · exact h.put hc trivial
  | @abandon _ i _ request hc _ =>
    have hgone : s.Stands i request .gone := trivial
    exact (h.put hc hgone).turn errors rfl
  | event event origin env _ => exact h.turn errors rfl
  | tick env _ => exact h.turn errors rfl
  | unplug env _ _ => exact h.turn errors rfl
  | close env _ _ _ => exact h.turn errors rfl
  | @begin _ k ieee c next hk => exact (h.offer (c.request ieee)).interview hk rfl _
  | resume hk _ _ => exact h.interview hk rfl _

theorem inv_start (config : TaskConfig E) (env : Env) : (start config env).Inv := by
  have hanswerable := Task.answerable_start config env
  refine ⟨hanswerable,?_,?_,?_,?_,?_,?_⟩
  · simp [start,Task.requests_start]
  · simp [start]
  · simp [start]
  · simp [start]
  · simp [start]
  · simp [start,Task.interviews_start]

theorem Reachable.inv {holds : Prop} (h : Reachable errors holds s) : s.Inv := by
  induction h with
  | start config env => exact inv_start config env
  | step _ hstep ih => exact ih.step errors hstep

end Steps

section Telling

variable {errors} {s : Session E} {holds : Prop}

/-- What a method has returned with, the place of its request among all received included. -/
inductive Told (s : Session E) (i : ℕ) (request : Request E) :
    Option ℕ → Option (Reply E) → Prop
  /-- The loop ended before it received the request, and never will. -/
  | unheard (h : s.task.stopped = true) (hnever : i ∉ s.served) : Told s i request none none
  | answered {place : ℕ} {a : Answer E} (hreceived : s.task.requests[place]? = some request)
      (h : s.task.repliesTo place = [a]) (hfits : Task.fits request a.reply) :
    Told s i request (some place) (some a.reply)
  | interviewed {place k : ℕ} {ieee : Ieee} {result : Except RuntimeError InterviewOutcome}
      (hreceived : s.task.requests[place]? = some request) (hrequest : request = .interview ieee)
      (hk : s.task.interviews[k]? = some (ieee,some place))
      (hover : s.interviews[k]? = some ⟨ieee,.ready (.done result)⟩) :
    Told s i request (some place) (some (.interview result))
  /-- A later request was put under the key its answer was to come under. -/
  | displaced {place place' : ℕ} {q q' : Question}
      (hreceived : s.task.requests[place]? = some request) (hnone : s.task.repliesTo place = [])
      (hasked : s.task.Asked place q) (hlater : place < place') (hasked' : s.task.Asked place' q')
      (hkey : q'.key = q.key) : Told s i request (some place) none

theorem Inv.told (h : s.Inv) {i : ℕ} {request : Request E} {place : Option ℕ}
    {reply : Option (Reply E)} (hc : s.calls[i]? = some ⟨request,.returned place reply⟩) :
    s.Told i request place reply ∧ ∀ p, place = some p → s.served[p]? = some i := by
  have hstands := h.stands i _ hc
  cases place with
  | none =>
    obtain ⟨hreply,hstopped,hnever⟩ := hstands
    rw [hreply]
    exact ⟨.unheard hstopped hnever,by simp⟩
  | some place =>
    have hreceived (hplace : s.served[place]? = some i) :
        s.task.requests[place]? = some request := by
      obtain ⟨c,hthis,hrequest⟩ := h.requested place i hplace
      rw [hc] at hthis
      obtain rfl := Option.some.inj hthis
      exact hrequest
    cases reply with
    | none =>
      obtain ⟨hexpects,hplace,hnone,hdropped⟩ := hstands
      obtain ⟨q,place',q',hasked,hlater,hasked',hkey⟩ := Task.displaced h.answerable
        (hreceived hplace) hexpects hnone (fun k w hw hwho => hdropped (.inl ⟨k,w,hw,hwho⟩))
        fun ieee hieee => hdropped (.inr ⟨ieee,hieee⟩)
      exact ⟨.displaced (hreceived hplace) hnone hasked hlater hasked' hkey,
        fun p hp => Option.some.inj hp ▸ hplace⟩
    | some reply =>
      obtain ⟨-,hplace,hanswered⟩ := hstands
      refine ⟨?_,fun p hp => Option.some.inj hp ▸ hplace⟩
      rcases hanswered with ⟨a,ha,rfl⟩ | ⟨k,ieee,result,hk,hover,rfl⟩
      · have hmem : a ∈ s.task.ledger.answers place := by
          have hreplies : s.task.ledger.answers place = [a] := ha
          rw [hreplies]
          exact List.mem_singleton_self a
        obtain ⟨request',hrequest',hfits⟩ := h.answerable.typed.answers place a hmem
        rw [hreceived hplace] at hrequest'
        obtain rfl := Option.some.inj hrequest'
        exact .answered (hreceived hplace) ha hfits
      · have hspawned := h.answerable.spawned ieee place (List.mem_of_getElem? hk)
        rw [hreceived hplace] at hspawned
        exact .interviewed (hreceived hplace) (Option.some.inj hspawned) hk hover

/-- A runtime on an empty store. -/
def bare : Session Engine.bare := start {
  reachability := silencePolicy defaultSilenceLimit
  interviewOnJoin := false
  devices := []
  outcome := .formed
  coordinator := ⟨0xc0⟩
  networkKnown := false
  registry := ()
  store := .new } {}

theorem room_bare : bare.queue.Room := Nat.zero_lt_succ 63

/-- Its devices are asked for. -/
def asking : Session Engine.bare :=
  { (bare.offer .devices).put 0 .devices .queued with queue := bare.queue.push 0 room_bare }

def untold : ErrorText := ⟨fun _ => "",fun _ => ""⟩

theorem runs_bare : bare.task.stopped = false := Task.stopped_start _ _

/-- They are told. -/
def listed : Session Engine.bare :=
  (asking.receive untold 0 ⟨.devices,.queued⟩ fun _ => {}).put 0 .devices
    (.returned (some asking.task.requests.length) (some (.devices asking.task.devices.snapshot)))

end Telling

section Ending

variable {errors} {s s' : Session E} {holds : Prop} {party : Party}

/-- No call is forgotten, none is offered twice, and none is given up but by its caller. -/
structure Extends (party : Party) (s s' : Session E) : Prop where
  calls : ∀ (i : ℕ) (c : Call E), s.calls[i]? = some c → ∃ stage,
    s'.calls[i]? = some ⟨c.request,stage⟩ ∧ (stage = .offered → c.stage = .offered) ∧
      (party = .runtime → stage = .gone → c.stage = .gone)
  served : s.served <+: s'.served

theorem Extends.same (hcalls : s'.calls = s.calls) (hserved : s.served <+: s'.served) :
    Extends party s s' :=
  ⟨fun _ c hc => ⟨c.stage,hcalls ▸ hc,id,fun _ => id⟩,hserved⟩

theorem Extends.offer (hcalls : ∃ c, s'.calls = s.calls ++ [c]) (hserved : s'.served = s.served) :
    Extends party s s' := by
  obtain ⟨c,hcalls⟩ := hcalls
  refine ⟨fun i d hd => ⟨d.stage,?_,id,fun _ => id⟩,hserved ▸ List.prefix_rfl⟩
  rw [hcalls,List.getElem?_append_left (List.getElem?_eq_some_iff.mp hd).1,hd]

theorem Extends.put {i : ℕ} {request : Request E} {old stage : Stage E}
    (hc : s.calls[i]? = some ⟨request,old⟩) (hcalls : s'.calls = (s.put i request stage).calls)
    (hserved : s.served <+: s'.served) (hoffered : stage ≠ .offered)
    (hgone : party = .runtime → stage ≠ .gone) : Extends party s s' := by
  refine ⟨fun j d hd => ?_,hserved⟩
  rw [hcalls,Session.put,getElem?_set_of hc]
  split
  · rename_i hij
    rw [← hij,hc] at hd
    obtain rfl := Option.some.inj hd
    exact ⟨stage,rfl,fun hthis => absurd hthis hoffered,
      fun hparty hthis => absurd hthis (hgone hparty)⟩
  · exact ⟨d.stage,hd,id,fun _ => id⟩

theorem Step.extends (h : Step errors holds party s s') : Extends party s s' := by
  cases h with
  | clone _ => exact .same rfl List.prefix_rfl
  | drop _ => exact .same rfl List.prefix_rfl
  | call _ _ => exact .offer ⟨_,rfl⟩ rfl
  | @accept _ i request hc _ _ =>
    refine .put hc rfl List.prefix_rfl ?_ fun _ => ?_
    · split <;> simp
    · split <;> simp
  | refuse hc _ => exact .put hc rfl List.prefix_rfl (by simp) (by simp)
  | lose hc _ => exact .put hc rfl List.prefix_rfl (by simp) (by simp)
  | @receive _ i rest c env hitems hc hrun =>
    obtain ⟨request,stage⟩ := c
    have hserved : s.served <+: s.served ++ [i] := List.prefix_append _ _
    unfold Session.receive
    dsimp only
    split
    · exact .put hc rfl hserved (by simp) (by simp)
    · exact .same rfl hserved
    · exact .same rfl hserved
  | answer hc _ => exact .put hc rfl List.prefix_rfl (by simp) (by simp)
  | report hc _ _ => exact .put hc rfl List.prefix_rfl (by simp) (by simp)
  | orphan hc _ _ => exact .put hc rfl List.prefix_rfl (by simp) (by simp)
  | cancel hc _ =>
    rcases hc with hc | hc
    · exact .put hc rfl List.prefix_rfl (by simp) (by simp)
    · exact .put hc rfl List.prefix_rfl (by simp) (by simp)
  | abandon hc _ => exact .put hc rfl List.prefix_rfl (by simp) (by simp)
  | event event origin env _ => exact .same rfl List.prefix_rfl
  | tick env _ => exact .same rfl List.prefix_rfl
  | unplug env _ _ => exact .same rfl List.prefix_rfl
  | close env _ _ _ => exact .same rfl List.prefix_rfl
  | begin _ => exact .offer ⟨_,rfl⟩ rfl
  | resume _ _ _ => exact .same rfl List.prefix_rfl

/-- Some method that stops the runtime has been received. -/
def StopReceived (s : Session E) : Prop :=
  ∃ i ∈ s.served, ∃ c, s.calls[i]? = some c ∧ c.request = .stop

theorem senders_pos (hrun : s.task.stopped = false) : 0 < s.senders := by
  rw [senders,hrun,if_neg (by simp)]
  omega

theorem stopped_receive (i : ℕ) (c : Call E) (env : ℕ → Env) :
    (s.receive errors i c env).task.stopped =
      (s.task.stopped || (Input.request c.request env).stops) := by
  have htake : (s.take errors i c.request env).task.stopped =
      (s.task.stopped || (Input.request c.request env).stops) := Task.stopped_step _ _
  unfold receive
  dsimp only
  split
  · exact htake
  · have habandon : ((s.take errors i c.request env).turn errors
        (.abandon s.task.requests.length)).task.stopped = _ := Task.stopped_step _ _
    rw [habandon,htake]
    exact Bool.or_false _
  · exact htake

/-- While the adapter keeps a sender of its events, only a method that stops the runtime ends the
loop: it has a handle of its own. -/
theorem Step.stopReceived (hholds : holds) (h : Step errors holds party s s')
    (hrun : s.task.stopped = false) (hstopped : s'.task.stopped = true) :
    ∃ i c, s.calls[i]? = some c ∧ c.request = .stop ∧ i ∈ s.queue.items ∧
      s'.served = s.served ++ [i] := by
  have hgoes {input : Input E} (hinput : input.stops = false) :
      (s.task.step input).stopped = false := by
    rw [Task.stopped_step,hrun,hinput]
    rfl
  have hnever {t : Task E} (ht : t.stopped = false) (hsame : t.stopped = true) {P : Prop} : P := by
    rw [ht] at hsame
    cases hsame
  cases h with
  | @receive _ i rest c env hitems hc _ =>
    refine ⟨i,c,hc,?_,by simp [hitems],?_⟩
    · rw [stopped_receive,hrun,Bool.false_or] at hstopped
      unfold Input.stops at hstopped
      split at hstopped
      · rename_i heq
        exact (Input.request.inj heq).1
      · rename_i heq
        cases heq
      · rename_i heq
        cases heq
      · cases hstopped
    · unfold Session.receive
      dsimp only
      split <;> rfl
  | event event origin env _ => exact hnever (hgoes rfl) hstopped
  | tick env _ => exact hnever (hgoes rfl) hstopped
  | abandon _ _ => exact hnever (hgoes rfl) hstopped
  | unplug env _ hdrops => exact absurd hholds hdrops
  | close env _ _ hnone => exact absurd hnone (Nat.ne_of_gt (senders_pos hrun))
  | _ => exact hnever hrun hstopped

theorem StopReceived.step (h : s.StopReceived) (hstep : Step errors holds party s s') :
    s'.StopReceived := by
  obtain ⟨i,hi,c,hc,hstop⟩ := h
  have hextends := hstep.extends
  obtain ⟨stage,hc',-⟩ := hextends.calls i c hc
  exact ⟨i,hextends.served.subset hi,_,hc',hstop⟩

theorem Reachable.stopReceived (hholds : holds) (h : Reachable errors holds s)
    (hstopped : s.task.stopped = true) : s.StopReceived := by
  induction h with
  | start config env =>
    have hrun : (Task.start config env).stopped = true := hstopped
    rw [Task.stopped_start] at hrun
    cases hrun
  | @step party s s' h hstep ih =>
    by_cases hbefore : s.task.stopped = true
    · exact (ih hbefore).step hstep
    · obtain ⟨i,c,hc,hstop,-,hserved⟩ :=
        hstep.stopReceived hholds (by simpa using hbefore) hstopped
      obtain ⟨stage,hc',-⟩ := hstep.extends.calls i c hc
      refine ⟨i,?_,_,hc',hstop⟩
      rw [hserved]
      simp

/-- A method is called by someone with a handle, or by an interview. -/
theorem Step.made (h : Step errors holds party s s') {i : ℕ} {c : Call E}
    (hnew : s.calls.length ≤ i) (hc : s'.calls[i]? = some c) :
    0 < s.handles ∨ ∃ (ask : Ask) (ieee : Ieee), c.request = ask.request ieee := by
  have hlt := (List.getElem?_eq_some_iff.mp hc).1
  have hsame {P : Prop} (hlength : s'.calls.length = s.calls.length) : P :=
    absurd hlt (by omega)
  have hput (j : ℕ) (request : Request E) (stage : Stage E) :
      (s.put j request stage).calls.length = s.calls.length := List.length_set
  cases h with
  | call h _ => exact .inl h
  | @begin _ k ieee ask next hk =>
    refine .inr ⟨ask,ieee,?_⟩
    have hlast : (s.calls ++ [⟨ask.request ieee,.offered⟩])[i]? = some c := hc
    rw [getElem?_concat] at hlast
    split at hlast
    · cases hlast
      rfl
    · rw [List.getElem?_eq_none hnew] at hlast
      cases hlast
  | @receive _ j rest d env hitems hd hrun =>
    refine hsame ?_
    unfold Session.receive
    dsimp only
    split
    · exact List.length_set
    · rfl
    · rfl
  | accept _ _ _ => exact hsame (hput _ _ _)
  | refuse _ _ => exact hsame (hput _ _ _)
  | lose _ _ => exact hsame (hput _ _ _)
  | answer _ _ => exact hsame (hput _ _ _)
  | report _ _ _ => exact hsame (hput _ _ _)
  | orphan _ _ _ => exact hsame (hput _ _ _)
  | cancel _ _ => exact hsame (hput _ _ _)
  | abandon _ _ => exact hsame (hput _ _ _)
  | _ => exact hsame rfl

/-- What is in the channel was there, or had been offered. -/
theorem Step.queued (h : Step errors holds party s s') {i : ℕ} (hi : i ∈ s'.queue.items) :
    i ∈ s.queue.items ∨ ∃ request, s.calls[i]? = some ⟨request,.offered⟩ := by
  cases h with
  | @accept _ j request hc _ hroom =>
    have hmem : i ∈ (s.queue.push j hroom).items := hi
    rw [Channel.push_items,List.mem_append,List.mem_singleton] at hmem
    rcases hmem with hold | rfl
    · exact .inl hold
    · exact .inr ⟨request,hc⟩
  | receive env _ _ _ =>
    have hmem : i ∈ s.queue.items.tail := by
      unfold Session.receive at hi
      dsimp only at hi
      split at hi <;> exact hi
    exact .inl (List.mem_of_mem_tail hmem)
  | _ => exact .inl hi

/-- Nobody holds a handle, and nothing on its way to the loop stops it. -/
structure LeftAlone (s : Session E) : Prop where
  handles : s.handles = 0
  calls : ∀ (i : ℕ) (c : Call E), s.calls[i]? = some c → c.request = .stop →
    c.stage ≠ .offered ∧ i ∉ s.queue.items
  runs : s.task.stopped = false

theorem LeftAlone.step (hholds : holds) (h : s.LeftAlone) (hstep : Step errors holds party s s') :
    s'.LeftAlone := by
  have hruns : s'.task.stopped = false := by
    by_contra hstopped
    obtain ⟨i,c,hc,hstop,hqueued,-⟩ := hstep.stopReceived hholds h.runs (by simpa using hstopped)
    exact (h.calls i c hc hstop).2 hqueued
  have hcalls : ∀ (i : ℕ) (c : Call E), s'.calls[i]? = some c → c.request = .stop →
      c.stage ≠ .offered ∧ i ∉ s'.queue.items := by
    intro i c hi hstop
    rcases Nat.lt_or_ge i s.calls.length with hold | hnew
    · have hbefore := List.getElem?_eq_getElem hold
      obtain ⟨stage,hi',hoffered,-⟩ := hstep.extends.calls i s.calls[i] hbefore
      rw [hi] at hi'
      obtain rfl := Option.some.inj hi'
      obtain ⟨hstage,hqueue⟩ := h.calls i _ hbefore hstop
      refine ⟨fun hthis => hstage (hoffered hthis),fun hmem => ?_⟩
      rcases hstep.queued hmem with hthere | ⟨request,hthere⟩
      · exact hqueue hthere
      · rw [hbefore] at hthere
        exact hstage (congrArg Call.stage (Option.some.inj hthere))
    · rcases hstep.made hnew hi with hhandles | ⟨ask,ieee,hrequest⟩
      · exact absurd h.handles (Nat.ne_of_gt hhandles)
      · rw [hrequest] at hstop
        cases ask <;> cases hstop
  have hhandles : s'.handles = 0 := by
    cases hstep with
    | clone hheld => exact absurd h.handles (Nat.ne_of_gt hheld)
    | drop hheld => exact absurd h.handles (Nat.ne_of_gt hheld)
    | receive env _ _ _ =>
      unfold Session.receive
      dsimp only
      split <;> exact h.handles
    | _ => exact h.handles
  exact ⟨hhandles,hcalls,hruns⟩

end Ending

end Session
end Rszigbee
