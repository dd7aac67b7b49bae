import Rszigbee.Conduct

/-! Sessions and interviews on an unbounded queue.
The channel of a session holds sixty-four requests, and its calls can be given up; the queue beside
which interviews are told apart has room for everything. Whatever a session does, there is a run on
that queue in which the loop has come to the same state. -/
namespace Rszigbee

open Interview (Ask ErrorText)

variable {E : Engine}

namespace Interviews

section Advancing

variable {t : Interviews E} {k : ℕ} {ieee : Ieee} {c : Ask} {reply : ℕ}
  {next : c.Response → Interview.Part InterviewOutcome}

/-- Where an interview stands when it has sent what it asks. -/
def sent (t : Interviews E) (c : Ask) (next : c.Response → Interview.Part InterviewOutcome) :
    Progress :=
  match c.handedOver with
  | some payload => .ready (next (.ok payload))
  | none => .waiting c (t.task.requests.length + t.queue.length) next

theorem advance_ask (h : t.spawned[k]? = some ⟨ieee,.ready (.ask c next)⟩) (dropped : Bool)
    (hrun : t.task.stopped = false) : (t.advance k dropped).task = t.task ∧
      (t.advance k dropped).queue = t.queue ++ [c.request ieee] ∧
      (t.advance k dropped).spawned = t.spawned.set k ⟨ieee,t.sent c next⟩ := by
  rw [advance,h]
  simp only [ask,hrun]
  cases c with
  | update u => exact ⟨rfl,rfl,rfl⟩
  | zdo cluster build => exact ⟨rfl,rfl,rfl⟩
  | zclRead endpoint cluster attributes => exact ⟨rfl,rfl,rfl⟩

theorem advance_refused (h : t.spawned[k]? = some ⟨ieee,.ready (.ask c next)⟩) (dropped : Bool)
    (hstopped : t.task.stopped = true) :
    t.advance k dropped = t.resume k ieee (.ready (next (.error .stopped))) := by
  rw [advance,h]
  exact if_pos hstopped

theorem find?_replies (t : Task E) (place : ℕ) :
    (t.replies.find? fun a => a.id = place) = (t.repliesTo place).head? :=
  List.head?_filter.symm

theorem advance_answered (h : t.spawned[k]? = some ⟨ieee,.waiting c reply next⟩) (dropped : Bool)
    {a : Answer E}
    (ha : (t.task.repliesTo reply).head? = some a) {response : c.Response}
    (hr : c.received a.reply = some response) :
    t.advance k dropped = t.resume k ieee (.ready (next response)) := by
  rw [advance,h]
  simp only [await,find?_replies,ha,Option.bind_some,hr]

theorem advance_forsaken (h : t.spawned[k]? = some ⟨ieee,.waiting c reply next⟩)
    {dropped : Bool} (hnone : t.task.repliesTo reply = [])
    (hover : (t.task.stopped || dropped) = true) :
    t.advance k dropped = t.resume k ieee (.ready (next (.error .stopped))) := by
  rw [advance,h]
  simp only [await,find?_replies,hnone,List.head?_nil,Option.bind_none]
  exact if_pos hover

end Advancing
end Interviews

namespace Session

section Likeness

variable (s : Session E)

/-- How far an interview is on the unbounded queue: it sends as soon as the channel takes what it
asks, and has an answer as soon as there is one. -/
inductive Ahead : Progress → Progress → Prop
  | ready (rest : Interview.Part InterviewOutcome) : Ahead (.ready rest) (.ready rest)
  | offered {c : Ask} {i : ℕ} {next : c.Response → Interview.Part InterviewOutcome}
      {request : Request E} (h : s.calls[i]? = some ⟨request,.offered⟩) :
    Ahead (.waiting c i next) (.ready (.ask c next))
  | put {c : Ask} {i place : ℕ} {next : c.Response → Interview.Part InterviewOutcome}
      {call : Call E} (h : s.calls[i]? = some call) (hplace : s.admitted[place]? = some i)
      (hnone : c.heard call.stage = none) : Ahead (.waiting c i next) (.waiting c place next)
  | heard {c : Ask} {i : ℕ} {next : c.Response → Interview.Part InterviewOutcome} {call : Call E}
      {response : c.Response} (h : s.calls[i]? = some call)
      (hr : c.heard call.stage = some response) :
    Ahead (.waiting c i next) (.ready (next response))

/-- What the calls ask for. -/
def Asks (items : List ℕ) (queue : List (Request E)) : Prop :=
  List.Forall₂ (fun i request => ∃ stage, s.calls[i]? = some ⟨request,stage⟩) items queue

/-- The same loop, the same requests before it, and interviews that are ahead of these. -/
structure Like (t : Interviews E) : Prop where
  task : t.task = s.task
  queue : s.Asks s.queue.items t.queue
  length : t.spawned.length = s.interviews.length
  ahead : ∀ (k : ℕ) (ieee : Ieee) (p : Progress), s.interviews[k]? = some ⟨ieee,p⟩ →
    ∃ q, t.spawned[k]? = some ⟨ieee,q⟩ ∧ s.Ahead p q

end Likeness

section Moving

variable {errors : ErrorText} {party : Party} {s s' : Session E}
  {t t' : Interviews E} {p q : Progress} {i k : ℕ} {ieee : Ieee} {c : Ask}
  {next : c.Response → Interview.Part InterviewOutcome} {request : Request E}

theorem Ahead.of (h : s.Ahead p q) (hcalls : ∀ i ∈ p.pending, s'.calls[i]? = s.calls[i]?)
    (hadmitted : s.admitted <+: s'.admitted) : s'.Ahead p q := by
  cases h with
  | ready rest => exact .ready rest
  | offered h => exact .offered ((hcalls _ (List.mem_singleton_self _)).trans h)
  | put h hplace hnone =>
    obtain ⟨more,hmore⟩ := hadmitted
    refine .put ((hcalls _ (List.mem_singleton_self _)).trans h) ?_ hnone
    rw [← hmore,List.getElem?_append_left (List.getElem?_eq_some_iff.mp hplace).1]
    exact hplace
  | heard h hr => exact .heard ((hcalls _ (List.mem_singleton_self _)).trans h) hr

theorem Asks.mono {items : List ℕ} {queue : List (Request E)} (h : s.Asks items queue)
    (hextends : Extends party s s') : s'.Asks items queue :=
  h.imp fun i request hi => by
    obtain ⟨stage,hc⟩ := hi
    obtain ⟨stage',hc',-⟩ := hextends.calls i _ hc
    exact ⟨stage',hc'⟩

theorem awaitedBy_of_pending {a : Spawned} (hk : s.interviews[k]? = some a)
    (hi : i ∈ a.progress.pending) : s.AwaitedBy i := by
  obtain ⟨ieee,p⟩ := a
  refine ⟨_,List.mem_of_getElem? hk,?_⟩
  cases p with
  | ready rest => cases hi
  | waiting c j next =>
    obtain rfl := List.mem_singleton.mp hi
    exact ⟨c,next,rfl⟩

/-- Nothing moves that an interview waits on. -/
theorem Like.of (h : s.Like t) (htask : t'.task = s'.task)
    (hqueue : s'.Asks s'.queue.items t'.queue) (hinterviews : s'.interviews = s.interviews)
    (hspawned : t'.spawned = t.spawned)
    (hcalls : ∀ i, s.AwaitedBy i → s'.calls[i]? = s.calls[i]?)
    (hadmitted : s.admitted <+: s'.admitted) : s'.Like t' := by
  refine ⟨htask,hqueue,?_,fun k ieee p hk => ?_⟩
  · rw [hspawned,hinterviews]
    exact h.length
  · rw [hinterviews] at hk
    rw [hspawned]
    obtain ⟨q,hq,hahead⟩ := h.ahead k ieee p hk
    exact ⟨q,hq,hahead.of (fun i hi => hcalls i (awaitedBy_of_pending hk hi)) hadmitted⟩

/-- An interview goes on here that has gone on there. -/
theorem Like.own {old : Progress} (h : s.Like t) (hk : s.interviews[k]? = some ⟨ieee,old⟩)
    (htask : t.task = s'.task) (hqueue : s'.Asks s'.queue.items t.queue)
    (hinterviews : s'.interviews = s.interviews.set k ⟨ieee,p⟩)
    (hp : ∀ q, s.Ahead old q → s'.Ahead p q)
    (hcalls : ∀ i, s.AwaitedBy i → s'.calls[i]? = s.calls[i]?)
    (hadmitted : s.admitted <+: s'.admitted) : s'.Like t := by
  refine ⟨htask,hqueue,?_,fun j ieee' p' hj => ?_⟩
  · rw [hinterviews,List.length_set]
    exact h.length
  · rw [hinterviews,getElem?_set_of hk] at hj
    split at hj
    · rename_i hkj
      subst hkj
      obtain ⟨rfl,rfl⟩ := Spawned.mk.inj (Option.some.inj hj)
      obtain ⟨q,hq,hahead⟩ := h.ahead k ieee old hk
      exact ⟨q,hq,hp q hahead⟩
    · obtain ⟨q,hq,hahead⟩ := h.ahead j ieee' p' hj
      exact ⟨q,hq,hahead.of (fun i hi => hcalls i (awaitedBy_of_pending hj hi)) hadmitted⟩

/-- No two interviews wait on one call: each waits on one it made itself. -/
theorem Orderly.eq_of_pending (h : s.Orderly errors) {j : ℕ} {a b : Spawned}
    (hj : s.interviews[j]? = some a) (hk : s.interviews[k]? = some b)
    (ha : i ∈ a.progress.pending) (hb : i ∈ b.progress.pending) : j = k := by
  obtain ⟨_,_,hthis⟩ := h j a hj
  obtain ⟨_,_,hthat⟩ := h k b hk
  have hmaker := hthis.own i (List.mem_append_right _ ha)
  rw [hthat.own i (List.mem_append_right _ hb)] at hmaker
  exact (Option.some.inj (Option.some.inj hmaker)).symm

/-- A call moves on, and with it the interview that waits on it. -/
theorem Like.put (h : s.Like t) (horderly : s.Orderly errors)
    (hk : s.interviews[k]? = some ⟨ieee,.waiting c i next⟩) (htask : t'.task = s'.task)
    (hqueue : s'.Asks s'.queue.items t'.queue) (hinterviews : s'.interviews = s.interviews)
    (hcalls : ∀ j, j ≠ i → s'.calls[j]? = s.calls[j]?) (hadmitted : s.admitted <+: s'.admitted)
    (hspawned : t'.spawned = t.spawned.set k ⟨ieee,q⟩) (hq : s'.Ahead (.waiting c i next) q) :
    s'.Like t' := by
  refine ⟨htask,hqueue,?_,fun j ieee' p hj => ?_⟩
  · rw [hspawned,List.length_set,hinterviews]
    exact h.length
  · rw [hinterviews] at hj
    obtain ⟨old,hold,hahead⟩ := h.ahead j ieee' p hj
    rw [hspawned]
    by_cases hjk : k = j
    · subst hjk
      obtain ⟨rfl,rfl⟩ := Spawned.mk.inj (Option.some.inj (hk.symm.trans hj))
      refine ⟨q,?_,hq⟩
      rw [getElem?_set_of hold,if_pos rfl]
    · refine ⟨old,by rw [List.getElem?_set_ne hjk,hold],hahead.of (fun i' hi' => ?_) hadmitted⟩
      refine hcalls i' ?_
      rintro rfl
      exact hjk (horderly.eq_of_pending hk hj (List.mem_singleton_self _) hi')

/-- A turn of the loop is a turn of the loop. -/
theorem Like.turn (errors : ErrorText) (h : s.Like t) (input : Input E) :
    (s.turn errors input).Like (t.turn errors input) := by
  have htask : (t.turn errors input).task = (s.turn errors input).task :=
    congrArg (Task.step · input) h.task
  have hsame : t.spawned ++ (((s.task.step input).interviews.drop s.task.interviews.length).map
      fun i => ⟨i.1,.ready (Interview.run errors)⟩) = (t.turn errors input).spawned := by
    rw [← h.task]
    rfl
  refine ⟨htask,h.queue,?_,fun k ieee p hk => ?_⟩
  · rw [← hsame,List.length_append,h.length,← List.length_append]
    rfl
  · rw [← hsame]
    have hk' : (s.interviews ++ ((s.task.step input).interviews.drop
        s.task.interviews.length).map fun i => (⟨i.1,.ready (Interview.run errors)⟩ :
          Spawned))[k]? = some ⟨ieee,p⟩ := hk
    rcases Nat.lt_or_ge k s.interviews.length with hold | hnew
    · rw [List.getElem?_append_left hold] at hk'
      obtain ⟨q,hq,hahead⟩ := h.ahead k ieee p hk'
      refine ⟨q,?_,hahead.of (fun _ _ => rfl) List.prefix_rfl⟩
      rw [List.getElem?_append_left (h.length ▸ hold),hq]
    · rw [List.getElem?_append_right hnew] at hk'
      refine ⟨p,?_,?_⟩
      · rw [List.getElem?_append_right (h.length ▸ hnew),h.length,hk']
      · -- What begins is the same on both sides.
        obtain ⟨i,-,hi⟩ := List.mem_map.mp (List.mem_of_getElem? hk')
        obtain ⟨-,rfl⟩ := Spawned.mk.inj hi
        exact .ready _

end Moving

section Matching

variable {errors : ErrorText} {party : Party} {s s' : Session E}
  {t : Interviews E} {p q : Progress} {i k : ℕ} {ieee : Ieee} {c : Ask}
  {next : c.Response → Interview.Part InterviewOutcome} {request : Request E} {stage : Stage E}

/-- What an interview asks and the channel has not taken, it has not sent. -/
theorem Ahead.unsent (h : s.Ahead (.waiting c i next) q) (hinv : s.Inv)
    (hc : s.calls[i]? = some ⟨request,.offered⟩) : q = .ready (.ask c next) := by
  cases h with
  | offered _ => rfl
  | put _ hplace _ => exact absurd (List.mem_of_getElem? hplace) (hinv.stands i _ hc)
  | heard hd hr =>
    obtain rfl := Option.some.inj (hc.symm.trans hd)
    cases hr

/-- While the answer is out, it waits at the place of its request. -/
theorem Ahead.unanswered (h : s.Ahead (.waiting c i next) q)
    (hc : s.calls[i]? = some ⟨request,stage⟩) (hnone : c.heard stage = none)
    (hstage : stage ≠ .offered) :
    ∃ place, q = .waiting c place next ∧ s.admitted[place]? = some i := by
  cases h with
  | offered hd =>
    obtain ⟨-,rfl⟩ := Call.mk.inj (Option.some.inj (hc.symm.trans hd))
    exact absurd rfl hstage
  | put _ hplace _ => exact ⟨_,rfl,hplace⟩
  | heard hd hr =>
    obtain rfl := Option.some.inj (hc.symm.trans hd)
    rw [hnone] at hr
    cases hr

theorem Ahead.resumed {call : Call E} {response : c.Response}
    (h : s.Ahead (.waiting c i next) q) (hc : s.calls[i]? = some call)
    (hr : c.heard call.stage = some response) : q = .ready (next response) := by
  cases h with
  | offered hd =>
    obtain rfl := Option.some.inj (hc.symm.trans hd)
    cases hr
  | put hd _ hnone =>
    obtain rfl := Option.some.inj (hc.symm.trans hd)
    rw [hnone] at hr
    cases hr
  | heard hd hr' =>
    obtain rfl := Option.some.inj (hc.symm.trans hd)
    obtain rfl := Option.some.inj (hr.symm.trans hr')
    rfl

/-- A request that has been received stands at one place. -/
theorem Inv.place_eq (h : s.Inv) {place place' : ℕ} (hplace : s.served[place]? = some i)
    (hplace' : s.admitted[place']? = some i) : place' = place := by
  have hsame : s.admitted[place]? = some i := by
    rw [admitted,List.getElem?_append_left (List.getElem?_eq_some_iff.mp hplace).1]
    exact hplace
  have hlt := (List.getElem?_eq_some_iff.mp hplace').1
  exact (List.getElem?_inj hlt h.nodup).mp (hplace'.trans hsame.symm)

/-- What is still in the channel has no answer. -/
theorem Inv.repliesTo_queued (h : s.Inv) {place : ℕ} (hplace : s.admitted[place]? = some i)
    (hqueued : i ∈ s.queue.items) : s.task.repliesTo place = [] := by
  refine h.answerable.sound.unopened place (Nat.le_of_not_lt fun hlt => ?_)
  have hserved : s.served[place]? = some i := by
    rw [admitted,List.getElem?_append_left (h.length ▸ hlt)] at hplace
    exact hplace
  exact (List.nodup_append.mp h.nodup).2.2 i (List.mem_of_getElem? hserved) i hqueued rfl

theorem Sane.asked (h : s.Sane) (hk : s.interviews[k]? = some ⟨ieee,.waiting c i next⟩)
    (hc : s.calls[i]? = some ⟨request,stage⟩) : request = c.request ieee := by
  obtain ⟨stage',hi,-⟩ := h.tended _ (List.mem_of_getElem? hk) c i next rfl
  exact (Call.mk.inj (Option.some.inj (hc.symm.trans hi))).1

/-- A run on the unbounded queue comes to where the session is. -/
def Matched (errors : ErrorText) (s' : Session E) (t : Interviews E) : Prop :=
  ∃ acts, s'.Like (Runs.run (Interviews.step errors) t acts)

theorem exists_waiting (h : s.AwaitedBy i) : ∃ (k : ℕ) (ieee : Ieee) (c : Ask)
    (next : c.Response → Interview.Part InterviewOutcome),
    s.interviews[k]? = some ⟨ieee,.waiting c i next⟩ := by
  obtain ⟨⟨ieee,p⟩,ha,c,next,rfl⟩ := h
  obtain ⟨k,hk⟩ := List.mem_iff_getElem?.mp ha
  exact ⟨k,ieee,c,next,hk⟩

theorem put_calls (i : ℕ) (request : Request E) (stage : Stage E) (j : ℕ) (h : j ≠ i) :
    (s.put i request stage).calls[j]? = s.calls[j]? := List.getElem?_set_ne (Ne.symm h)

theorem put_calls_of_awaited (h : ¬ s.AwaitedBy i) (request : Request E) (stage : Stage E) (j : ℕ)
    (hj : s.AwaitedBy j) : (s.put i request stage).calls[j]? = s.calls[j]? := by
  refine put_calls i request stage j ?_
  rintro rfl
  exact h hj

theorem put_calls_self (hc : s.calls[i]? = some ⟨request,stage⟩) (stage' : Stage E) :
    (s.put i request stage').calls[i]? = some ⟨request,stage'⟩ := by
  rw [put,getElem?_set_of hc,if_pos rfl]

/-- What an interview waits on has been made. -/
theorem Tended.calls_append (h : s.Tended) (call : Call E) (i : ℕ) (hi : s.AwaitedBy i) :
    (s.calls ++ [call])[i]? = s.calls[i]? := by
  obtain ⟨a,ha,c,next,hwaiting⟩ := hi
  obtain ⟨stage,hc,-⟩ := h a ha c i next hwaiting
  exact List.getElem?_append_left (List.getElem?_eq_some_iff.mp hc).1

/-- A call is over: the interview that waits on it, if one does, takes a step and has heard. -/
theorem Like.hear (h : s.Like t) (hsane : s.Sane) (horderly : s.Orderly errors)
    (hextends : Extends party s (s.put i request stage)) {old : Stage E}
    (hc : s.calls[i]? = some ⟨request,old⟩)
    (hadvance : ∀ (k : ℕ) (ieee : Ieee) (c : Ask)
      (next : c.Response → Interview.Part InterviewOutcome) (q : Progress),
      t.spawned[k]? = some ⟨ieee,q⟩ → s.Ahead (.waiting c i next) q → request = c.request ieee →
      ∃ (response : c.Response) (dropped : Bool), c.heard stage = some response ∧
        t.advance k dropped = t.resume k ieee (.ready (next response))) :
    (s.put i request stage).Matched errors t := by
  by_cases hawaited : s.AwaitedBy i
  · obtain ⟨k,ieee,c,next,hk⟩ := exists_waiting hawaited
    obtain ⟨q,hq,hahead⟩ := h.ahead k ieee _ hk
    obtain ⟨response,dropped,hheard,hmove⟩ :=
      hadvance k ieee c next q hq hahead (hsane.asked hk hc)
    refine ⟨[.interview k dropped],?_⟩
    show Like _ (t.advance k dropped)
    rw [hmove]
    exact h.put horderly hk h.task (h.queue.mono hextends) rfl (put_calls i request stage)
      List.prefix_rfl rfl (.heard (put_calls_self hc stage) hheard)
  · exact ⟨[],h.of h.task (h.queue.mono hextends) rfl rfl
      (put_calls_of_awaited hawaited request stage) List.prefix_rfl⟩

/-- The channel takes a request, and the queue does. -/
theorem Like.accept (h : s.Like t) (hsane : s.Sane) (horderly : s.Orderly errors)
    (hc : s.calls[i]? = some ⟨request,.offered⟩) (hrun : s.task.stopped = false)
    (hstage : stage = if request.expects then .queued else .posted) (hroom : s.queue.Room)
    (hs : s' = { s.put i request stage with queue := s.queue.push i hroom })
    (hextends : Extends party s s') : s'.Matched errors t := by
  subst hs
  have hitems : (s.queue.push i hroom).items = s.queue.items ++ [i] := Channel.push_items _ i hroom
  have hadmitted : { s.put i request stage with queue := s.queue.push i hroom }.admitted =
      s.admitted ++ [i] := by
    rw [admitted,admitted,hitems,List.append_assoc]
    rfl
  have hprefix : s.admitted <+:
      { s.put i request stage with queue := s.queue.push i hroom }.admitted := by
    rw [hadmitted]
    exact List.prefix_append _ _
  have hself := put_calls_self hc stage
  have hqueue : { s.put i request stage with queue := s.queue.push i hroom }.Asks
      (s.queue.push i hroom).items (t.queue ++ [request]) := by
    rw [hitems]
    exact List.rel_append (h.queue.mono hextends) (.cons ⟨_,hself⟩ .nil)
  by_cases hawaited : s.AwaitedBy i
  · obtain ⟨k,ieee,c,next,hk⟩ := exists_waiting hawaited
    obtain ⟨q,hq,hahead⟩ := h.ahead k ieee _ hk
    obtain rfl := hahead.unsent hsane.inv hc
    obtain rfl := hsane.asked hk hc
    obtain ⟨htask,hsent,hspawned⟩ :=
      Interviews.advance_ask hq false (h.task ▸ hrun)
    refine ⟨[.interview k false],h.put horderly hk (htask.trans h.task) (hsent ▸ hqueue) rfl
      (put_calls i _ _) hprefix hspawned ?_⟩
    -- Its place is that of its request among all that the channel has taken.
    have hplace : (s.admitted ++ [i])[t.task.requests.length + t.queue.length]? = some i := by
      have hlength : t.task.requests.length + t.queue.length = s.admitted.length := by
        rw [h.task,← hsane.inv.length,← h.queue.length_eq,admitted,List.length_append]
      rw [hlength]
      exact List.getElem?_concat_length
    rw [← hadmitted] at hplace
    subst hstage
    cases c with
    | update u => exact .heard hself rfl
    | zdo cluster build => exact .put hself hplace rfl
    | zclRead endpoint cluster attributes => exact .put hself hplace rfl
  · exact ⟨[.send request],h.of h.task hqueue rfl rfl (put_calls_of_awaited hawaited request stage)
      hprefix⟩

/-- Out of the channel a request is where it was among all that it has taken. -/
theorem Ahead.received (h : s.Ahead p q) (hc : s.calls[i]? = some ⟨request,.queued⟩) (place : ℕ) :
    (s.put i request (.received place)).Ahead p q := by
  have hother {j : ℕ} {call : Call E} (hj : s.calls[j]? = some call)
      (hstage : call.stage ≠ .queued) :
      (s.put i request (.received place)).calls[j]? = some call := by
    refine (put_calls i request _ j ?_).trans hj
    rintro rfl
    obtain rfl := Option.some.inj (hc.symm.trans hj)
    exact hstage rfl
  cases h with
  | ready rest => exact .ready rest
  | offered h => exact .offered (hother h (by simp))
  | @put c j place' next call h hplace hnone =>
    by_cases hij : j = i
    · subst hij
      exact .put (put_calls_self hc _) hplace rfl
    · exact .put ((put_calls i request _ j hij).trans h) hplace hnone
  | heard h hr =>
    refine .heard (hother h ?_) hr
    intro hstage
    rw [hstage] at hr
    cases hr

/-- The oldest request in the channel is the oldest in the queue. -/
theorem Like.queue_eq (h : s.Like t) {rest : List ℕ} (hitems : s.queue.items = i::rest)
    (hc : s.calls[i]? = some ⟨request,stage⟩) :
    ∃ queue, t.queue = request::queue ∧ s.Asks rest queue := by
  have hasks := h.queue
  rw [hitems] at hasks
  generalize t.queue = whole at hasks
  cases hasks with
  | @cons _ request' _ queue hfirst hrest =>
    obtain ⟨stage',hfirst⟩ := hfirst
    obtain ⟨rfl,-⟩ := Call.mk.inj (Option.some.inj (hc.symm.trans hfirst))
    exact ⟨queue,rfl,hrest⟩

theorem Like.take (errors : ErrorText) (h : s.Like t) {rest : List ℕ} (env : ℕ → Env)
    (hitems : s.queue.items = i::rest) (hc : s.calls[i]? = some ⟨request,stage⟩) :
    (s.take errors i request env).Like (Interviews.step errors t (.receive env)) := by
  obtain ⟨queue,hqueue,hrest⟩ := h.queue_eq hitems hc
  have hmove : Interviews.step errors t (.receive env) =
      { t.turn errors (.request request env) with queue := queue } := by
    rw [Interviews.step,hqueue]
    rfl
  have htail : s.queue.tail.items = rest := by
    rw [Channel.tail_items,hitems,List.tail_cons]
  have hadmitted : (s.take errors i request env).admitted = s.admitted := by
    show (s.served ++ [i]) ++ s.queue.tail.items = s.served ++ s.queue.items
    rw [htail,hitems,List.append_assoc]
    rfl
  have hsame : (s.turn errors (.request request env)).admitted <+:
      (s.take errors i request env).admitted := by
    rw [hadmitted]
    exact List.prefix_rfl
  have hturn := h.turn errors (.request request env)
  rw [hmove]
  refine hturn.of hturn.task ?_ rfl rfl (fun _ _ => rfl) hsame
  show s.Asks s.queue.tail.items queue
  rw [htail]
  exact hrest

/-- The loop receives the oldest request, and so does the other; of one given up it is told next. -/
theorem Like.receive (h : s.Like t) {rest : List ℕ} {call : Call E} (env : ℕ → Env)
    (hitems : s.queue.items = i::rest) (hc : s.calls[i]? = some call) :
    (s.receive errors i call env).Matched errors t := by
  obtain ⟨request,stage⟩ := call
  have htaken := h.take errors env hitems hc
  have hthere : (s.take errors i request env).calls[i]? = some ⟨request,stage⟩ := hc
  unfold Session.receive
  dsimp only
  split
  · have hput : Extends .runtime (s.take errors i request env) ((s.take errors i request env).put i
        request (.received s.task.requests.length)) :=
      .put hthere rfl List.prefix_rfl (by simp) (by simp)
    refine ⟨[.receive env],htaken.task,htaken.queue.mono hput,htaken.length,fun k ieee p hk => ?_⟩
    obtain ⟨q,hq,hahead⟩ := htaken.ahead k ieee p hk
    exact ⟨q,hq,hahead.received hthere _⟩
  · exact ⟨[.receive env,.wake (.abandon s.task.requests.length) rfl],htaken.turn errors _⟩
  · exact ⟨[.receive env],htaken⟩

/-- Whatever step a session takes, the loop and the interviews on the unbounded queue keep up. -/
theorem Like.step (h : s.Like t) (hsane : s.Sane) (horderly : s.Orderly errors) {holds : Prop}
    (hstep : Step errors holds party s s') : s'.Matched errors t := by
  have hinv := hsane.inv
  have hextends := hstep.extends
  have hinv' := hinv.step errors hstep
  have hturn {input : Input E} (hinput : input.isRequest = false) :
      (s.turn errors input).Matched errors t := ⟨[.wake input hinput],h.turn errors input⟩
  cases hstep with
  | clone hheld =>
    exact ⟨[],h.of h.task h.queue rfl rfl (fun _ _ => rfl) List.prefix_rfl⟩
  | drop hheld =>
    exact ⟨[],h.of h.task h.queue rfl rfl (fun _ _ => rfl) List.prefix_rfl⟩
  | @call _ request hheld hpublic =>
    exact ⟨[],h.of h.task (h.queue.mono hextends) rfl rfl (hsane.tended.calls_append _)
      List.prefix_rfl⟩
  | accept hc hrun hroom =>
    exact h.accept hsane horderly hc hrun rfl hroom rfl hextends
  | @refuse _ i request hc hstopped =>
    refine h.hear hsane horderly hextends hc fun k ieee c next q hq hahead _ => ?_
    obtain rfl := hahead.unsent hinv hc
    exact ⟨_,false,rfl,Interviews.advance_refused hq false (h.task ▸ hstopped)⟩
  | @lose _ i request hc hstopped =>
    refine h.hear hsane horderly hextends hc fun k ieee c next q hq hahead _ => ?_
    obtain ⟨place,rfl,hplace⟩ := hahead.unanswered hc rfl (by simp)
    have hnone : t.task.repliesTo place = [] := by
      rw [h.task]
      exact hinv.repliesTo_queued hplace (hinv.stands i _ hc).2
    exact ⟨_,false,rfl,Interviews.advance_forsaken hq hnone (by rw [h.task,hstopped]; rfl)⟩
  | receive env hitems hc hrun => exact h.receive env hitems hc
  | @answer _ i place request a hc ha =>
    refine h.hear hsane horderly hextends hc fun k ieee c next q hq hahead hrequest => ?_
    obtain ⟨place',rfl,hplace⟩ := hahead.unanswered hc rfl (by simp)
    obtain rfl := hinv.place_eq (hinv.stands i _ hc).2 hplace
    subst hrequest
    obtain ⟨response,hr⟩ := heard_returned hinv' (put_calls_self hc _)
    exact ⟨response,false,hr,Interviews.advance_answered hq false (h.task ▸ ha) hr⟩
  | @report _ i place k request ieee result hc hk hover =>
    refine h.hear hsane horderly hextends hc fun j a c next q hq hahead hrequest => ?_
    subst hrequest
    exact absurd hk (not_spawned_of_ask hinv hc)
  | @orphan _ i place request hc hnone hdropped =>
    refine h.hear hsane horderly hextends hc fun k ieee c next q hq hahead _ => ?_
    obtain ⟨place',rfl,hplace⟩ := hahead.unanswered hc rfl (by simp)
    have hsame := hinv.place_eq (hinv.stands i _ hc).2 hplace
    rw [← hsame,← h.task] at hnone
    exact ⟨_,true,rfl,Interviews.advance_forsaken hq hnone (Bool.or_true _)⟩
  | @cancel _ i request hc hawaited =>
    exact ⟨[],h.of h.task (h.queue.mono hextends) rfl rfl
      (put_calls_of_awaited hawaited request .gone) List.prefix_rfl⟩
  | @abandon _ i place request hc hawaited =>
    -- Its turn changes no call.
    have hasks : (s.put i request .gone).Asks s.queue.items t.queue :=
      show ((s.put i request .gone).turn errors (.abandon place)).Asks _ _ from
        h.queue.mono hextends
    have hput : (s.put i request .gone).Like t := h.of h.task hasks rfl rfl
      (put_calls_of_awaited hawaited request .gone) List.prefix_rfl
    exact ⟨[.wake (.abandon place) rfl],hput.turn errors _⟩
  | event event origin env _ => exact hturn rfl
  | tick env _ => exact hturn rfl
  | unplug env _ _ => exact hturn rfl
  | close env _ _ _ => exact hturn rfl
  | @begin _ k ieee c next hk =>
    refine ⟨[],h.own hk h.task (h.queue.mono hextends) rfl (fun q hq => ?_)
      (hsane.tended.calls_append _) List.prefix_rfl⟩
    cases hq
    exact .offered List.getElem?_concat_length
  | @resume _ k i ieee c next call response hk hi hr =>
    refine ⟨[],h.own hk h.task h.queue rfl (fun q hq => ?_) (fun _ _ => rfl) List.prefix_rfl⟩
    obtain rfl := hq.resumed hi hr
    exact .ready _

theorem like_start (config : TaskConfig E) (env : Env) :
    (start config env).Like (.start config env) :=
  ⟨rfl,.nil,rfl,fun _ _ _ hk => by cases hk⟩

end Matching

end Session

namespace Interviews

section Runs

variable (errors : ErrorText)

/-- Interviews of one device stay apart, in progress and in what they ask it, exactly when each
is started with no other of the device in progress. What a session does, through its channel of
sixty-four requests, is among the runs. -/
theorem apart_iff_startsAlone (config : TaskConfig E) (env : Env) :
    (∀ acts : List (Act E),
      (∀ pre, pre <+: acts → (Runs.run (step errors) (start config env) pre).Apart) ↔
        Runs.Meets (step errors) StartsAlone (start config env) acts) ∧
    ∀ (holds : Prop) (s : Session E), Relation.ReflTransGen
      (fun s s' => ∃ party, Session.Step errors holds party s s') (.start config env) s →
      ∃ acts, s.Like (Runs.run (step errors) (start config env) acts) := by
  refine ⟨fun acts => ?_,fun holds s hrun => ?_⟩
  · have hall := ordered_iff_startsAlone errors config env acts
    constructor
    · intro h
      rw [Runs.meets_iff]
      intro pre a post he
      have hpre : pre ++ [a] <+: acts := ⟨post,by rw [he,List.append_assoc]; rfl⟩
      have happart := h _ hpre
      rw [Runs.run_concat] at happart
      exact startsAlone_of_apart errors happart
    · intro h pre hpre
      exact (hall.mpr h pre hpre).apart
  · have hstart : Session.Reachable errors holds (.start config env) := .start config env
    have hmatched := Runs.exists_run_of_simulation (step errors)
      (J := fun s => s.Sane ∧ s.Orderly errors) (R := Session.Like)
      (fun s s' h hnext => by
        obtain ⟨party,hstep⟩ := hnext
        exact ⟨h.1.step hstep,h.2.step h.1 hstep⟩)
      (fun s s' t h hlike hnext => by
        obtain ⟨party,hstep⟩ := hnext
        exact hlike.step h.1 h.2 hstep)
      ⟨hstart.sane,hstart.orderly⟩ (Session.like_start config env) hrun
    exact hmatched.2

end Runs

section Overlap

/-- Two callers ask for an interview of the same device. -/
def twoCallers : List (Act Engine.bare) :=
  let unheard : ℕ → Env := fun _ => { sendZdo := .error .notConnected }
  [.wake (Task.joins ⟨1⟩ ⟨2⟩) rfl,.send (.interview ⟨1⟩),.send (.interview ⟨1⟩),
    .receive unheard,.receive unheard,
    -- Both begin, and ask for the node descriptor.
    .interview 0 false,.interview 0 false,.interview 1 false,.interview 1 false,
    -- The first one's request is refused, so it goes on to ask for the endpoints.
    .receive unheard,.receive unheard,.interview 0 false,.interview 0 false,.interview 0 false]

/-- Their interviews run at once, and one asks between two questions of the other. -/
theorem two_interviews_at_once :
    (Runs.run (step ⟨fun _ => "",fun _ => ""⟩) { task := Task.fresh } twoCallers).asked =
      [(⟨1⟩,0),(⟨1⟩,1),(⟨1⟩,0)] ∧
    ¬ (Runs.run (step ⟨fun _ => "",fun _ => ""⟩) { task := Task.fresh } twoCallers).Apart := by
  have hasked : (Runs.run (step ⟨fun _ => "",fun _ => ""⟩) { task := Task.fresh }
      twoCallers).asked = [(⟨1⟩,0),(⟨1⟩,1),(⟨1⟩,0)] := by
    rw [Task.fresh_eq]
    rfl
  refine ⟨hasked,fun h => ?_⟩
  have hsame := h.contiguous 0 1 2 ⟨1⟩ 1 0 (by decide) (by decide)
  rw [hasked] at hsame
  exact absurd (hsame rfl rfl rfl) (by decide)

end Overlap

end Interviews
end Rszigbee
