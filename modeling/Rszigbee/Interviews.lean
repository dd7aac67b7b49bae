import Rszigbee.Interview
import Rszigbee.Moves
import Rszigbee.Runs

/-! Interviews as tasks beside the loop.
They talk to it through the same channel as every handle: what is sent is received in
order, and a sender goes on when its answer is in. -/
namespace Rszigbee

section Spawning

namespace View

variable {E : Engine}

/-- What of an entry neither marks nor verdicts touch is the same after a path. -/
theorem kept_path {allowed : Ieee → Mark → Prop} {α : Type} {g : Entry → α}
    (hmark : ∀ m e, g (Mark.write m e) = g e) (hverdict : ∀ a e, g (Assessment.write a e) = g e)
    {v v' : View E} (hpath : Path allowed v v') (i : Ieee) :
    (v'.devices.get i).map g = (v.devices.get i).map g := by
  refine hpath.invariant (P := fun w => (w.devices.get i).map g = (v.devices.get i).map g)
    (fun w w' hlast ih => ?_) rfl
  rw [← ih]
  cases hlast with
  | mark _ => exact Inventory.map_get_modify _ _ _ (hmark _)
  | @assess ieee e _ a evidence =>
    have hwrite : ((w.modify ieee a.write).devices.get i).map g = (w.devices.get i).map g :=
      Inventory.map_get_modify _ _ _ (hverdict a)
    rw [assess]
    split
    · exact hwrite
    · exact hwrite
  | note _ => rfl

theorem interviews_path {allowed : Ieee → Mark → Prop} {v v' : View E} (hpath : Path allowed v v') :
    v'.interviews = v.interviews ∧ v'.interviewOnJoin = v.interviewOnJoin := by
  refine hpath.invariant (P := fun w => w.interviews = v.interviews ∧
    w.interviewOnJoin = v.interviewOnJoin) (fun w w' hlast ih => ?_) ⟨rfl,rfl⟩
  cases hlast with
  | mark _ => exact ih
  | assess _ a evidence =>
    rw [assess]
    split
    · exact ih
    · exact ih
  | note _ => exact ih

theorem interviews_rewrites {answers : WriteAnswer → Prop} {ieee : Ieee} {v v' : View E}
    (h : Rewrites answers ieee v v') : v'.interviews = v.interviews := by
  refine h.invariant (P := fun w => w.interviews = v.interviews) (fun w w' hlast ih => ?_) rfl
  cases hlast with
  | edit _ _ =>
    rw [persist_interviews]
    exact ih
  | note _ => exact ih

theorem readdress_interviews (v : View E) (ieee : Ieee) (nwk : Nwk) :
    (v.readdress ieee nwk).interviews = v.interviews ∧
      (v.readdress ieee nwk).interviewOnJoin = v.interviewOnJoin := by
  rw [readdress]
  generalize v.devices.setNwk ieee nwk = moved
  obtain ⟨devices,previous⟩ := moved
  cases previous <;> exact ⟨rfl,rfl⟩

theorem arrive_interviews (v : View E) (ieee : Ieee) (nwk : Nwk) (wall : SystemTime) :
    (v.arrive ieee nwk wall).interviews = v.interviews ∧
      (v.arrive ieee nwk wall).interviewOnJoin = v.interviewOnJoin := by
  rw [arrive]
  split
  · exact readdress_interviews v ieee nwk
  · exact ⟨rfl,rfl⟩

/-- How far a device's interview got does not depend on its announcing itself. -/
theorem arrive_interview (v : View E) (ieee : Ieee) (nwk : Nwk) (wall : SystemTime) :
    ((v.arrive ieee nwk wall).devices.get ieee).map (·.info.interview) =
      some (((v.devices.get ieee).map (·.info.interview)).getD .pending) := by
  rw [arrive]
  cases hg : v.devices.get ieee with
  | none =>
    have hget : (v.enrol ieee nwk wall).devices.get ieee = some (newEntry ieee nwk wall) := by
      show (v.devices.insert (newEntry ieee nwk wall)).get ieee = _
      rw [Inventory.insert_get]
      exact if_pos rfl
    rw [if_neg (by simp),hget]
    rfl
  | some e =>
    have hget := readdress_get v ieee nwk ieee
    rw [if_pos rfl,hg] at hget
    rw [if_pos (by simp)]
    show ((v.readdress ieee nwk).devices.get ieee).map (·.info.interview) = _
    rw [hget]
    rfl

end View

namespace Task

open View

variable {E : Engine}

/-- The interview a turn starts, with who waits for its outcome. -/
def spawns (t : Task E) : Input E → Option (Ieee × Option ℕ)
  | .request (.interview ieee) _ =>
    if (t.devices.get ieee).isSome then some (ieee,some t.requests.length) else none
  | .event (.deviceJoined ieee nwk) _ _ =>
    (ieee <|> t.devices.resolve nwk).bind fun a =>
      if t.interviewOnJoin ∧ (t.devices.get a).all (·.info.interview ≠ .successful) then
        some (a,none)
      else none
  | _ => none

theorem spawns_of_subject {t : Task E} {i : Input E} (h : t.subject i = none) :
    t.spawns i = none := by
  cases i with
  | request request env =>
    cases request with
    | interview ieee =>
      by_cases hknown : (t.devices.get ieee).isSome = true
      · simp [subject,hknown] at h
      · exact if_neg hknown
    | _ => rfl
  | event event origin env =>
    cases event with
    | deviceJoined ieee nwk =>
      have hnone : (ieee <|> t.devices.resolve nwk) = none := h
      rw [spawns,hnone]
      rfl
    | _ => rfl
  | _ => rfl

/-- The interviews after a turn: those before it, and the one it starts. -/
theorem interviews_step {t : Task E} (h : t.stopped = false) (i : Input E) :
    (t.step i).interviews = t.interviews ++ (t.spawns i).toList := by
  have hmove := move h i
  show (t.step i).view.interviews = _
  generalize (t.step i).view = v at hmove
  cases hmove with
  | aside hi hpath =>
    have hspawns := spawns_of_subject hi
    rw [hspawns,Option.toList_none,List.append_nil]
    exact (interviews_path hpath).1
  | @joined ieee nwk origin env a w ha hpath =>
    have hkept := interviews_path hpath
    have harrive := arrive_interviews t.view a nwk (env 0).wall
    have hstate : (w.devices.get a).map (·.info.interview) =
        some (((t.devices.get a).map (·.info.interview)).getD .pending) := by
      have hpathed := kept_path (g := fun e => e.info.interview)
        (fun m e => by cases m <;> rfl) (fun _ _ => rfl) hpath a
      exact hpathed.trans (arrive_interview t.view a nwk _)
    have hneeds : (w.devices.get a).any (·.info.interview ≠ .successful) =
        (t.devices.get a).all (·.info.interview ≠ .successful) := by
      obtain ⟨e,he,hinterview⟩ := Option.map_eq_some_iff.mp hstate
      rw [he,Option.any_some,hinterview]
      cases t.devices.get a <;> rfl
    have hjoin : w.interviewOnJoin = t.interviewOnJoin := hkept.2.trans harrive.2
    have hinterviews : w.interviews = t.interviews := hkept.1.trans harrive.1
    rw [spawns,ha,Option.bind_some,invite,persist_devices,persist_interviewOnJoin,hjoin,hneeds]
    split
    · show (w.persist a _).interviews ++ [(a,none)] = _
      rw [persist_interviews,hinterviews]
      rfl
    · rw [persist_interviews,hinterviews]
      simp
  | left _ => exact (List.append_nil _).symm
  | @frame rx _ _ a _ _ hpath =>
    show v.interviews = t.interviews ++ (none : Option (Ieee × Option ℕ)).toList
    rw [Option.toList_none,List.append_nil,(interviews_path hpath).1]
    exact (readdress_interviews t.view a rx.nwk).1
  | interview hknown =>
    rw [spawns,if_pos hknown]
    rfl
  | update _ _ hrewrites =>
    show v.interviews = t.interviews ++ (none : Option (Ieee × Option ℕ)).toList
    rw [Option.toList_none,List.append_nil,interviews_rewrites hrewrites,persist_interviews]
    rfl

end Task

end Spawning

section Channel

variable {E : Engine}

namespace Interview.Ask

def request (ieee : Ieee) : Ask → Request E
  | update u => .interviewUpdate ieee u
  | zdo cluster build => .zdo ieee cluster build
  | zclRead endpoint cluster attributes => .zclRead ieee endpoint cluster attributes

/-- The device is asked, and its answer is waited for. -/
def isQuestion : Ask → Bool
  | update _ => false
  | _ => true

/-- What comes back at once: an update needs no answer. -/
def handedOver : (c : Ask) → Option c.Payload
  | update _ => some ()
  | zdo _ _ => none
  | zclRead _ _ _ => none

/-- What comes back on the reply channel. -/
def received : (c : Ask) → Reply E → Option c.Response
  | zdo _ _, .zdo result => some result
  | zclRead _ _ _, .zclRead result => some result
  | _, _ => none

end Interview.Ask

open Interview (Ask ErrorText)

/-- Where an interview stands: at its next request, or waiting on a reply channel. -/
inductive Progress
  | ready (rest : Interview.Part InterviewOutcome)
  | waiting (c : Ask) (reply : ℕ) (next : c.Response → Interview.Part InterviewOutcome)

def Progress.isOver : Progress → Bool
  | ready (.done _) => true
  | _ => false

structure Spawned where
  ieee : Ieee
  progress : Progress

/-- The loop, the channel to it and the interviews, in the order they were spawned. Every
question to a device is logged with the interview that sent it. -/
structure Interviews (E : Engine) where
  task : Task E
  queue : List (Request E) := []
  spawned : List Spawned := []
  asked : List (Ieee × ℕ) := []

def Input.isRequest : Input E → Bool
  | .request _ _ => true
  | _ => false

/-- One step of one party: a handle sends, the loop receives or wakes up for something else,
or an interview goes on, where `dropped` tells that the other end of its reply channel is gone. -/
inductive Act (E : Engine)
  | send (request : Request E)
  | receive (env : ℕ → Env)
  | wake (input : Input E) (h : input.isRequest = false)
  | interview (k : ℕ) (dropped : Bool)

namespace Interviews

def start (config : TaskConfig E) (env : Env) : Interviews E where
  task := Task.start config env

def send (s : Interviews E) (request : Request E) : Interviews E :=
  { s with queue := s.queue ++ [request] }

def resume (s : Interviews E) (k : ℕ) (ieee : Ieee) (progress : Progress) : Interviews E :=
  { s with spawned := s.spawned.set k ⟨ieee,progress⟩ }

/-- Sends what an interview asks next; a stopped loop refuses everything. -/
def ask (s : Interviews E) (k : ℕ) (ieee : Ieee) (c : Ask)
    (next : c.Response → Interview.Part InterviewOutcome) : Interviews E :=
  if s.task.stopped then s.resume k ieee (.ready (next (.error .stopped)))
  else
    -- The reply channel of a request is its place among all that are received.
    let reply := s.task.requests.length + s.queue.length
    let s := s.send (c.request ieee)
    let s := if c.isQuestion then { s with asked := s.asked ++ [(ieee,k)] } else s
    match c.handedOver with
    | some payload => s.resume k ieee (.ready (next (.ok payload)))
    | none => s.resume k ieee (.waiting c reply next)

/-- Picks up an answer; a loop that stopped without one has dropped the channel. -/
def await (s : Interviews E) (k : ℕ) (dropped : Bool) (ieee : Ieee) (c : Ask) (reply : ℕ)
    (next : c.Response → Interview.Part InterviewOutcome) : Interviews E :=
  match (s.task.replies.find? fun a => a.id = reply).bind fun a => c.received a.reply with
  | some response => s.resume k ieee (.ready (next response))
  | none =>
    if s.task.stopped || dropped then s.resume k ieee (.ready (next (.error .stopped))) else s

def advance (s : Interviews E) (k : ℕ) (dropped : Bool) : Interviews E :=
  match s.spawned[k]? with
  | some ⟨ieee,.ready (.ask c next)⟩ => s.ask k ieee c next
  | some ⟨ieee,.waiting c reply next⟩ => s.await k dropped ieee c reply next
  | _ => s

variable (errors : ErrorText)

/-- A turn of the loop; what it spawned begins. -/
def turn (s : Interviews E) (input : Input E) : Interviews E :=
  let task := s.task.step input
  { s with
    task := task
    spawned := s.spawned ++ (task.interviews.drop s.task.interviews.length).map fun i =>
      ⟨i.1,.ready (Interview.run errors)⟩ }

def step (s : Interviews E) : Act E → Interviews E
  | .send request => s.send request
  | .receive env =>
    match s.queue with
    | [] => s
    | request::rest => { s with queue := rest }.turn errors (.request request env)
  | .wake input _ => s.turn errors input
  | .interview k dropped => s.advance k dropped

/-- The device an interview of which a step starts: a known one whose interview is asked for,
or one that announces itself and is not on record as interviewed. -/
def starts (s : Interviews E) (a : Act E) : Option Ieee :=
  if s.task.stopped then none
  else
    match a with
    | .receive env => (s.queue.head?.bind fun request =>
        s.task.spawns (.request request env)).map Prod.fst
    | .wake input _ => (s.task.spawns input).map Prod.fst
    | _ => none

/-- Every interview of the device is over. -/
def Quiet (s : Interviews E) (ieee : Ieee) : Prop :=
  ∀ a ∈ s.spawned, a.ieee = ieee → a.progress.isOver = true

/-- A step that starts an interview does so when no other of the device is in progress. -/
def StartsAlone (s : Interviews E) (a : Act E) : Prop :=
  ∀ ieee, s.starts a = some ieee → s.Quiet ieee

/-- Of two interviews of one device at most one is in progress, and between two questions of
one interview no other asks the device anything. -/
structure Apart (s : Interviews E) : Prop where
  once : ∀ (j k : ℕ) (a b : Spawned), j < k → s.spawned[j]? = some a → s.spawned[k]? = some b →
    a.ieee = b.ieee → a.progress.isOver = true ∨ b.progress.isOver = true
  contiguous : ∀ (p q r : ℕ) (ieee : Ieee) (j k : ℕ), p < q → q < r →
    s.asked[p]? = some (ieee,k) → s.asked[q]? = some (ieee,j) → s.asked[r]? = some (ieee,k) →
    j = k

section Steps

/-- An interview's step is its own: it may send, and ask its device. -/
theorem advance_cases (s : Interviews E) (k : ℕ) (dropped : Bool) :
    s.advance k dropped = s ∨ ∃ a progress queue log, s.spawned[k]? = some a ∧
      a.progress.isOver = false ∧ (log = [] ∨ log = [(a.ieee,k)]) ∧ s.advance k dropped = { s with
        queue := queue
        spawned := s.spawned.set k ⟨a.ieee,progress⟩
        asked := s.asked ++ log } := by
  have hresume (s : Interviews E) (a : Spawned) (progress : Progress) :
      s.resume k a.ieee progress = { s with
        queue := s.queue
        spawned := s.spawned.set k ⟨a.ieee,progress⟩
        asked := s.asked ++ [] } := by
    rw [resume,List.append_nil]
  rw [advance]
  split
  · rename_i ieee c next hk
    refine .inr ?_
    rw [ask]
    split
    · exact ⟨_,_,_,[],hk,rfl,.inl rfl,hresume s ⟨ieee,_⟩ _⟩
    · cases c with
      | update u =>
        exact ⟨_,_,_,[],hk,rfl,.inl rfl,hresume (s.send (.interviewUpdate ieee u)) ⟨ieee,_⟩ _⟩
      | zdo cluster build => exact ⟨_,_,_,[(ieee,k)],hk,rfl,.inr rfl,rfl⟩
      | zclRead endpoint cluster attributes => exact ⟨_,_,_,[(ieee,k)],hk,rfl,.inr rfl,rfl⟩
  · rename_i ieee c reply next hk
    rw [await]
    split
    · exact .inr ⟨_,_,_,[],hk,rfl,.inl rfl,hresume s ⟨ieee,_⟩ _⟩
    · split
      · exact .inr ⟨_,_,_,[],hk,rfl,.inl rfl,hresume s ⟨ieee,_⟩ _⟩
      · exact .inl rfl
  · exact .inl rfl

def begun (ieee : Ieee) : Spawned := ⟨ieee,.ready (Interview.run errors)⟩

/-- A turn adds the interview it starts, and asks nothing. -/
theorem turn_spawned (s : Interviews E) (input : Input E) :
    (s.turn errors input).spawned = s.spawned ++ ((if s.task.stopped then none
      else s.task.spawns input).map fun i => begun errors i.1).toList := by
  have hdrop : (s.task.step input).interviews.drop s.task.interviews.length =
      (if s.task.stopped then none else s.task.spawns input).toList := by
    by_cases hstopped : s.task.stopped = true
    · rw [Task.step_stopped hstopped,if_pos hstopped]
      simp
    · rw [Task.interviews_step (by simpa using hstopped),if_neg hstopped,List.drop_left]
  show s.spawned ++ _ = _
  rw [hdrop,Option.toList_map]
  rfl

/-- What a step of anyone but an interview does to the interviews. -/
theorem step_spawned (s : Interviews E) {a : Act E}
    (ha : ∀ k dropped, a ≠ .interview k dropped) :
    (s.step errors a).asked = s.asked ∧ (s.step errors a).spawned =
      s.spawned ++ ((s.starts a).map (begun errors)).toList := by
  cases a with
  | send request =>
    refine ⟨rfl,?_⟩
    have hstarts : s.starts (.send request) = none := ite_self _
    rw [hstarts]
    exact (List.append_nil _).symm
  | receive env =>
    rw [step]
    cases hq : s.queue with
    | nil =>
      have hstarts : s.starts (.receive env) = none := by
        rw [starts,hq]
        split <;> rfl
      rw [hstarts]
      exact ⟨rfl,(List.append_nil _).symm⟩
    | cons request rest =>
      refine ⟨rfl,?_⟩
      rw [turn_spawned,starts,hq]
      congr 2
      by_cases hstopped : s.task.stopped = true
      · rw [if_pos hstopped,if_pos hstopped]
        rfl
      · rw [if_neg hstopped,if_neg hstopped,Option.map_map]
        rfl
  | wake input h =>
    refine ⟨rfl,?_⟩
    rw [step,turn_spawned,starts]
    congr 2
    by_cases hstopped : s.task.stopped = true
    · rw [if_pos hstopped,if_pos hstopped]
      rfl
    · rw [if_neg hstopped,if_neg hstopped,Option.map_map]
      rfl
  | interview k dropped => exact absurd rfl (ha k dropped)

end Steps

section Order

/-- Only the newest interview of a device may still be in progress, and no question to it is
older than one of an earlier interview. -/
structure Ordered (s : Interviews E) : Prop where
  settled : ∀ (j k : ℕ) (a b : Spawned), j < k → s.spawned[j]? = some a → s.spawned[k]? = some b →
    a.ieee = b.ieee → a.progress.isOver = true
  sorted : s.asked.Pairwise fun x y => x.1 = y.1 → x.2 ≤ y.2

/-- Every question on the log was sent by an interview of its device. -/
def Logged (s : Interviews E) : Prop :=
  ∀ x ∈ s.asked, (s.spawned[x.2]?).map Spawned.ieee = some x.1

theorem logged_step (s : Interviews E) (a : Act E) (h : s.Logged) : (s.step errors a).Logged := by
  by_cases ha : ∃ k dropped, a = .interview k dropped
  · obtain ⟨k,dropped,rfl⟩ := ha
    show (s.advance k dropped).Logged
    rcases s.advance_cases k dropped with heq | ⟨b,progress,queue,log,hk,_,hlog,heq⟩
    · rw [heq]
      exact h
    · rw [heq]
      intro x hx
      have hkept : ((s.spawned.set k ⟨b.ieee,progress⟩)[x.2]?).map Spawned.ieee =
          (s.spawned[x.2]?).map Spawned.ieee := by
        rw [List.getElem?_set']
        by_cases hkx : k = x.2
        · rw [if_pos hkx,← hkx,hk]
          rfl
        · rw [if_neg hkx]
      show Option.map Spawned.ieee _ = _
      rw [hkept]
      rcases List.mem_append.mp hx with hx | hx
      · exact h x hx
      · rcases hlog with rfl | rfl
        · simp at hx
        · rw [List.mem_singleton] at hx
          rw [hx,hk]
          rfl
  · have hstep := s.step_spawned errors fun k dropped hk => ha ⟨k,dropped,hk⟩
    intro x hx
    rw [hstep.1] at hx
    have hold := h x hx
    obtain ⟨b,hb,_⟩ := Option.map_eq_some_iff.mp hold
    have hlt : x.2 < s.spawned.length := (List.getElem?_eq_some_iff.mp hb).1
    rw [hstep.2,List.getElem?_append_left hlt]
    exact hold

/-- A step of an interview keeps the order: it is the newest of its device. -/
theorem ordered_advance (s : Interviews E) (k : ℕ) (dropped : Bool) (hlogged : s.Logged)
    (h : s.Ordered) : (s.advance k dropped).Ordered := by
  rcases s.advance_cases k dropped with heq | ⟨c,progress,queue,log,hk,hbusy,hlog,heq⟩
  · rw [heq]
    exact h
  · rw [heq]
    have hnewest (j : ℕ) (b : Spawned) (hj : k < j) (hb : s.spawned[j]? = some b) :
        c.ieee ≠ b.ieee := by
      intro he
      have hover := h.settled k j c b hj hk hb he
      rw [hover] at hbusy
      exact absurd hbusy (by decide)
    refine ⟨fun j j' a b hlt ha hb he => ?_,?_⟩
    · rw [List.getElem?_set'] at ha hb
      by_cases hj : k = j
      · rw [if_pos hj,← hj,hk] at ha
        rw [if_neg (by omega)] at hb
        obtain rfl := Option.some.inj ha
        exact absurd he (hnewest j' b (by omega) hb)
      · rw [if_neg hj] at ha
        by_cases hj' : k = j'
        · rw [if_pos hj',← hj',hk] at hb
          obtain rfl := Option.some.inj hb
          exact h.settled j k a c (by omega) ha hk he
        · rw [if_neg hj'] at hb
          exact h.settled j j' a b hlt ha hb he
    · rcases hlog with rfl | rfl
      · rw [List.append_nil]
        exact h.sorted
      · refine List.pairwise_append.mpr
          ⟨h.sorted,List.pairwise_singleton _ _,fun x hx y hy hxy => ?_⟩
        obtain rfl := List.mem_singleton.mp hy
        have hx' := hlogged x hx
        obtain ⟨b,hb,hieee⟩ := Option.map_eq_some_iff.mp hx'
        have hnot : ¬ k < x.2 := fun hlt => hnewest x.2 b hlt hb (hieee.trans hxy).symm
        exact Nat.le_of_not_lt hnot

/-- And a step of anyone else does exactly when an interview it starts is alone. -/
theorem ordered_step (s : Interviews E) (a : Act E) (hlogged : s.Logged) (h : s.Ordered) :
    (s.step errors a).Ordered ↔ s.StartsAlone a := by
  by_cases ha : ∃ k dropped, a = .interview k dropped
  · obtain ⟨k,dropped,rfl⟩ := ha
    have hstarts : s.starts (.interview k dropped) = none := ite_self _
    refine ⟨fun _ ieee hieee => ?_,fun _ => s.ordered_advance k dropped hlogged h⟩
    rw [hstarts] at hieee
    exact absurd hieee (by simp)
  · have hstep := s.step_spawned errors fun k dropped hk => ha ⟨k,dropped,hk⟩
    constructor
    · intro hordered ieee hieee b hb he
      obtain ⟨j,hlt,hj⟩ := List.mem_iff_getElem.mp hb
      have hspawned := hstep.2
      rw [hieee] at hspawned
      refine hordered.settled j s.spawned.length b (begun errors ieee) hlt ?_ ?_ he
      · rw [hspawned,List.getElem?_append_left hlt,List.getElem?_eq_getElem hlt,hj]
      · rw [hspawned]
        exact List.getElem?_concat_length
    · intro halone
      refine ⟨fun j k b c hlt hb hc he => ?_,by rw [hstep.1]; exact h.sorted⟩
      rw [hstep.2] at hb hc
      cases hstarts : s.starts a with
      | none =>
        rw [hstarts] at hb hc
        simp only [Option.map_none,Option.toList_none,List.append_nil] at hb hc
        exact h.settled j k b c hlt hb hc he
      | some ieee =>
        rw [hstarts] at hb hc
        change (s.spawned ++ [begun errors ieee])[j]? = _ at hb
        change (s.spawned ++ [begun errors ieee])[k]? = _ at hc
        rw [getElem?_concat] at hb hc
        by_cases hk : k = s.spawned.length
        · rw [if_neg (by omega)] at hb
          rw [if_pos hk] at hc
          obtain rfl := Option.some.inj hc
          exact halone ieee hstarts b (List.mem_of_getElem? hb) he
        · rw [if_neg hk] at hc
          have hlt' : k < s.spawned.length := (List.getElem?_eq_some_iff.mp hc).1
          rw [if_neg (by omega)] at hb
          exact h.settled j k b c hlt hb hc he

theorem Ordered.apart {s : Interviews E} (h : s.Ordered) : s.Apart where
  once j k a b hlt ha hb he := .inl (h.settled j k a b hlt ha hb he)
  contiguous p q r ieee j k hpq hqr hp hq hr := by
    have hle (m n : ℕ) (x y : ℕ) (hmn : m < n) (hm : s.asked[m]? = some (ieee,x))
        (hn : s.asked[n]? = some (ieee,y)) : x ≤ y := by
      obtain ⟨hm',hx⟩ := List.getElem?_eq_some_iff.mp hm
      obtain ⟨hn',hy⟩ := List.getElem?_eq_some_iff.mp hn
      have hrel := List.pairwise_iff_getElem.mp h.sorted m n hm' hn' hmn
      rw [hx,hy] at hrel
      exact hrel rfl
    have hkj := hle p q k j hpq hp hq
    have hjk := hle q r j k hqr hq hr
    omega

/-- Where interviews stay apart, each was started alone. -/
theorem startsAlone_of_apart {s : Interviews E} {a : Act E} (h : (s.step errors a).Apart) :
    s.StartsAlone a := by
  by_cases ha : ∃ k dropped, a = .interview k dropped
  · obtain ⟨k,dropped,rfl⟩ := ha
    have hstarts : s.starts (.interview k dropped) = none := ite_self _
    intro ieee hieee
    rw [hstarts] at hieee
    exact absurd hieee (by simp)
  · have hspawned := (s.step_spawned errors fun k dropped hk => ha ⟨k,dropped,hk⟩).2
    intro ieee hieee b hb he
    rw [hieee] at hspawned
    obtain ⟨j,hlt,hj⟩ := List.mem_iff_getElem.mp hb
    have hold : (s.step errors a).spawned[j]? = some b := by
      rw [hspawned,List.getElem?_append_left hlt,List.getElem?_eq_getElem hlt,hj]
    have hnew : (s.step errors a).spawned[s.spawned.length]? = some (begun errors ieee) := by
      rw [hspawned]
      exact List.getElem?_concat_length
    rcases h.once j _ b _ hlt hold hnew he with hover | hover
    · exact hover
    · have hbegun : (begun errors ieee).progress.isOver = false := rfl
      rw [hbegun] at hover
      exact absurd hover (by decide)

end Order

section Runs

/-- Where interviews are started alone they are in order, and only there. -/
theorem ordered_iff_startsAlone (config : TaskConfig E) (env : Env) (acts : List (Act E)) :
    (∀ pre, pre <+: acts → (Runs.run (step errors) (start config env) pre).Ordered) ↔
      Runs.Meets (step errors) StartsAlone (start config env) acts := by
  have hlogged : (start config env).Logged := fun x hx => by simp [start] at hx
  have hordered : (start config env).Ordered :=
    ⟨fun j k a b _ ha => by simp [start] at ha,List.Pairwise.nil⟩
  exact Runs.always_iff_meets (step errors) (fun s a h => s.logged_step errors a h)
    (fun s a hl h => s.ordered_step errors a hl h) hlogged hordered acts

end Runs

end Interviews
end Channel

end Rszigbee
