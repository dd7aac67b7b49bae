import Rszigbee.Broadcast
import Rszigbee.History
import Rszigbee.Intents

/-! The loop that joins a runtime to a broker. Whatever it has to say goes into a bounded channel,
which the MQTT client's event loop empties; the loop is what polls that event loop. -/
namespace Rszigbee

/-- A request to the MQTT client. -/
inductive Packet
  | subscribe (filter : String)
  | publish (publication : Publication)
  | disconnect
  deriving DecidableEq

/-- Depth of the client's channel. -/
def clientDepth : ℕ := 64

variable {resolve : DeviceInfo → Option Definition} {debug : DebugText} {tuya : TuyaSide}

namespace StateStore

variable (text : JsonText) (s : StateStore)

/-- A gap in the stream is no event to publish. -/
def translateReading : Reading (Event (Engine.ofDefinitions resolve debug tuya)) →
    StateStore × List Publication
  | .item event => s.translate text event
  | .lagged _ => (s,[])

/-- The answer to a request to permit joining. -/
def permitJoinResponse (duration : Duration) (ok : Bool) : Publication :=
  s.response text "permit_join"
    (.ofFields [("time",.number (.posInt (.ofNat (duration / 1000000000))))]) ok

/-- The answer to a request nobody implements. -/
def unknownRequestResponse (name : String) : Publication :=
  s.response text name
    (.ofFields [("error",.string "this gateway does not implement that request")]) false

end StateStore

namespace Inbound

/-- What it has the runtime do. -/
def request : Inbound → Option (Request (Engine.ofDefinitions resolve debug tuya))
  | set ieee changes => some (.command ieee (.capability (.set changes)))
  | get ieee capabilities => some (.command ieee (.capability (.get capabilities)))
  | permitJoin duration => some (.permitJoin duration none)
  | unknownRequest _ => none

/-- The window it asks for, which is answered once the runtime has. -/
def window : Inbound → List Duration
  | permitJoin duration => [duration]
  | _ => []

end Inbound

namespace Gateway

/-- What the loop goes on with once it has handed its packets to the client. -/
inductive After
  | opening | looping | stopping
  deriving DecidableEq

/-- Where the loop is: it hands packets to the client, waits for the first of what can happen, or
for the runtime's answer, or for a second after the connection had a problem. -/
inductive Phase
  | sending (left : List Packet) (after : After)
  | selecting
  | asking (window : List Duration)
  | sleeping
  | failed
  | stopped

def Phase.left : Phase → List Packet
  | sending left _ => left
  | _ => []

def Phase.window : Phase → List Duration
  | asking window => window
  | _ => []

/-- What the loop has acted on. -/
inductive Occurrence (E : Engine)
  | reading (r : Reading (Event E))
  | arrived (message : Message)
  | permitted (duration : Duration) (ok : Bool)
  | ended

section Acting

variable (text : JsonText)

/-- What an occurrence makes of the store, and what is said on account of it. -/
def act (s : StateStore) :
    Occurrence (Engine.ofDefinitions resolve debug tuya) → StateStore × List Packet
  | .reading r => ((s.translateReading text r).1,(s.translateReading text r).2.map .publish)
  | .arrived message =>
    match parse text s.topics message with
    | .ok (.unknownRequest name) => (s,[.publish (s.unknownRequestResponse text name)])
    | _ => (s,[])
  | .permitted duration ok => (s,[.publish (s.permitJoinResponse text duration ok)])
  | .ended => (s,[.publish (s.offline text),.disconnect])

/-- One occurrence after the other, and all that is said. -/
def actAll : StateStore → List (Occurrence (Engine.ofDefinitions resolve debug tuya)) →
    StateStore × List Packet
  | s, [] => (s,[])
  | s, o::os => ((actAll (act text s o).1 os).1,(act text s o).2 ++ (actAll (act text s o).1 os).2)

/-- What is said before the loop. -/
def opening (topics : Topics) : List Packet :=
  topics.subscriptions.map .subscribe ++ [.publish ((StateStore.new topics).online text)]

end Acting

/-- A gateway and the runtime's event channel. -/
structure State (E : Engine) (capacity : ℕ) where
  store : StateStore
  phase : Phase
  client : Channel Packet clientDepth
  /-- What the client's event loop has taken from it. -/
  taken : List Packet
  events : Broadcast (Event E) capacity
  /-- Where its event stream began, and where it is. -/
  since : ℕ
  next : ℕ
  log : List (Occurrence E)
  /-- What the runtime was asked. -/
  asked : List (Request E)
  /-- Every event of the runtime. -/
  emitted : List (Event E)

variable {capacity : ℕ}

/-- The loop has yet to be reached, and nothing has happened. -/
def new (text : JsonText) (topics : Topics) :
    State (Engine.ofDefinitions resolve debug tuya) capacity where
  store := .new topics
  phase := .sending (opening text topics) .opening
  client := .empty
  taken := []
  events := .new
  since := 0
  next := 0
  log := []
  asked := []
  emitted := []

section Moving

variable (text : JsonText) (accepts : Packet → Bool)

/-- The loop acts on what has happened. -/
def State.occur (s : State (Engine.ofDefinitions resolve debug tuya) capacity)
    (o : Occurrence (Engine.ofDefinitions resolve debug tuya)) (after : After) :
    State (Engine.ofDefinitions resolve debug tuya) capacity :=
  { s with
    store := (act text s.store o).1
    phase := .sending (act text s.store o).2 after
    log := s.log ++ [o] }

/-- An intent that is the runtime's to act on. -/
def State.ask (s : State (Engine.ofDefinitions resolve debug tuya) capacity) (message : Message)
    (intent : Inbound) : State (Engine.ofDefinitions resolve debug tuya) capacity :=
  { s with
    phase := .asking intent.window
    log := s.log ++ [.arrived message]
    asked := s.asked ++ intent.request.toList }

/-- `handle`, until the runtime has answered. -/
def State.handle (s : State (Engine.ofDefinitions resolve debug tuya) capacity)
    (message : Message) : State (Engine.ofDefinitions resolve debug tuya) capacity :=
  match parse text s.store.topics message with
  | .ok (.set ieee changes) => s.ask message (.set ieee changes)
  | .ok (.get ieee capabilities) => s.ask message (.get ieee capabilities)
  | .ok (.permitJoin duration) => s.ask message (.permitJoin duration)
  | _ => s.occur text (.arrived message) .looping

/-- The event loop takes some of what waits for it. -/
def State.take (s : State (Engine.ofDefinitions resolve debug tuya) capacity) (n : ℕ) :
    State (Engine.ofDefinitions resolve debug tuya) capacity :=
  { s with client := s.client.drop n, taken := s.taken ++ s.client.items.take n }

/-- A step of the loop, or of the runtime beside it. The client refuses some packets at once; the
others wait for room. -/
inductive Move : State (Engine.ofDefinitions resolve debug tuya) capacity →
    State (Engine.ofDefinitions resolve debug tuya) capacity → Prop
  | put {s p rest after} : s.phase = .sending (p::rest) after → accepts p = true →
      (room : s.client.Room) →
      Move s { s with phase := .sending rest after, client := s.client.push p room }
  | refuse {s p rest after} : s.phase = .sending (p::rest) after → accepts p = false →
      Move s { s with phase := if after = .opening then .failed else .sending rest after }
  | listen {s} : s.phase = .sending [] .opening →
      Move s { s with phase := .selecting, since := s.events.tail, next := s.events.tail }
  | resume {s} : s.phase = .sending [] .looping → Move s { s with phase := .selecting }
  | stop {s} : s.phase = .sending [] .stopping → Move s { s with phase := .stopped }
  | receive {s r next} : s.phase = .selecting → s.events.recv s.next = some (r,next) →
      Move s { s.occur text (.reading r) .looping with next := next }
  | ended {s} : s.phase = .selecting → s.events.recv s.next = none → s.events.closed = true →
      Move s (s.occur text .ended .stopping)
  | poll {s} (n : ℕ) : s.phase = .selecting → Move s (s.take n)
  | arrive {s} (message : Message) : s.phase = .selecting → Move s (s.handle text message)
  | trouble {s} (n : ℕ) : s.phase = .selecting → Move s { s.take n with phase := .sleeping }
  | retry {s} : s.phase = .sleeping → Move s { s with phase := .selecting }
  | answered {s} : s.phase = .asking [] → Move s { s with phase := .selecting }
  | permitted {s duration} (ok : Bool) : s.phase = .asking [duration] →
      Move s (s.occur text (.permitted duration ok) .looping)
  | emit {s} (event : Event (Engine.ofDefinitions resolve debug tuya)) :
      s.events.closed = false →
      Move s { s with events := s.events.send event, emitted := s.emitted ++ [event] }
  | close {s} : Move s { s with events := s.events.close }

def Reachable (topics : Topics) (s : State (Engine.ofDefinitions resolve debug tuya) capacity) :
    Prop :=
  Relation.ReflTransGen (Move text accepts) (new text topics) s

end Moving

section Log

variable {E : Engine}

/-- What the runtime is asked on account of it. -/
def Occurrence.request (text : JsonText) (topics : Topics) :
    Occurrence (Engine.ofDefinitions resolve debug tuya) →
    Option (Request (Engine.ofDefinitions resolve debug tuya))
  | .arrived message => (parse text topics message).toOption.bind Inbound.request
  | _ => none

/-- The join window a message asks for. -/
def Occurrence.window (text : JsonText) (topics : Topics) : Occurrence E → List Duration
  | .arrived message => ((parse text topics message).toOption.map Inbound.window).getD []
  | _ => []

/-- The join window that is answered for. -/
def Occurrence.permission : Occurrence E → List Duration
  | .permitted duration _ => [duration]
  | _ => []

def Occurrence.reading? : Occurrence E → Option (Reading (Event E))
  | .reading r => some r
  | _ => none

/-- What the loop was given of the runtime's events. -/
def readings (log : List (Occurrence E)) : List (Reading (Event E)) :=
  log.filterMap Occurrence.reading?

end Log

section Acting

variable (text : JsonText)

theorem topics_act (s : StateStore) (o : Occurrence (Engine.ofDefinitions resolve debug tuya)) :
    (act text s o).1.topics = s.topics := by
  cases o with
  | reading r =>
    cases r with
    | item event => cases event <;> rfl
    | lagged n => rfl
  | arrived message =>
    rw [act]
    split <;> rfl
  | permitted duration ok => rfl
  | ended => rfl

theorem actAll_append (s : StateStore)
    (os os' : List (Occurrence (Engine.ofDefinitions resolve debug tuya))) :
    actAll text s (os ++ os') = ((actAll text (actAll text s os).1 os').1,
      (actAll text s os).2 ++ (actAll text (actAll text s os).1 os').2) := by
  induction os generalizing s with
  | nil => rfl
  | cons o os ih => simp [actAll,ih]

theorem actAll_concat (s : StateStore)
    (os : List (Occurrence (Engine.ofDefinitions resolve debug tuya)))
    (o : Occurrence (Engine.ofDefinitions resolve debug tuya)) :
    actAll text s (os ++ [o]) = ((act text (actAll text s os).1 o).1,
      (actAll text s os).2 ++ (act text (actAll text s os).1 o).2) := by
  rw [actAll_append]
  simp [actAll]

theorem topics_actAll (s : StateStore)
    (os : List (Occurrence (Engine.ofDefinitions resolve debug tuya))) :
    (actAll text s os).1.topics = s.topics := by
  induction os generalizing s with
  | nil => rfl
  | cons o os ih => rw [actAll,ih,topics_act]

/-- Only what is read of the runtime changes what is known of its devices. -/
theorem actAll_store (s : StateStore)
    (os : List (Occurrence (Engine.ofDefinitions resolve debug tuya))) :
    (actAll text s os).1 = (s.run text ((readings os).filterMap Reading.item?)).1 := by
  induction os generalizing s with
  | nil => rfl
  | cons o os ih =>
    rw [actAll,ih]
    cases o with
    | reading r =>
      cases r with
      | item event => rfl
      | lagged n => rfl
    | arrived message =>
      rw [act]
      split <;> rfl
    | permitted duration ok => rfl
    | ended => rfl

end Acting

section Invariant

variable (text : JsonText) (accepts : Packet → Bool)

/-- The loop has been left, or is being left. -/
def Phase.Leaving : Phase → Prop
  | sending _ .stopping => True
  | stopped => True
  | _ => False

/-- The loop has not been reached. -/
def Phase.Early : Phase → Prop
  | sending _ .opening => True
  | failed => True
  | _ => False

/-- What the loop was to say, as far as the client takes it. -/
def said (topics : Topics) (log : List (Occurrence (Engine.ofDefinitions resolve debug tuya))) :
    List Packet :=
  (opening text topics ++ (actAll text (.new topics) log).2).filter accepts

/-- What holds in every state of a gateway. -/
structure Inv (topics : Topics) (s : State (Engine.ofDefinitions resolve debug tuya) capacity) :
    Prop where
  store : s.store = (actAll text (.new topics) s.log).1
  said : s.phase ≠ .failed →
    s.taken ++ s.client.items ++ s.phase.left.filter accepts = said text accepts topics s.log
  early : s.phase.Early → s.taken = [] ∧ s.log = []
  asked : s.asked = s.log.filterMap (Occurrence.request text topics)
  windows : s.log.flatMap (Occurrence.window text topics) =
    s.log.flatMap Occurrence.permission ++ s.phase.window
  holds : s.events.Holds s.emitted
  since : s.since ≤ s.next
  next : s.next ≤ s.emitted.length
  accounts : Broadcast.Accounts (readings s.log) ((s.emitted.take s.next).drop s.since)
  leaving : s.phase.Leaving → ∃ log, s.log = log ++ [.ended] ∧ .ended ∉ log ∧
    s.taken <+: Gateway.said text accepts topics log
  staying : ¬ s.phase.Leaving → .ended ∉ s.log

@[simp] theorem Phase.leaving_sending {left : List Packet} {after : After} :
    (sending left after).Leaving ↔ after = .stopping := by
  cases after <;> simp [Leaving]

@[simp] theorem Phase.early_sending {left : List Packet} {after : After} :
    (sending left after).Early ↔ after = .opening := by
  cases after <;> simp [Early]

variable {text accepts} {topics : Topics}
  {s : State (Engine.ofDefinitions resolve debug tuya) capacity}

theorem Inv.new : Inv text accepts topics
    (new text topics : State (Engine.ofDefinitions resolve debug tuya) capacity) where
  store := rfl
  said _ := by simp [Gateway.new,Gateway.said,Phase.left,actAll]
  early _ := ⟨rfl,rfl⟩
  asked := rfl
  windows := rfl
  holds := .new
  since := Nat.le_refl _
  next := Nat.le_refl _
  accounts := .nil
  leaving h := by simp [Gateway.new] at h
  staying _ := List.not_mem_nil

theorem Inv.topics_eq (h : Inv text accepts topics s) : s.store.topics = topics := by
  rw [h.store,topics_actAll]
  rfl

theorem said_concat (log : List (Occurrence (Engine.ofDefinitions resolve debug tuya)))
    (o : Occurrence (Engine.ofDefinitions resolve debug tuya)) :
    said text accepts topics (log ++ [o]) = said text accepts topics log ++
      (act text (actAll text (.new topics) log).1 o).2.filter accepts := by
  rw [said,actAll_concat,← List.append_assoc,List.filter_append]
  rfl

/-- The loop acts on something while it has nothing left to say. -/
theorem Inv.occur (h : Inv text accepts topics s)
    {o : Occurrence (Engine.ofDefinitions resolve debug tuya)} {after : After} {next : ℕ}
    (hleft : s.phase.left = []) (hearly : ¬ s.phase.Early) (hleaving : ¬ s.phase.Leaving)
    (hrequest : o.request text topics = none)
    (hwindow : s.phase.window ++ o.window text topics = o.permission) (hafter : after ≠ .opening)
    (hended : after = .stopping ↔ o = .ended) (hsince : s.since ≤ next)
    (hnext : next ≤ s.emitted.length)
    (haccounts : Broadcast.Accounts (readings (s.log ++ [o]))
      ((s.emitted.take next).drop s.since)) :
    Inv text accepts topics { s.occur text o after with next := next } := by
  have hfailed : s.phase ≠ .failed := fun hfailed => hearly (by rw [hfailed]; trivial)
  have hsaid := h.said hfailed
  rw [hleft,List.filter_nil,List.append_nil] at hsaid
  exact {
    store := by rw [State.occur,actAll_concat,← h.store]
    said := fun _ => by
      rw [State.occur,said_concat,← h.store,← hsaid]
      rfl
    early := fun he => absurd (Phase.early_sending.mp he) hafter
    asked := by
      simp only [State.occur,List.filterMap_append,h.asked]
      simp [hrequest]
    windows := by
      show (s.log ++ [o]).flatMap _ = (s.log ++ [o]).flatMap _ ++ []
      rw [List.flatMap_append,List.flatMap_append,List.flatMap_singleton,List.flatMap_singleton,
        h.windows,List.append_assoc,hwindow,List.append_nil]
    holds := h.holds
    since := hsince
    next := hnext
    accounts := haccounts
    leaving := fun hl => by
      refine ⟨s.log,?_,h.staying hleaving,?_⟩
      · rw [State.occur,hended.mp (Phase.leaving_sending.mp hl)]
      · rw [← hsaid]
        exact List.prefix_append _ _
    staying := fun hl hmem => by
      rcases List.mem_append.mp hmem with hmem | hmem
      · exact h.staying hleaving hmem
      · exact hl (Phase.leaving_sending.mpr (hended.mpr (List.mem_singleton.mp hmem).symm)) }

theorem readings_concat {o : Occurrence (Engine.ofDefinitions resolve debug tuya)}
    (log : List (Occurrence (Engine.ofDefinitions resolve debug tuya))) :
    readings (log ++ [o]) = readings log ++ o.reading?.toList := by
  rw [readings,List.filterMap_append]
  cases hreading : o.reading? <;> simp [readings,hreading]

/-- It acts on something that is no reading. -/
theorem Inv.occur_same (h : Inv text accepts topics s)
    {o : Occurrence (Engine.ofDefinitions resolve debug tuya)} {after : After}
    (hleft : s.phase.left = []) (hearly : ¬ s.phase.Early) (hleaving : ¬ s.phase.Leaving)
    (hrequest : o.request text topics = none)
    (hwindow : s.phase.window ++ o.window text topics = o.permission) (hafter : after ≠ .opening)
    (hended : after = .stopping ↔ o = .ended) (hreading : o.reading? = none) :
    Inv text accepts topics (s.occur text o after) :=
  h.occur hleft hearly hleaving hrequest hwindow hafter hended h.since h.next
    (by rw [readings_concat,hreading,Option.toList_none,List.append_nil]; exact h.accounts)

/-- It waits, having said nothing. -/
theorem Inv.phase (h : Inv text accepts topics s) {phase : Phase} (hleft : s.phase.left = [])
    (hearly : ¬ s.phase.Early) (hleft' : phase.left = []) (hearly' : ¬ phase.Early)
    (hleaving : phase.Leaving ↔ s.phase.Leaving) (hwindow : phase.window = s.phase.window) :
    Inv text accepts topics { s with phase := phase } := by
  have hfailed : s.phase ≠ .failed := fun hfailed => hearly (by rw [hfailed]; trivial)
  exact { h with
    said := fun _ => by rw [hleft',← hleft]; exact h.said hfailed
    early := fun he => absurd he hearly'
    windows := by rw [hwindow]; exact h.windows
    leaving := fun hl => h.leaving (hleaving.mp hl)
    staying := fun hl => h.staying fun hl' => hl (hleaving.mpr hl') }

theorem Inv.ask (h : Inv text accepts topics s) {message : Message} {intent : Inbound}
    (hselecting : s.phase = .selecting)
    (hparse : parse text s.store.topics message = .ok intent)
    (hknown : ∀ name, intent ≠ .unknownRequest name) :
    Inv text accepts topics (s.ask message intent) := by
  have hsaid := h.said (by simp [hselecting])
  have hstay : ¬ s.phase.Leaving := by simp [hselecting,Phase.Leaving]
  let arrived : Occurrence (Engine.ofDefinitions resolve debug tuya) := .arrived message
  have hnothing : act text s.store arrived = (s.store,[]) := by
    rw [act,hparse]
    cases intent with
    | unknownRequest name => exact absurd rfl (hknown name)
    | _ => rfl
  rw [h.topics_eq] at hparse
  exact {
    store := by rw [State.ask,actAll_concat,← h.store,hnothing]
    said := fun _ => by
      rw [State.ask,said_concat,← h.store,← hsaid,hselecting]
      simp [arrived,hnothing,Phase.left]
    early := nofun
    asked := by
      simp only [State.ask,List.filterMap_append,h.asked]
      cases hrequest : @Inbound.request resolve debug tuya intent <;>
        simp [Occurrence.request,hparse,Except.toOption,hrequest]
    windows := by
      show (s.log ++ [arrived]).flatMap _ = (s.log ++ [arrived]).flatMap _ ++ intent.window
      rw [List.flatMap_append,List.flatMap_append,h.windows,hselecting]
      simp [arrived,Occurrence.window,Occurrence.permission,hparse,Except.toOption,Phase.window]
    holds := h.holds
    since := h.since
    next := h.next
    accounts := by
      rw [State.ask,readings_concat]
      show Broadcast.Accounts (readings s.log ++ []) _
      rw [List.append_nil]
      exact h.accounts
    leaving := nofun
    staying := fun _ hmem => by
      rcases List.mem_append.mp hmem with hmem | hmem
      · exact h.staying hstay hmem
      · cases List.mem_singleton.mp hmem }

theorem Inv.handle (h : Inv text accepts topics s) (hselecting : s.phase = .selecting)
    (message : Message) : Inv text accepts topics (s.handle text message) := by
  have hleft : s.phase.left = [] := by rw [hselecting]; rfl
  have hearly : ¬ s.phase.Early := by simp [hselecting,Phase.Early]
  have hleaving : ¬ s.phase.Leaving := by simp [hselecting,Phase.Leaving]
  have hother (hrequest : (parse text topics message).toOption.bind
        (@Inbound.request resolve debug tuya) = none)
      (hwindow : ((parse text topics message).toOption.map Inbound.window).getD [] = []) :
      Inv text accepts topics (s.occur text (.arrived message) .looping) := by
    refine h.occur_same hleft hearly hleaving hrequest ?_ nofun (by simp) rfl
    rw [hselecting]
    exact hwindow
  rw [State.handle]
  cases hparse : parse text s.store.topics message with
  | error e =>
    rw [h.topics_eq] at hparse
    exact hother (by rw [hparse]; rfl) (by rw [hparse]; rfl)
  | ok intent =>
    cases intent with
    | set ieee changes => exact h.ask hselecting hparse nofun
    | get ieee capabilities => exact h.ask hselecting hparse nofun
    | permitJoin duration => exact h.ask hselecting hparse nofun
    | unknownRequest name =>
      rw [h.topics_eq] at hparse
      exact hother (by rw [hparse]; rfl) (by rw [hparse]; rfl)

theorem Inv.put (h : Inv text accepts topics s) {p : Packet} {rest : List Packet} {after : After}
    (hsending : s.phase = .sending (p::rest) after) (htaken : accepts p = true)
    (room : s.client.Room) : Inv text accepts topics
      { s with phase := .sending rest after, client := s.client.push p room } :=
  { h with
    said := fun _ => by
      have hsaid := h.said (by simp [hsending])
      rw [hsending,Phase.left,List.filter_cons_of_pos htaken] at hsaid
      rw [← hsaid]
      simp [Phase.left]
    early := fun he => h.early (by simpa [hsending] using he)
    windows := by
      have hwindows := h.windows
      rwa [hsending] at hwindows
    leaving := fun hl => h.leaving (by simpa [hsending] using hl)
    staying := fun hl => h.staying (by simpa [hsending] using hl) }

theorem Inv.refuse (h : Inv text accepts topics s) {p : Packet} {rest : List Packet}
    {after : After} (hsending : s.phase = .sending (p::rest) after) (hrefused : accepts p = false) :
    Inv text accepts topics
      { s with phase := if after = .opening then .failed else .sending rest after } := by
  have hwindows := h.windows
  rw [hsending] at hwindows
  by_cases hopening : after = .opening
  · rw [if_pos hopening]
    exact { h with
      said := fun hne => absurd rfl hne
      early := fun _ => h.early (by simp [hsending,hopening])
      windows := hwindows
      leaving := nofun
      staying := fun _ => h.staying (by simp [hsending,hopening]) }
  · rw [if_neg hopening]
    exact { h with
      said := fun _ => by
        have hsaid := h.said (by simp [hsending])
        rw [hsending,Phase.left,List.filter_cons_of_neg (by simp [hrefused])] at hsaid
        exact hsaid
      early := fun he => absurd (Phase.early_sending.mp he) hopening
      windows := hwindows
      leaving := fun hl => h.leaving (by simpa [hsending] using hl)
      staying := fun hl => h.staying (by simpa [hsending] using hl) }

/-- The event stream begins where the channel is. -/
theorem Inv.listen (h : Inv text accepts topics s) (hopened : s.phase = .sending [] .opening) :
    Inv text accepts topics
      { s with phase := .selecting, since := s.events.tail, next := s.events.tail } := by
  obtain ⟨-,hlog⟩ := h.early (by simp [hopened])
  have htail := h.holds.tail
  exact { h with
    said := fun _ => by
      have hsaid := h.said (by simp [hopened])
      rwa [hopened] at hsaid
    early := nofun
    windows := by
      have hwindows := h.windows
      rwa [hopened] at hwindows
    since := Nat.le_refl _
    next := by rw [htail]
    accounts := by
      show Broadcast.Accounts (readings s.log) ((s.emitted.take _).drop _)
      rw [hlog,htail,List.take_length,List.drop_length]
      exact .nil
    leaving := nofun
    staying := fun _ => by rw [hlog]; exact List.not_mem_nil }

theorem Inv.receive (h : Inv text accepts topics s) (hselecting : s.phase = .selecting)
    {r : Reading (Event (Engine.ofDefinitions resolve debug tuya))} {next : ℕ}
    (hrecv : s.events.recv s.next = some (r,next)) :
    Inv text accepts topics { s.occur text (.reading r) .looping with next := next } := by
  obtain ⟨haccounts,hless,hnext⟩ :=
    Broadcast.recv_accounts h.holds h.since h.next h.accounts hrecv
  refine h.occur (by rw [hselecting]; rfl) (by simp [hselecting,Phase.Early])
    (by simp [hselecting,Phase.Leaving]) rfl (by rw [hselecting]; rfl) nofun (by simp)
    (Nat.le_trans h.since (Nat.le_of_lt hless)) hnext ?_
  rw [readings_concat]
  exact haccounts

theorem Inv.take (h : Inv text accepts topics s) (hselecting : s.phase = .selecting) (n : ℕ) :
    Inv text accepts topics (s.take n) := by
  have hstay : ¬ s.phase.Leaving := by simp [hselecting,Phase.Leaving]
  exact { h with
    said := fun hne => by
      rw [State.take,Channel.drop_items,List.append_assoc s.taken,List.take_append_drop]
      exact h.said hne
    early := fun he => by simp [State.take,hselecting,Phase.Early] at he
    leaving := fun hl => absurd hl hstay }

theorem Inv.move {s' : State (Engine.ofDefinitions resolve debug tuya) capacity}
    (h : Inv text accepts topics s) (hmove : Move text accepts s s') :
    Inv text accepts topics s' := by
  cases hmove with
  | put hsending htaken room => exact h.put hsending htaken room
  | refuse hsending hrefused => exact h.refuse hsending hrefused
  | listen hopened => exact h.listen hopened
  | resume hdone =>
    exact h.phase (by rw [hdone]; rfl) (by simp [hdone]) rfl id (by simp [hdone,Phase.Leaving])
      (by rw [hdone]; rfl)
  | stop hdone =>
    exact h.phase (by rw [hdone]; rfl) (by simp [hdone]) rfl id (by simp [hdone,Phase.Leaving])
      (by rw [hdone]; rfl)
  | receive hselecting hrecv => exact h.receive hselecting hrecv
  | ended hselecting _ _ =>
    exact h.occur_same (by rw [hselecting]; rfl) (by simp [hselecting,Phase.Early])
      (by simp [hselecting,Phase.Leaving]) rfl (by rw [hselecting]; rfl) nofun (by simp) rfl
  | poll n hselecting => exact h.take hselecting n
  | arrive message hselecting => exact h.handle hselecting message
  | trouble n hselecting =>
    have hphase : (s.take n).phase = .selecting := hselecting
    exact (h.take hselecting n).phase (by rw [hphase]; rfl) (by simp [hphase,Phase.Early]) rfl id
      (by simp [hphase,Phase.Leaving]) (by rw [hphase]; rfl)
  | retry hsleeping =>
    exact h.phase (by rw [hsleeping]; rfl) (by simp [hsleeping,Phase.Early]) rfl id
      (by simp [hsleeping,Phase.Leaving]) (by rw [hsleeping]; rfl)
  | answered hasking =>
    exact h.phase (by rw [hasking]; rfl) (by simp [hasking,Phase.Early]) rfl id
      (by simp [hasking,Phase.Leaving]) (by rw [hasking]; rfl)
  | permitted ok hasking =>
    exact h.occur_same (by rw [hasking]; rfl) (by simp [hasking,Phase.Early])
      (by simp [hasking,Phase.Leaving]) rfl (by rw [hasking]; rfl) nofun (by simp) rfl
  | emit event _ =>
    exact { h with
      holds := h.holds.send event
      next := by
        rw [List.length_append]
        exact Nat.le_add_right_of_le h.next
      accounts := by
        rw [List.take_append_of_le_length h.next]
        exact h.accounts }
  | close => exact { h with holds := h.holds.close }

theorem Reachable.inv (h : Reachable text accepts topics s) : Inv text accepts topics s := by
  induction h with
  | refl => exact .new
  | tail _ hmove ih => exact ih.move hmove

end Invariant

end Gateway
end Rszigbee
