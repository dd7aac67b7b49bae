import Rszigbee.Serving
import Rszigbee.Transmit

/-! The Ember adapter at work: one task owns the NCP, the adapter's methods ask it over a bounded
channel, and what the NCP raises on its own account is translated and queued for the runtime. -/
namespace Rszigbee
namespace Ember

/-- Every EZSP command the adapter puts to the NCP. -/
inductive EzspCommand
  | bringup (c : Command)
  | service (c : Request)
  | send (c : Send)

namespace EzspCommand

def Response : EzspCommand → Type
  | bringup c => Except EzspError c.Response
  | service c => Except EzspError c.Response
  | send _ => Except EzspError SlStatus

end EzspCommand

/-- What the NCP says on its own account. -/
inductive Callback
  | trustCenterJoin (nodeId : UInt16) (eui64 : Vector UInt8 8) (deviceUpdate : UInt8)
  | incomingMessage (aps : ApsFrame) (sender : UInt16) (payload : Bytes) (lastHopLqi : UInt8)
  | other
  deriving DecidableEq

/-- `EmberDeviceUpdate::DEVICE_LEFT`. -/
def deviceLeft : UInt8 := 0x02

/-- ZDO traffic travels on profile 0. -/
def zdoProfile : UInt16 := 0x0000

/-- The event a callback becomes, if the runtime acts on it. -/
def translate : Callback → Option AdapterEvent
  | .trustCenterJoin nodeId eui64 deviceUpdate =>
    if deviceUpdate = deviceLeft then
      some (.deviceLeft (some (euiToIeee eui64)) (some ⟨nodeId⟩))
    else some (.deviceJoined (some (euiToIeee eui64)) ⟨nodeId⟩)
  | .incomingMessage aps sender payload lastHopLqi =>
    if aps.profileId = zdoProfile then some (.zdo ⟨aps.clusterId⟩ ⟨sender⟩ payload)
    else some (.zcl {
      ieee := none
      nwk := ⟨sender⟩
      endpoint := ⟨aps.sourceEndpoint⟩
      destinationEndpoint := ⟨aps.destinationEndpoint⟩
      cluster := ⟨aps.clusterId⟩
      group := none
      wasBroadcast := false
      linkQuality := some lastHopLqi
      frame := payload })
  | .other => none

/-- Depth of the channel to the NCP's task, and of the one its callbacks come back on. -/
def requestDepth : ℕ := 64

/-- Depth of the channel to the runtime. -/
def eventDepth : ℕ := 512

/-- A method of the adapter, over the connection. -/
abbrev Method (α : Type) := Dialogue EzspCommand EzspCommand.Response AdapterError α

abbrev Connection (α : Type) :=
  Serving.State EzspCommand EzspCommand.Response Callback AdapterError α requestDepth

/-- What a command is answered once its task is gone. -/
def closed (notConnected : EzspError) : (c : EzspCommand) → c.Response
  | .bringup _ => .error notConnected
  | .service _ => .error notConnected
  | .send _ => .error notConnected

/-- A transmission, over the connection. -/
def ofSend {α : Type} (d : Transmission α) : Method α := d.lift .send fun _ r => r

namespace Link

/-- `pump_callbacks`. -/
inductive Pump
  | unspawned | idle
  | holding (event : AdapterEvent)
  | ended

def Pump.held : Pump → List AdapterEvent
  | holding event => [event]
  | _ => []

/-- How far `stop` has come. -/
inductive Stop
  | inService | stopping | stopped
  deriving DecidableEq

/-- A session of the adapter, and the events that wait for the runtime. -/
structure State (α : Type) where
  connection : Connection α
  pump : Pump
  events : Channel AdapterEvent eventDepth
  stop : Stop
  /-- The runtime's end of `events` exists. -/
  receiving : Bool
  /-- The callbacks the pump has taken. -/
  taken : List Callback
  /-- The events the runtime has received. -/
  received : List AdapterEvent

variable {α : Type}

/-- A session is up, and `start` has yet to do its work. -/
def new : State α where
  connection := .new
  pump := .unspawned
  events := .empty
  stop := .inService
  receiving := true
  taken := []
  received := []

def State.Busy (s : State α) : Prop := s.connection.Busy

/-- A step of one of the tasks. A method borrows the adapter, so there is one at a time, and the
runtime, which calls it, does nothing else until it returns. -/
inductive Move (gone : EzspError) : State α → State α → Prop
  | serve {s connection} : Serving.Step (closed gone) s.connection connection →
      Move gone s { s with connection := connection }
  | call {s} (method : Method α) : s.stop = .inService → ¬ s.Busy →
      Move gone s { s with connection := s.connection.call method }
  | spawn {s} : s.pump = .unspawned → s.connection.listening = true → ¬ s.Busy →
      Move gone s { s with pump := .idle }
  | abandonStart {s} : s.pump = .unspawned → ¬ s.Busy →
      Move gone s { s with connection := s.connection.deaf.hangUp }
  | take {s callback rest} : s.pump = .idle → s.connection.notices.items = callback::rest →
      Move gone s { s with
        connection := s.connection.taken
        pump := (translate callback).elim .idle .holding
        taken := s.taken ++ [callback] }
  | push {s event} : s.pump = .holding event → s.receiving = true → (room : s.events.Room) →
      Move gone s { s with pump := .idle, events := s.events.push event room }
  | pumpFails {s event} : s.pump = .holding event → s.receiving = false →
      Move gone s { s with pump := .ended, connection := s.connection.deaf }
  | pumpEnds {s} : s.pump = .idle → s.connection.notices.items = [] →
      s.connection.owner = .stopped →
      Move gone s { s with pump := .ended, connection := s.connection.deaf }
  | receive {s event rest} : s.events.items = event::rest → s.receiving = true →
      s.stop = .inService → ¬ s.Busy →
      Move gone s { s with events := s.events.tail, received := s.received ++ [event] }
  | stop {s} : s.stop = .inService → ¬ s.Busy →
      Move gone s { s with stop := .stopping, connection := s.connection.hangUp }
  | disconnect {s} : s.stop = .stopping → (room : s.events.Room) →
      Move gone s { s with
        stop := .stopped
        events := s.events.push (.disconnected .requested) room }
  | drop {s} : s.stop = .stopped → Move gone s { s with receiving := false }

/-- The caller of a method gives up. -/
def State.leave (s : State α) (i : ℕ) : State α := { s with connection := s.connection.leave i }

/-- A move, or somebody giving up. -/
inductive Step (gone : EzspError) (s : State α) : State α → Prop
  | move {s'} : Move gone s s' → Step gone s s'
  | leave (i : ℕ) : Step gone s (s.leave i)

def Reachable (gone : EzspError) (s : State α) : Prop :=
  Relation.ReflTransGen (Step gone) new s

/-- Neither the NCP's task nor the pump can hand on what it holds. -/
def State.Jammed (s : State α) : Prop :=
  s.connection.Stalled ∧ (s.pump = .unspawned ∨
    ∃ event, s.pump = .holding event ∧ ¬ s.events.Room ∧ s.receiving = true)

/-- What did not come from `stop`. -/
def reported (events : List AdapterEvent) : List AdapterEvent :=
  events.filter fun e => e ≠ .disconnected .requested

/-- What holds of a session in every state it reaches. -/
structure Inv (gone : EzspError) (s : State α) : Prop where
  serving : Serving.Inv s.connection (closed gone)
  listening : s.pump = .idle ∨ s.pump.held ≠ [] → s.connection.listening = true
  deaf : s.pump = .ended → s.connection.listening = false
  quiet : s.pump = .ended → s.receiving = true → s.connection.owner = .stopped
  pending : s.connection.listening = true ∨ s.pump = .ended ∧ s.receiving = true →
    s.connection.raised = s.taken ++ s.connection.pending
  taken : s.taken <+: s.connection.raised
  translated : s.receiving = true →
    reported (s.received ++ s.events.items) ++ s.pump.held = s.taken.filterMap translate
  delivered : reported (s.received ++ s.events.items) <+: s.taken.filterMap translate
  disconnected : (s.received ++ s.events.items).count (.disconnected .requested) =
    if s.stop = .stopped then 1 else 0
  unheard : ∀ reason, .disconnected reason ∉ s.received
  service : s.Busy → s.stop = .inService

/-- No callback says that the adapter is disconnected. -/
theorem translate_ne_disconnected (callback : Callback) (reason : DisconnectReason) :
    translate callback ≠ some (.disconnected reason) := by
  cases callback with
  | trustCenterJoin nodeId eui64 deviceUpdate =>
    simp only [translate]
    split <;> simp
  | incomingMessage aps sender payload lastHopLqi =>
    simp only [translate]
    split <;> simp
  | other => simp [translate]

theorem reported_append (events events' : List AdapterEvent) :
    reported (events ++ events') = reported events ++ reported events' := List.filter_append ..

theorem reported_singleton {event : AdapterEvent} (h : event ≠ .disconnected .requested) :
    reported [event] = [event] := by
  rw [reported,List.filter_cons_of_pos (by simpa using h),List.filter_nil]

section Events

variable {events : List AdapterEvent} {event : AdapterEvent} {rest : List AdapterEvent}

/-- What is received is taken from the front of what waits. -/
theorem received_tail (received : List AdapterEvent) (h : events = event::rest) :
    received ++ [event] ++ events.tail = received ++ events := by
  rw [h,List.tail_cons,List.append_assoc,List.singleton_append]

end Events

section Keeping

variable {gone : EzspError} {s s' : State α}

theorem Inv.new : Inv gone (new : State α) where
  serving := .new
  listening _ := rfl
  deaf := nofun
  quiet := nofun
  pending _ := rfl
  taken := List.prefix_refl _
  translated _ := rfl
  delivered := List.prefix_refl _
  disconnected := rfl
  unheard _ := List.not_mem_nil
  service _ := rfl

/-- What the pump holds is a callback's event. -/
theorem Inv.held (h : Inv gone s) {event : AdapterEvent} (hheld : s.pump = .holding event)
    (hreceiving : s.receiving = true) : event ≠ .disconnected .requested := by
  have hmem : event ∈ s.taken.filterMap translate := by
    rw [← h.translated hreceiving,hheld]
    simp [Pump.held]
  obtain ⟨callback,-,htranslate⟩ := List.mem_filterMap.mp hmem
  rintro rfl
  exact translate_ne_disconnected callback _ htranslate

theorem Inv.serve (h : Inv gone s) {connection : Connection α}
    (hstep : Serving.Step (closed gone) s.connection connection) :
    Inv gone { s with connection := connection } where
  serving := h.serving.step hstep
  listening hp := (hstep.raises (h.listening hp)).1
  deaf hp := (hstep.deaf (h.deaf hp)).1
  quiet hp hr := (hstep.stopped (h.quiet hp hr)).1
  pending hp := by
    cases hlistening : s.connection.listening with
    | true =>
      obtain ⟨-,new,hraised,hpending⟩ := hstep.raises hlistening
      simp only [hraised,hpending,h.pending (.inl hlistening),List.append_assoc]
    | false =>
      rcases hp with hp | hp
      · have hstill := (hstep.deaf hlistening).1
        rw [hstill] at hp
        cases hp
      · obtain ⟨-,hraised,hpending,-⟩ := hstep.stopped (h.quiet hp.1 hp.2)
        simp only [hraised,hpending,h.pending (.inr hp)]
  taken := h.taken.trans hstep.raised_prefix
  translated := h.translated
  delivered := h.delivered
  disconnected := h.disconnected
  unheard := h.unheard
  service hbusy := h.service (hstep.busy hbusy)

theorem Inv.take (h : Inv gone s) {callback : Callback} {rest : List Callback}
    (hidle : s.pump = .idle) (hnotices : s.connection.notices.items = callback::rest) :
    Inv gone { s with
      connection := s.connection.taken
      pump := (translate callback).elim .idle .holding
      taken := s.taken ++ [callback] } := by
  have hlistening : s.connection.listening = true := h.listening (.inl hidle)
  have hraised : s.connection.raised = s.taken ++ callback::(rest ++ s.connection.owner.batch) := by
    rw [h.pending (.inl hlistening),Serving.State.pending,hnotices,List.cons_append]
  have hne : (translate callback).elim Pump.idle .holding ≠ .ended := by
    cases translate callback <;> simp
  have hheld : ((translate callback).elim Pump.idle .holding).held =
      [callback].filterMap translate := by
    cases hcallback : translate callback <;> simp [hcallback,Pump.held]
  exact {
    serving := h.serving.taken
    listening := fun _ => hlistening
    deaf := fun hp => absurd hp hne
    quiet := fun hp => absurd hp hne
    pending := fun _ => by
      simp only [Serving.State.taken,Serving.State.pending,Channel.tail_items,hnotices,
        List.tail_cons,hraised,List.append_assoc,List.singleton_append]
    taken := by
      simp only [Serving.State.taken,hraised]
      exact ⟨rest ++ s.connection.owner.batch,by simp⟩
    translated := fun hr => by
      have hbefore := h.translated hr
      rw [hidle] at hbefore
      simp only [Pump.held,List.append_nil] at hbefore
      simp only [List.filterMap_append,hheld,hbefore]
    delivered := by
      simp only [List.filterMap_append]
      exact h.delivered.trans (List.prefix_append _ _)
    disconnected := h.disconnected
    unheard := h.unheard
    service := h.service }

/-- Only `stop` says that the adapter is disconnected. -/
theorem Inv.disconnected_only (h : Inv gone s) {reason : DisconnectReason}
    (hmem : .disconnected reason ∈ s.received ++ s.events.items) :
    reason = .requested ∧ s.stop = .stopped := by
  by_cases hreason : reason = .requested
  · subst hreason
    have hcount := List.count_pos_iff.mpr hmem
    rw [h.disconnected] at hcount
    refine ⟨rfl,?_⟩
    by_contra hne
    rw [if_neg hne] at hcount
    exact absurd hcount (Nat.lt_irrefl 0)
  · have hreported : .disconnected reason ∈ reported (s.received ++ s.events.items) :=
      List.mem_filter.mpr ⟨hmem,by simpa using hreason⟩
    obtain ⟨callback,-,htranslate⟩ := List.mem_filterMap.mp (h.delivered.subset hreported)
    exact absurd htranslate (translate_ne_disconnected callback reason)

theorem Inv.push (h : Inv gone s) {event : AdapterEvent} (hheld : s.pump = .holding event)
    (hreceiving : s.receiving = true) (room : s.events.Room) :
    Inv gone { s with pump := .idle, events := s.events.push event room } := by
  have hlistening : s.connection.listening = true := h.listening (.inr (by simp [hheld,Pump.held]))
  have hne := h.held hheld hreceiving
  have hwhole : reported (s.received ++ (s.events.push event room).items) =
      s.taken.filterMap translate := by
    rw [Channel.push_items,← List.append_assoc,reported_append,reported_singleton hne,
      ← h.translated hreceiving,hheld,Pump.held]
  exact { h with
    listening := fun _ => hlistening
    deaf := nofun
    quiet := nofun
    pending := fun _ => h.pending (.inl hlistening)
    translated := fun _ => by
      simp only [Pump.held,List.append_nil]
      exact hwhole
    delivered := by
      show reported (s.received ++ (s.events.push event room).items) <+: _
      rw [hwhole]
    disconnected := by
      have hnone : [event].count (.disconnected .requested) = 0 :=
        List.count_eq_zero_of_not_mem (by simpa using hne.symm)
      rw [Channel.push_items,← List.append_assoc,List.count_append,hnone,Nat.add_zero,
        h.disconnected] }

theorem Inv.call (h : Inv gone s) (method : Method α) (hservice : s.stop = .inService) :
    Inv gone { s with connection := s.connection.call method } :=
  { h with
    serving := h.serving.call method
    service := fun _ => hservice }

/-- The pump ends with nothing left to forward. -/
theorem Inv.pumpEnds (h : Inv gone s) (hidle : s.pump = .idle)
    (hnotices : s.connection.notices.items = []) (hstopped : s.connection.owner = .stopped) :
    Inv gone { s with pump := .ended, connection := s.connection.deaf } := by
  have hpending : s.connection.pending = [] := by
    rw [Serving.State.pending,hnotices,hstopped]
    rfl
  exact { h with
    serving := h.serving.deaf
    listening := fun hp => by simp [Pump.held] at hp
    deaf := fun _ => rfl
    quiet := fun _ _ => hstopped
    pending := fun _ => by
      have hbefore := h.pending (.inl (h.listening (.inl hidle)))
      rw [hpending] at hbefore
      simp [Serving.State.deaf,Serving.State.pending,hstopped,Serving.Owner.batch,hbefore]
    translated := fun hr => by
      have hbefore := h.translated hr
      rwa [hidle] at hbefore }

theorem Inv.receive (h : Inv gone s) {event : AdapterEvent} {rest : List AdapterEvent}
    (hevents : s.events.items = event::rest) (hservice : s.stop = .inService) :
    Inv gone { s with events := s.events.tail, received := s.received ++ [event] } := by
  have hsame : s.received ++ [event] ++ s.events.tail.items = s.received ++ s.events.items :=
    received_tail s.received hevents
  exact { h with
    translated := fun hr => by
      simp only [hsame]
      exact h.translated hr
    delivered := by
      simp only [hsame]
      exact h.delivered
    disconnected := by
      simp only [hsame]
      exact h.disconnected
    unheard := fun reason hmem => by
      rcases List.mem_append.mp hmem with hmem | hmem
      · exact h.unheard reason hmem
      · have hwaits : .disconnected reason ∈ s.received ++ s.events.items := by
          rw [List.mem_singleton.mp hmem,hevents]
          simp
        have hstopped := (h.disconnected_only hwaits).2
        rw [hservice] at hstopped
        cases hstopped }

theorem Inv.disconnect (h : Inv gone s) (hstopping : s.stop = .stopping) (room : s.events.Room) :
    Inv gone { s with
      stop := .stopped
      events := s.events.push (.disconnected .requested) room } := by
  have hreported : reported (s.received ++ (s.events.push (.disconnected .requested) room).items) =
      reported (s.received ++ s.events.items) := by
    rw [Channel.push_items,← List.append_assoc,reported_append]
    simp [reported]
  exact { h with
    translated := fun hr => by
      simp only [hreported]
      exact h.translated hr
    delivered := by
      simp only [hreported]
      exact h.delivered
    disconnected := by
      have hbefore := h.disconnected
      rw [hstopping] at hbefore
      rw [Channel.push_items,← List.append_assoc,List.count_append,hbefore]
      rfl
    service := fun hbusy => by
      have hservice := h.service hbusy
      rw [hstopping] at hservice
      cases hservice }

theorem Inv.move (h : Inv gone s) (hmove : Move gone s s') : Inv gone s' := by
  cases hmove with
  | serve hstep => exact h.serve hstep
  | call method hservice _ => exact h.call method hservice
  | spawn hunspawned hlistening _ =>
    exact { h with
      listening := fun _ => hlistening
      deaf := nofun
      quiet := nofun
      pending := fun _ => h.pending (.inl hlistening)
      translated := fun hr => by
        have hbefore := h.translated hr
        rwa [hunspawned] at hbefore }
  | abandonStart hunspawned _ =>
    exact { h with
      serving := h.serving.deaf.hangUp
      listening := fun hp => by simp [hunspawned,Pump.held] at hp
      deaf := fun _ => rfl
      quiet := fun hp => by simp [hunspawned] at hp
      pending := fun hp => by simp [Serving.State.deaf,Serving.State.hangUp,hunspawned] at hp }
  | take hidle hnotices => exact h.take hidle hnotices
  | push hheld hreceiving room => exact h.push hheld hreceiving room
  | pumpFails _ hdropped =>
    exact { h with
      serving := h.serving.deaf
      listening := fun hp => by simp [Pump.held] at hp
      deaf := fun _ => rfl
      quiet := fun _ hr => by simp [hdropped] at hr
      pending := fun hp => by simp [Serving.State.deaf,hdropped] at hp
      translated := fun hr => by simp [hdropped] at hr }
  | pumpEnds hidle hnotices hstopped => exact h.pumpEnds hidle hnotices hstopped
  | receive hevents _ hservice _ => exact h.receive hevents hservice
  | stop _ hidle =>
    have hnone : s.stop ≠ .stopped := by simp_all
    exact { h with
      serving := h.serving.hangUp
      disconnected := by
        have hbefore := h.disconnected
        rw [if_neg hnone] at hbefore
        exact hbefore
      service := fun hbusy => absurd hbusy hidle }
  | disconnect hstopping room => exact h.disconnect hstopping room
  | drop _ =>
    exact { h with
      quiet := nofun
      pending := fun hp => h.pending (hp.imp_right fun hp => by cases hp.2)
      translated := nofun }

/-- Somebody who gives up was the only one who could have been waiting. -/
theorem busy_of_leave {c : Connection α} {i : ℕ} (hbusy : (c.leave i).Busy) : c.Busy := by
  obtain ⟨d,hd,hstays,hover⟩ := hbusy
  obtain ⟨j,hj⟩ := List.getElem?_of_mem hd
  rw [Serving.State.leave,List.getElem?_modify] at hj
  obtain ⟨e,he,rfl⟩ := Option.map_eq_some_iff.mp hj
  refine ⟨e,List.mem_of_getElem? he,?_⟩
  split at hstays
  · cases hstays
  · split at hover
    · contradiction
    · exact ⟨hstays,hover⟩

theorem Inv.step (h : Inv gone s) (hstep : Step gone s s') : Inv gone s' := by
  cases hstep with
  | move hmove => exact h.move hmove
  | leave i =>
    exact { h with
      serving := h.serving.leave i
      service := fun hbusy => h.service (busy_of_leave hbusy) }

theorem Reachable.inv (h : Reachable gone s) : Inv gone s := by
  induction h with
  | refl => exact .new
  | tail _ hstep ih => exact ih.step hstep

end Keeping

section Sessions

variable {gone : EzspError}

theorem Reachable.serve {s : State α} {connection : Connection α} (h : Reachable gone s)
    (hrun : Relation.ReflTransGen (Serving.Step (closed gone)) s.connection connection) :
    Reachable gone { s with connection := connection } := by
  induction hrun with
  | refl => exact h
  | tail _ hstep ih => exact ih.tail (.move (.serve hstep))

/-- A session in which `start` has yet to do its work. -/
def session (connection : Connection α) : State α := { (new : State α) with connection := connection }

theorem reachable_session {connection connection' : Connection α}
    (h : Reachable gone (session connection))
    (hrun : Relation.ReflTransGen (Serving.Step (closed gone)) connection connection') :
    Reachable gone (session connection') := h.serve hrun

/-- The NCP's task once it has been told something before anything was asked of it. -/
def raising (batch : List Callback) : Connection α :=
  { (.new : Connection α) with owner := .handing batch, raised := batch }

theorem reachable_raising (batch : List Callback) :
    Reachable gone (session (raising batch) : State α) := by
  have hpoll : Serving.Step (closed gone) (.new : Connection α) { (.new : Connection α) with
      owner := .polling } := .poll rfl rfl rfl
  have hpolled : Serving.Step (closed gone) ({ (.new : Connection α) with owner := .polling })
      (raising batch) := .polled batch rfl
  exact reachable_session .refl (.tail (.single hpoll) hpolled)

/-- A channel that is full of callbacks. -/
def full : Channel Callback requestDepth := ⟨List.replicate requestDepth .other,by decide⟩

/-- The NCP's task with one callback more than the channel holds, and nobody to receive. -/
def overflowing : Connection α :=
  { (raising (List.replicate requestDepth .other ++ [.other]) : Connection α) with
    owner := .handing [.other]
    notices := full }

theorem reachable_overflowing : Reachable gone (session overflowing : State α) :=
  reachable_session (reachable_raising (List.replicate requestDepth .other ++ [.other]))
    (Serving.forwards rfl rfl rfl)

theorem not_busy_overflowing : ¬ (session overflowing : State α).Busy := by
  rintro ⟨c,hc,-⟩
  cases hc

/-- A method is the first thing called. -/
def calling (method : Method α) : Connection α := (Serving.State.new : Connection α).call method

theorem not_busy_new : ¬ (new : State α).Busy := by
  rintro ⟨c,hc,-⟩
  cases hc

theorem reachable_calling (method : Method α) : Reachable gone (session (calling method)) :=
  .single (.move (.call method rfl not_busy_new))

/-- A method of one command, once it has been answered. -/
def answered (q : EzspCommand) (next : q.Response → Method α) (r : q.Response) : Connection α :=
  { (.new : Connection α) with
    callers := [{ method := .ask q next, program := next r, heard := [⟨q,r⟩] }]
    accepted := [(0,q)]
    served := [(0,⟨q,r⟩)] }

theorem reachable_answered (q : EzspCommand) (next : q.Response → Method α) (r : q.Response) :
    Reachable gone (session (answered q next r)) := by
  let caller : Serving.Caller EzspCommand EzspCommand.Response AdapterError α :=
    { method := .ask q next }
  have room : (calling (.ask q next)).requests.Room := show 0 < requestDepth by decide
  let sent : Connection α := { calling (.ask q next) with
    callers := [{ caller with queued := true }]
    requests := (calling (.ask q next)).requests.push (0,q) room
    accepted := [(0,q)] }
  let running : Connection α := { sent with
    owner := .running 0 q
    requests := sent.requests.tail }
  have hopen : (calling (.ask q next)).owner ≠ .stopped := nofun
  have hfirst : (calling (.ask q next)).callers[0]? = some caller := rfl
  have hask : caller.program = .ask q next := rfl
  have hsend : Serving.Step (closed gone) (calling (.ask q next)) sent :=
    .send hfirst hask rfl rfl hopen room
  have hstart : Serving.Step (closed gone) sent running := .start rfl rfl
  have hwaits : running.callers[0]? = some { caller with queued := true } := rfl
  have hanswer : Serving.Step (closed gone) running (answered q next r) :=
    .answer r [] rfl hwaits rfl hask
  exact reachable_session (reachable_calling _) (.tail (.tail (.single hsend) hstart) hanswer)

/-- The NCP is gone before anything was asked of it. -/
def losing : Connection α := { (.new : Connection α) with owner := .stopped }

theorem reachable_losing : Reachable gone (session losing : State α) := by
  have hpoll : Serving.Step (closed gone) (.new : Connection α) { (.new : Connection α) with
      owner := .polling } := .poll rfl rfl rfl
  have hlost : Serving.Step (closed gone) ({ (.new : Connection α) with owner := .polling })
      losing := .lost rfl
  exact reachable_session .refl (.tail (.single hpoll) hlost)

end Sessions

section Results

variable {gone : EzspError} {s : State α}

/-- Every command accepted for the NCP reaches it once and in turn, unless its task ends first; a
method that has returned put to it exactly the commands it would put to an NCP of its own that
answers the same, and returns the same. -/
theorem methods_over_connection (h : Reachable gone s) :
    s.connection.served.map Serving.asked <+: s.connection.accepted ∧
    (s.connection.owner ≠ .stopped → s.connection.accepted =
      s.connection.served.map Serving.asked ++ s.connection.outstanding) ∧
    ∀ (i : ℕ) c r, s.connection.callers[i]? = some c → c.gone = false → c.program = .done r →
      ∃ refused : List EzspCommand,
        c.heard = s.connection.answersTo i ++ refused.map (fun q => ⟨q,closed gone q⟩) ∧
        (refused ≠ [] → s.connection.owner = .stopped) ∧
        ∀ peer : (q : EzspCommand) → q.Response, (∀ x ∈ c.heard, x.2 = peer x.1) →
          c.method.result peer = r ∧ c.method.issued peer = c.heard.map Sigma.fst := by
  have hserving := h.inv.serving
  refine ⟨hserving.started,hserving.order,fun i c r hc hstays hdone => ?_⟩
  obtain ⟨refused,hheard,hrefused⟩ := hserving.answered i c hc hstays
  refine ⟨refused,hheard,hrefused,fun peer hpeer => ?_⟩
  obtain ⟨hresult,hissued⟩ := (hserving.told i c hc).result hpeer
  rw [hdone] at hresult hissued
  exact ⟨hresult,by simpa using hissued⟩

/-- An NCP that takes every frame. -/
def taking : (q : EzspCommand) → q.Response
  | .bringup _ => .error "unexpected"
  | .service _ => .error "unexpected"
  | .send _ => .ok ⟨0⟩

/-- Its transmission, once the NCP has taken it. -/
def transmitted : Connection (Option ZclRx) :=
  answered (.send (EmberAdapter.zclFrame ⟨8⟩ request))
    (fun r => ofSend do
      (match r with
        | .error e => .done (.error (context "cannot send the ZCL frame" e))
        | .ok status => .done (check rsezsp "sending the ZCL frame" status) : Transmission Unit)
      pure none) (.ok ⟨0⟩)

theorem reachable_transmitted : Reachable "closed" (session transmitted) :=
  reachable_answered _ _ _

theorem transmitted_over_connection :
    (ofSend (connected.sendZcl rsezsp ⟨7⟩ request).2).issued taking =
      [.send (EmberAdapter.zclFrame ⟨8⟩ request)] := by
  obtain ⟨-,-,hreturned⟩ := methods_over_connection reachable_transmitted
  obtain ⟨_,-,-,hpeer⟩ := hreturned 0 _ _ rfl rfl rfl
  exact (hpeer taking fun x hx => by rw [List.mem_singleton.mp hx]; rfl).2

/-- What the NCP raises reaches the runtime in order and once, as far as it has come; while the
runtime receives and the pump has not been dropped with a failed start, none of it is lost. -/
theorem callbacks_in_order (h : Reachable gone s) :
    reported s.received <+: s.connection.raised.filterMap translate ∧
    (s.receiving = true → s.connection.listening = true ∨ s.pump = .ended →
      reported (s.received ++ s.events.items) ++ s.pump.held ++
        s.connection.pending.filterMap translate = s.connection.raised.filterMap translate) := by
  have hinv := h.inv
  constructor
  · have hreceived : reported s.received <+: reported (s.received ++ s.events.items) := by
      rw [reported_append]
      exact List.prefix_append _ _
    exact (hreceived.trans hinv.delivered).trans (hinv.taken.filterMap translate)
  · intro hreceiving hpump
    rw [hinv.translated hreceiving,hinv.pending (hpump.imp_right fun hp => ⟨hp,hreceiving⟩),
      List.filterMap_append]

theorem joined_in_order :
    (raising [.trustCenterJoin 0x1234 (Vector.replicate 8 1) 0x01,.other,
        .trustCenterJoin 0x1234 (Vector.replicate 8 1) 0x02] :
      Connection Unit).pending.filterMap translate =
      [.deviceJoined (some (euiToIeee (Vector.replicate 8 1))) ⟨0x1234⟩,
        .deviceLeft (some (euiToIeee (Vector.replicate 8 1))) (some ⟨0x1234⟩)] := by
  have hreached : Reachable "closed" (session (raising [
      .trustCenterJoin 0x1234 (Vector.replicate 8 1) 0x01,.other,
      .trustCenterJoin 0x1234 (Vector.replicate 8 1) 0x02]) : State Unit) := reachable_raising _
  exact (callbacks_in_order hreached).2 rfl (.inl rfl)

/-- Losing the NCP is reported to no runtime: whatever ends its task, the runtime never receives
a `Disconnected`; the only one ever queued is the one `stop` queues. -/
theorem loss_unreported (h : Reachable gone s) (reason : DisconnectReason) :
    .disconnected reason ∉ s.received ∧
    (.disconnected reason ∈ s.events.items → reason = .requested ∧ s.stop = .stopped) :=
  ⟨h.inv.unheard reason,fun hmem => h.inv.disconnected_only (List.mem_append_right _ hmem)⟩

theorem lost_unreported : .disconnected .serialClosed ∉ (session losing : State Unit).received := by
  have hreached : Reachable "closed" (session losing : State Unit) := reachable_losing
  exact (loss_unreported hreached .serialClosed).1

/-- A full queue nobody reads from stays full, and whoever waits for room in it waits. -/
theorem stopping_step {s' : State α} (hstopping : s.stop = .stopping) (hfull : ¬ s.events.Room)
    (hstep : Step gone s s') : s'.stop = .stopping ∧ ¬ s'.events.Room := by
  cases hstep with
  | leave i => exact ⟨hstopping,hfull⟩
  | move hmove =>
    cases hmove with
    | push _ _ room => exact absurd room hfull
    | receive _ _ hservice => simp [hstopping] at hservice
    | stop hservice => simp [hstopping] at hservice
    | disconnect _ room => exact absurd room hfull
    | _ => exact ⟨hstopping,hfull⟩

/-- `stop` can return exactly as long as the runtime's queue has room for what it says there; once
the queue is full it never does, for the runtime that would make room is waiting for it. -/
theorem stop_returns_iff (hstopping : s.stop = .stopping) :
    (∃ s', Relation.ReflTransGen (Step gone) s s' ∧ s'.stop = .stopped) ↔ s.events.Room := by
  constructor
  · rintro ⟨s',hrun,hstopped⟩
    by_contra hfull
    have hwaits : s'.stop = .stopping ∧ ¬ s'.events.Room := by
      clear hstopped
      induction hrun with
      | refl => exact ⟨hstopping,hfull⟩
      | tail _ hstep ih => exact stopping_step ih.1 ih.2 hstep
    rw [hwaits.1] at hstopped
    cases hstopped
  · intro room
    exact ⟨_,.single (.move (.disconnect hstopping room)),rfl⟩

/-- What the NCP has raised is queued for a runtime that does not receive. -/
theorem Reachable.queued {batch : List Callback} (h : Reachable gone s)
    (hservice : s.stop = .inService) (hbusy : ¬ s.Busy) (hpump : s.pump = .idle)
    (hreceiving : s.receiving = true) (hlistening : s.connection.listening = true)
    (hnotices : s.connection.notices.items = []) (howner : s.connection.owner = .handing batch)
    (hevents : ∀ c ∈ batch, (translate c).isSome = true)
    (hroom : s.events.items.length + batch.length ≤ eventDepth) :
    ∃ s' : State α, Reachable gone s' ∧ s'.stop = .inService ∧ ¬ s'.Busy ∧
      s'.events.items.length = s.events.items.length + batch.length := by
  induction batch generalizing s with
  | nil => exact ⟨s,h,hservice,hbusy,rfl⟩
  | cons callback rest ih =>
    obtain ⟨event,hevent⟩ := Option.isSome_iff_exists.mp (hevents callback List.mem_cons_self)
    have hnotice : s.connection.notices.Room := by
      rw [Channel.Room,hnotices]
      decide
    have hspace : s.events.Room := by
      rw [Channel.Room]
      rw [List.length_cons] at hroom
      omega
    -- The callback goes to the pump, and what it becomes goes into the runtime's queue.
    let forwarded : State α := { s with
      connection := { s.connection with
        owner := .handing rest
        notices := s.connection.notices.push callback hnotice } }
    let held : State α := { forwarded with
      connection := forwarded.connection.taken
      pump := .holding event
      taken := s.taken ++ [callback] }
    have hforward : Move gone s forwarded := .serve (.forward howner hlistening hnotice)
    have htake : Move gone forwarded held := by
      have hwaits : forwarded.connection.notices.items = callback::[] := by
        simp [forwarded,hnotices]
      have hmove := @Move.take _ gone forwarded _ _ hpump hwaits
      rwa [hevent] at hmove
    have hpush : Move gone held { held with
        pump := .idle
        events := held.events.push event hspace } := .push (s := held) rfl hreceiving hspace
    have hempty : held.connection.notices.items = [] := by
      simp [held,forwarded,Serving.State.taken,hnotices]
    obtain ⟨s',hreached,hservice',hbusy',hlength⟩ := ih
      (((h.tail (.move hforward)).tail (.move htake)).tail (.move hpush)) hservice hbusy rfl
      hreceiving hlistening hempty rfl (fun c hc => hevents c (List.mem_cons_of_mem _ hc)) (by
        simp only [held,forwarded,Channel.push_items,List.length_append,List.length_cons,
          List.length_nil] at hroom ⊢
        omega)
    refine ⟨s',hreached,hservice',hbusy',hlength.trans ?_⟩
    simp only [held,forwarded,Channel.push_items,List.length_append,List.length_cons,
      List.length_nil]
    omega

/-- The runtime's queue fills with messages it does not receive, and then it stops. -/
theorem stop_waits : ∃ s : State Unit, Reachable "closed" s ∧ s.stop = .stopping ∧
    ¬ ∃ s', Relation.ReflTransGen (Step "closed") s s' ∧ s'.stop = .stopped := by
  let raised := List.replicate eventDepth (Callback.incomingMessage
    ⟨0,0x8005,0,0,[],0,0⟩ 0x1234 [] 0xff)
  have hraised : Reachable "closed" (session (raising raised) : State Unit) :=
    reachable_raising raised
  have hidle : ¬ (session (raising raised) : State Unit).Busy := by
    rintro ⟨c,hc,-⟩
    cases hc
  have hspawned : Reachable "closed" { (session (raising raised) : State Unit) with
      pump := .idle } := hraised.tail (.move (.spawn rfl rfl hidle))
  obtain ⟨s,hreached,hservice,hbusy,hlength⟩ := hspawned.queued rfl hidle rfl rfl rfl rfl rfl
    (fun c hc => by rw [List.eq_of_mem_replicate hc]; rfl)
    (by
      show 0 + raised.length ≤ eventDepth
      rw [List.length_replicate,Nat.zero_add])
  have hfull : s.events.items.length = eventDepth := by
    rw [hlength,List.length_replicate]
    exact Nat.zero_add _
  refine ⟨_,hreached.tail (.move (.stop hservice hbusy)),rfl,?_⟩
  rw [stop_returns_iff rfl]
  show ¬ s.events.items.length < eventDepth
  rw [hfull]
  exact Nat.lt_irrefl _

end Results

end Link
end Ember
end Rszigbee
