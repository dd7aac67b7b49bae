import Rszigbee.Effects
import Mathlib.Logic.Relation

/-! What a turn of the loop does to the device table, the stored records, the events and
the interviews. Most of it only notes something beside the record of a device; the few
operations that change what is on record are named. -/
namespace Rszigbee

/-- What the runtime notes about a device beside its record. -/
inductive Mark
  | heard (seen : SystemTime)
  | transmitted (time : Instant) (result : Except TxFailure Unit)
  | probed (time : Instant) (result : ProbeResult)
  | link (quality : Option UInt8)

def Mark.write : Mark → Entry → Entry
  | heard seen, e => { e with
      info := { e.info with lastSeen := some seen }
      reachability := e.reachability.recordTraffic seen }
  | transmitted time result, e => { e with reachability := e.reachability.recordTx time result }
  | probed time result, e => { e with reachability := e.reachability.recordProbe time result }
  | link quality, e => { e with
      info := { e.info with linkQuality := quality <|> e.info.linkQuality } }

/-- A verdict, written into an entry. -/
def Assessment.write (a : Assessment) (e : Entry) : Entry :=
  { e with reachability := { e.reachability with state := a.verdict }, nextCheck := a.next }

/-- Events that are about no device's membership, address or reachability. -/
def Event.isNeutral {E : Engine} : Event E → Bool
  | .deviceJoined .. | .deviceLeft .. | .deviceAddressChanged .. | .reachabilityChanged .. => false
  | _ => true

/-- The part of the state that is about devices. -/
structure View (E : Engine) where
  coordinator : Ieee
  interviewOnJoin : Bool
  devices : Inventory
  stored : Table Ieee PersistedDevice
  events : List (Event E)
  interviews : List (Ieee × Option ℕ)

namespace View

variable {E : Engine}

def modify (v : View E) (ieee : Ieee) (f : Entry → Entry) : View E :=
  { v with devices := v.devices.modify ieee f }

def note (v : View E) (event : Event E) : View E := { v with events := v.events ++ [event] }

/-- A verdict on a device, with the event that reports a change. -/
def assess (v : View E) (ieee : Ieee) (previous : Reachability) (a : Assessment)
    (evidence : Evidence) : View E :=
  let v := v.modify ieee a.write
  if previous ≠ a.verdict then v.note (.reachabilityChanged ieee previous a.verdict evidence) else v

def persist (v : View E) (ieee : Ieee) (answer : WriteAnswer) : View E :=
  match v.devices.get ieee with
  | none => v
  | some entry =>
    if answer.effective then
      { v with stored := v.stored.insert entry.info.ieee (persistedFromEntry entry) }
    else v

def readdress (v : View E) (ieee : Ieee) (nwk : Nwk) : View E :=
  match v.devices.setNwk ieee nwk with
  | (devices,some previous) =>
    { v with devices := devices }.note (.deviceAddressChanged ieee previous nwk)
  | (devices,none) => { v with devices := devices }

def enrol (v : View E) (ieee : Ieee) (nwk : Nwk) (wall : SystemTime) : View E :=
  { v with devices := v.devices.insert (newEntry ieee nwk wall) }.note (.deviceJoined ieee nwk)

/-- A device announces itself: known ones are readdressed, others admitted. -/
def arrive (v : View E) (ieee : Ieee) (nwk : Nwk) (wall : SystemTime) : View E :=
  if (v.devices.get ieee).isSome then (v.readdress ieee nwk).note (.deviceAnnounced ieee)
  else v.enrol ieee nwk wall

def expel (v : View E) (ieee : Ieee) (answer : WriteAnswer) : View E :=
  { v with
    devices := (v.devices.remove ieee).1
    stored := if answer.effective then v.stored.erase ieee else v.stored }.note
      (.deviceLeft ieee .unknown)

def spawn (v : View E) (ieee : Ieee) (reply : Option ℕ) : View E :=
  { v with interviews := v.interviews ++ [(ieee,reply)] }

/-- An announced device that is not interviewed yet is, if the runtime is to do that. -/
def invite (v : View E) (ieee : Ieee) : View E :=
  if v.interviewOnJoin ∧ (v.devices.get ieee).any (·.info.interview ≠ .successful) then
    v.spawn ieee none
  else v

/-- One change that leaves every record as it is: a mark among the allowed ones, a verdict, or
a neutral event. -/
inductive Aside (allowed : Ieee → Mark → Prop) : View E → View E → Prop
  | mark (v : View E) {ieee : Ieee} {m : Mark} (h : allowed ieee m) :
    Aside allowed v (v.modify ieee m.write)
  | assess (v : View E) {ieee : Ieee} {e : Entry} (h : v.devices.get ieee = some e)
      (a : Assessment) (evidence : Evidence) :
    Aside allowed v (v.assess ieee e.reachability.state a evidence)
  | note (v : View E) {event : Event E} (h : event.isNeutral = true) :
    Aside allowed v (v.note event)

/-- Any number of such changes. -/
abbrev Path (allowed : Ieee → Mark → Prop) : View E → View E → Prop :=
  Relation.ReflTransGen (Aside allowed)

/-- What every change keeps, a path keeps. -/
theorem Path.invariant {allowed : Ieee → Mark → Prop} {P : View E → Prop} {v v' : View E}
    (h : Path allowed v v') (hstep : ∀ w w', Aside allowed w w' → P w → P w') (hv : P v) :
    P v' := by
  induction h with
  | refl => exact hv
  | tail _ hlast ih => exact hstep _ _ hlast ih

end View

namespace Task

open View

variable {E : Engine}

def view (t : Task E) : View E where
  coordinator := t.coordinator
  interviewOnJoin := t.interviewOnJoin
  devices := t.devices
  stored := t.store.devices
  events := t.events
  interviews := t.interviews

/-- What it is read from. -/
def Part.view : List Part := [.coordinator,.interviewOnJoin,.devices,.stored,.events,.interviews]

theorem restsOn_view : RestsOn see Part.view (view (E := E)) := by
  intro t u h
  have hcoordinator : u.coordinator = t.coordinator := h .coordinator (by decide)
  have hjoin : u.interviewOnJoin = t.interviewOnJoin := h .interviewOnJoin (by decide)
  have hdevices : u.devices = t.devices := h .devices (by decide)
  have hstored : u.store.devices = t.store.devices := h .stored (by decide)
  have hevents : u.events = t.events := h .events (by decide)
  have hinterviews : u.interviews = t.interviews := h .interviews (by decide)
  simp only [view,hcoordinator,hjoin,hdevices,hstored,hevents,hinterviews]

section Asides

variable {allowed : Ieee → Mark → Prop}

theorem path_emit (t : Task E) {event : Event E} (h : event.isNeutral = true) :
    Path allowed t.view (t.emit event).view := .single (.note t.view h)

theorem path_assess (t : Task E) (ieee : Ieee) (evidence : Evidence) (env : Env) :
    Path allowed t.view (t.assess ieee evidence env).view := by
  rw [Task.assess]
  cases he : t.devices.get ieee with
  | none => exact .refl
  | some e =>
    let a := t.reachability {
      device := e.info
      current := e.reachability
      now := env.assessedAt
      wallNow := env.assessedWall }
    have hstep : Aside allowed t.view (t.view.assess ieee e.reachability.state a evidence) :=
      .assess t.view he a evidence
    refine .single ?_
    convert hstep using 1
    dsimp only
    rw [View.assess]
    split <;> rfl

theorem path_mark (t : Task E) {ieee : Ieee} {m : Mark} (h : allowed ieee m) :
    Path allowed t.view (t.modifyDevice ieee m.write).view := .single (.mark t.view h)

theorem path_touch (t : Task E) {ieee : Ieee} {seen : SystemTime} (reason : LastSeenReason)
    (env : Env) (h : allowed ieee (.heard seen)) :
    Path allowed t.view (t.touch ieee seen reason env).view := by
  rw [touch]
  split
  · exact .refl
  · have hmark := t.path_mark h
    let u := t.modifyDevice ieee (Mark.heard seen).write
    have hnote : Path allowed u.view (u.emit (.lastSeenChanged ieee seen reason)).view :=
      path_emit u rfl
    exact (hmark.trans hnote).trans (path_assess _ _ _ _)

theorem path_recordTx (t : Task E) {ieee : Ieee} {now : Instant} {result : Except TxFailure Unit}
    (env : Env) (h : allowed ieee (.transmitted now result)) :
    Path allowed t.view (t.recordTx ieee now result env).view :=
  (t.path_mark h).trans (path_assess _ _ _ _)

theorem path_probe (t : Task E) {ieee : Ieee} (allowRecovery : Bool) {env : Env}
    (h : allowed ieee (.probed env.now (probeResult env.sendZcl))) :
    Path allowed t.view (t.probe ieee allowRecovery env).view := by
  rw [probe]
  cases t.devices.get ieee with
  | none => exact .refl
  | some entry =>
    dsimp only
    refine .trans ?_ (path_assess _ _ _ _)
    exact (t.transmitZcl .probe 0 _ env).path_mark h

/-- A due check marks its device only when it probes it. -/
theorem path_runCheck (t : Task E) {ieee : Ieee} {next : NextCheck} {env : Env}
    (h : ∀ due attempts recover, next = .probe due attempts recover →
      allowed ieee (.probed env.now (probeResult env.sendZcl))) :
    Path allowed t.view (t.runCheck ieee next env).view := by
  cases next with
  | probe due attempts recover => exact t.path_probe recover (h due attempts recover rfl)
  | reassess due => exact path_assess _ _ _ _
  | awaitTraffic => exact .refl

theorem path_runChecks (due : List (Ieee × NextCheck)) (t : Task E) (env : ℕ → Env)
    (h : ∀ k ieee time attempts recover, due[k]? = some (ieee,.probe time attempts recover) →
      allowed ieee (.probed (env k).now (probeResult (env k).sendZcl))) :
    Path allowed t.view (runChecks due t env).view := by
  induction due generalizing t env with
  | nil => exact .refl
  | cons d due ih =>
    obtain ⟨ieee,next⟩ := d
    rw [runChecks]
    have hfirst : Path allowed t.view (t.runCheck ieee next (env 0)).view := by
      refine t.path_runCheck fun time attempts recover hnext => ?_
      exact h 0 ieee time attempts recover (by rw [hnext]; rfl)
    have hrest := ih (t.runCheck ieee next (env 0)) (fun k => env (k+1))
      fun k i time attempts recover hk => h (k+1) i time attempts recover hk
    exact hfirst.trans hrest

/-- What the adapter's answer to a command says about the device, if anything. -/
def commandEvidence : Except AdapterError (Option ZclRx) → Option (Except TxFailure Unit)
  | .ok _ => some (.ok ())
  | .error (.tx failure) => some (.error failure)
  | .error _ => none

theorem path_commandResult (t : Task E) (ieee : Ieee) (env : Env)
    (h : ∀ result, commandEvidence env.sendZcl = some result →
      allowed ieee (.transmitted env.now result)) :
    Path allowed t.view (t.commandResult ieee env).1.view := by
  rw [commandResult]
  cases hsend : env.sendZcl with
  | ok response => exact t.path_recordTx env (h (.ok ()) (by rw [hsend]; rfl))
  | error e =>
    cases e with
    | tx failure =>
      have hrecord := t.path_recordTx env (h (.error failure) (by rw [hsend]; rfl))
      exact hrecord.trans (path_emit _ rfl)
    | _ => exact .refl

/-- The frame that carries out a command, when there is one to send. -/
def commandTx (t : Task E) (ieee : Ieee) (command : DeviceCommand E) : Option ZclTx :=
  let tsn := t.zclSequence + 1
  match t.devices.get ieee,(planCommandFrame { t with zclSequence := tsn } ieee command tsn).2 with
  | some entry,.ok (requested,cluster,frame) =>
    match commandEndpoint entry.info.endpoints requested cluster with
    | .ok endpoint => some {
        dest := .unicast ieee entry.info.nwk
        endpoint := endpoint
        sourceEndpoint := ⟨1⟩
        profile := .ha
        cluster := cluster
        frame := frame }
    | .error _ => none
  | _,_ => none

/-- A command either sends nothing, or is judged by what the adapter makes of its frame. -/
theorem runCommand_cases (t : Task E) (ieee : Ieee) (command : DeviceCommand E) (reply : ℕ)
    (env : Env) :
    (t.commandTx ieee command = none ∧ (t.runCommand ieee command reply env).1.view = t.view) ∨
    ∃ (tx : ZclTx) (u : Task E), t.commandTx ieee command = some tx ∧ u.view = t.view ∧
      (t.runCommand ieee command reply env).1 = (u.commandResult ieee env).1 := by
  rw [commandTx,runCommand]
  cases t.devices.get ieee with
  | none => exact Or.inl ⟨rfl,rfl⟩
  | some entry =>
    dsimp only
    have hplan := ((t.alters_zclSequence (t.zclSequence + 1)).trans (alters_planCommandFrame _ ieee
      command (t.zclSequence + 1))).keeps restsOn_view (by decide)
    generalize planCommandFrame { t with zclSequence := t.zclSequence + 1 } ieee command
      (t.zclSequence + 1) = planned at hplan
    obtain ⟨u,result⟩ := planned
    cases result with
    | error e => exact Or.inl ⟨rfl,hplan⟩
    | ok plan =>
      obtain ⟨requested,cluster,frame⟩ := plan
      dsimp only
      cases commandEndpoint entry.info.endpoints requested cluster with
      | error e => exact Or.inl ⟨rfl,hplan⟩
      | ok endpoint =>
        exact Or.inr ⟨_,u.transmitZcl (.command reply) (t.zclSequence + 1) _ env,rfl,hplan,rfl⟩

theorem path_runCommand (t : Task E) (ieee : Ieee) (command : DeviceCommand E) (reply : ℕ)
    (env : Env) (h : ∀ result, t.commandTx ieee command ≠ none →
      commandEvidence env.sendZcl = some result → allowed ieee (.transmitted env.now result)) :
    Path allowed t.view (t.runCommand ieee command reply env).1.view := by
  rcases t.runCommand_cases ieee command reply env with ⟨-,hview⟩ | ⟨tx,u,htx,hview,hrun⟩
  · rw [hview]
  · rw [hrun,← hview]
    refine u.path_commandResult ieee env fun result hresult => h result ?_ hresult
    simp [htx]

theorem path_publish (t : Task E) (ieee : Ieee) (rx : ZclRx) (kind : ZclMessageKind) :
    Path allowed t.view (t.publish ieee rx kind).view := by
  rcases t.publish_cases ieee rx kind with h | ⟨_,_,h⟩ | ⟨_,_,_,h⟩
  · rw [h]
  · rw [h]
    exact t.path_emit rfl
  · rw [h]
    exact t.path_emit rfl

theorem path_reportZcl (t : Task E) {ieee : Ieee} (rx : ZclRx) {env : Env}
    (h : allowed ieee (.heard env.wall)) :
    Path allowed t.view (t.reportZcl ieee rx env).view := by
  rw [reportZcl]
  have hota : (if rx.cluster = otaCluster then t.answerOtaQuery ieee rx env else t).view =
      t.view := by
    split
    · exact (t.alters_answerOtaQuery ieee rx env).keeps restsOn_view (by decide)
    · rfl
  rw [← hota]
  generalize (if rx.cluster = otaCluster then t.answerOtaQuery ieee rx env else t) = u
  split
  · exact ((u.path_touch .message env h).trans (path_publish _ _ _ _)).trans (path_emit _ rfl)
  · exact (u.path_touch .messageWithoutPayload env h).trans (path_emit _ rfl)

end Asides

end Task
end Rszigbee
