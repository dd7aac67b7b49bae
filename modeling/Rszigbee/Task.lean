import Rszigbee.Inventory
import Rszigbee.Messages

/-! The runtime task: the single owner of the adapter.
Each request, adapter event and tick is handled to its end before the next one.
What leaves the task (events, replies, transmissions) is kept in the state, in
order. A handler takes the answers of the outside world as an `Env`; one that
makes the same call several times takes a sequence of them. -/
namespace Rszigbee

/-- How long a request waits for its response. -/
def zdoTimeout : Duration := .fromSecs 5

/-- A request awaiting its response. -/
structure Waiter where
  reply : ℕ
  ieee : Ieee
  deadline : Instant
  deriving DecidableEq

abbrev PendingZdo := Waiter
abbrev PendingZcl := Waiter

structure Task (E : Engine) where
  reachability : ReachabilityPolicy
  interviewOnJoin : Bool
  coordinator : Ieee
  networkKnown : Bool
  persistedFrameCounter : UInt32 := 0
  devices : Inventory
  pendingZdo : Table (ZdoClusterId × UInt8) PendingZdo := ∅
  pendingZcl : Table (ClusterId × UInt8) PendingZcl := ∅
  zdoSequence : UInt8 := 0
  zclSequence : UInt8 := 0
  tuyaSequence : UInt16 := 0
  registry : E.Registry
  store : Store
  stopped : Bool := false
  events : List (Event E) := []
  requests : List (Request E) := []
  replies : List (Answer E) := []
  sentZdo : List (Sent ZdoTx) := []
  sentZcl : List (Sent ZclTx) := []
  interviews : List (Ieee × Option ℕ) := []
  abandoned : List ℕ := []

namespace Task

variable {E : Engine}

def emit (t : Task E) (event : Event E) : Task E := { t with events := t.events ++ [event] }

/-- Sends on a reply channel. -/
def answer (t : Task E) (id : ℕ) (reply : Reply E) (cause : Cause) : Task E :=
  { t with replies := t.replies ++ [⟨id,reply,cause⟩] }

def modifyDevice (t : Task E) (ieee : Ieee) (f : Entry → Entry) : Task E :=
  { t with devices := t.devices.modify ieee f }

/-- The definition for a device, from what the interview learned. -/
def resolve (t : Task E) (ieee : Ieee) : Option E.Definition :=
  (t.devices.get ieee).bind fun e => E.resolve e.info

section Availability

/-- Asks the policy for a verdict and emits a change only if there was one. -/
def assess (t : Task E) (ieee : Ieee) (evidence : Evidence) (env : Env) : Task E :=
  match t.devices.get ieee with
  | none => t
  | some entry =>
    let assessment := t.reachability {
      device := entry.info
      current := entry.reachability
      now := env.assessedAt
      wallNow := env.assessedWall }
    let previous := entry.reachability.state
    let t := t.modifyDevice ieee fun e =>
      { e with
        reachability := { e.reachability with state := assessment.verdict }
        nextCheck := assessment.next }
    if previous ≠ assessment.verdict then
      t.emit (.reachabilityChanged ieee previous assessment.verdict evidence)
    else t

/-- Records that a frame arrived, and re-assesses reachability. -/
def touch (t : Task E) (ieee : Ieee) (seen : SystemTime) (reason : LastSeenReason) (env : Env) :
    Task E :=
  match t.devices.get ieee with
  | none => t
  | some _ =>
    let t := t.modifyDevice ieee fun e =>
      { e with
        info := { e.info with lastSeen := some seen }
        reachability := e.reachability.recordTraffic seen }
    (t.emit (.lastSeenChanged ieee seen reason)).assess ieee .traffic env

def recordTx (t : Task E) (ieee : Ieee) (now : Instant) (result : Except TxFailure Unit)
    (env : Env) : Task E :=
  let t := t.modifyDevice ieee fun e =>
    { e with reachability := e.reachability.recordTx now result }
  t.assess ieee (match result with
    | .ok () => .commandAcked
    | .error failure => .commandFailed failure) env

def probeCluster : ClusterId := ⟨0x0000⟩

/-- `encode::read_attributes`. -/
def readAttributes (tsn : UInt8) (attributes : List AttrId) : Bytes :=
  ZclFrame.encode ⟨.global tsn ⟨0x00⟩,attributes.flatMap fun a => le16 a.raw⟩

/-- `encode::probe`: a read of `genBasic.zclVersion`. -/
def probeFrame (tsn : UInt8) : Bytes := readAttributes tsn [⟨0x0000⟩]

/-- The adapter takes a ZCL frame. -/
def transmitZcl (t : Task E) (purpose : Purpose) (sequence : UInt8) (tx : ZclTx)
    (env : Env) : Task E :=
  { t with sentZcl := t.sentZcl ++ [⟨purpose,sequence,tx,env.now⟩] }

def transmitZdo (t : Task E) (purpose : Purpose) (sequence : UInt8) (tx : ZdoTx)
    (env : Env) : Task E :=
  { t with sentZdo := t.sentZdo ++ [⟨purpose,sequence,tx,env.now⟩] }

/-- What a probe's transmission says about the device. -/
def probeResult : Except AdapterError (Option ZclRx) → ProbeResult
  | .ok _ => .answered
  | .error (.tx failure) => .failed failure
  | .error _ => .failed .noAck

/-- Probes a device; the transaction number is always zero. -/
def probe (t : Task E) (ieee : Ieee) (allowRecovery : Bool) (env : Env) : Task E :=
  match t.devices.get ieee with
  | none => t
  | some entry =>
    let tx : ZclTx := {
      dest := .unicast ieee entry.info.nwk
      endpoint := (entry.info.endpoints.head?.map EndpointInfo.id).getD ⟨1⟩
      sourceEndpoint := ⟨1⟩
      profile := .ha
      cluster := probeCluster
      frame := probeFrame 0
      options := { expectResponse := true, disableRecovery := !allowRecovery } }
    let t := t.transmitZcl .probe 0 tx env
    let outcome := probeResult env.sendZcl
    let t := t.modifyDevice ieee fun e =>
      { e with reachability := e.reachability.recordProbe env.now outcome }
    t.assess ieee (.probe outcome) env

/-- What the policy scheduled and is due. -/
def dueChecks (t : Task E) (now : Instant) : List (Ieee × NextCheck) :=
  t.devices.all.filterMap fun e =>
    match e.nextCheck with
    | .probe due _ _ => if due ≤ now then some (e.info.ieee,e.nextCheck) else none
    | .reassess due => if due ≤ now then some (e.info.ieee,e.nextCheck) else none
    | .awaitTraffic => none

def runCheck (t : Task E) (ieee : Ieee) (next : NextCheck) (env : Env) : Task E :=
  match next with
  | .probe _ _ allowRecovery => t.probe ieee allowRecovery env
  | .reassess _ => t.assess ieee .elapsed env
  | .awaitTraffic => t

def runChecks : List (Ieee × NextCheck) → Task E → (ℕ → Env) → Task E
  | [], t, _ => t
  | (ieee,next)::rest, t, env => runChecks rest (t.runCheck ieee next (env 0)) fun k => env (k+1)

end Availability

section Devices

def persist (t : Task E) (ieee : Ieee) (env : Env) : Task E :=
  match t.devices.get ieee with
  | none => t
  | some entry =>
    { t with store := t.store.upsertDevice (persistedFromEntry entry) env.upsertDevice }

/-- Registers the manufacturer-specific clusters the device's definition declares. -/
def registerCustomClusters (t : Task E) (ieee : Ieee) : Task E :=
  match t.resolve ieee with
  | none => t
  | some definition =>
    { t with
      registry := (E.customClusters definition).foldl
        (fun registry cluster => E.insertForDevice registry ieee cluster) t.registry }

/-- The power source and sleepiness a definition forces; an unknown hint forces none. -/
def forced : PowerSourceHint → Option (PowerSource × Bool)
  | .mains => some (.mains,false)
  | .dc => some (.dc,false)
  | .battery => some (.battery,true)
  | .other => none

def applyDefinitionMetadata (t : Task E) (ieee : Ieee) (env : Env) : Task E :=
  match ((t.resolve ieee).bind E.forcePowerSource).bind forced with
  | none => t
  | some (power,sleepy) =>
    match t.devices.get ieee with
    | none => t.persist ieee env
    | some entry =>
      if entry.info.powerSource = power then t
      else
        (t.modifyDevice ieee fun e =>
          { e with
            info := { e.info with powerSource := power }
            reachability := { e.reachability with isSleepy := sleepy } }).persist ieee env

/-- Puts the coordinator in the device table. -/
def registerCoordinator (t : Task E) (env : Env) : Task E :=
  if (t.devices.get t.coordinator).isSome then t
  else
    let entry := newEntry t.coordinator .coordinator env.wall
    { t with
      devices := t.devices.insert { entry with
        info := { entry.info with kind := .coordinator, powerSource := .mains }
        reachability := { entry.reachability with isSleepy := false } } }

/-- Moves a device and reports a real change. -/
def readdress (t : Task E) (ieee : Ieee) (nwk : Nwk) : Task E :=
  match t.devices.setNwk ieee nwk with
  | (devices,some previous) =>
    { t with devices := devices }.emit (.deviceAddressChanged ieee previous nwk)
  | (devices,none) => { t with devices := devices }

/-- Interviews run outside the loop; the task only starts them. -/
def spawnInterview (t : Task E) (ieee : Ieee) (reply : Option ℕ) : Task E :=
  { t with interviews := t.interviews ++ [(ieee,reply)] }

def onJoined (t : Task E) (ieee : Option Ieee) (nwk : Nwk) (env : Env) : Task E :=
  match ieee <|> t.devices.resolve nwk with
  | none => t
  | some ieee =>
    let t :=
      if (t.devices.get ieee).isSome then (t.readdress ieee nwk).emit (.deviceAnnounced ieee)
      else
        { t with devices := t.devices.insert (newEntry ieee nwk env.wall) }.emit
          (.deviceJoined ieee nwk)
    let t := (t.touch ieee env.wall .announce env).persist ieee env
    if t.interviewOnJoin ∧ (t.devices.get ieee).any (·.info.interview ≠ .successful) then
      t.spawnInterview ieee none
    else t

def onLeft (t : Task E) (ieee : Option Ieee) (nwk : Option Nwk) (env : Env) : Task E :=
  match ieee <|> nwk.bind t.devices.resolve with
  | none => t
  | some ieee =>
    { t with
      devices := (t.devices.remove ieee).1
      store := t.store.deleteDevice ieee env.deleteDevice }.emit (.deviceLeft ieee .unknown)

end Devices

end Task
end Rszigbee
