import Rszigbee.Adapter
import Rszigbee.Device

/-! Reachability: the facts kept for each device, and the default policy. -/
namespace Rszigbee

inductive Reachability
  | unknown | reachable | unreachable
  deriving DecidableEq

inductive ProbeResult
  | answered
  | failed (failure : TxFailure)
  deriving DecidableEq

/-- Why reachability changed. -/
inductive Evidence
  | traffic | commandAcked
  | commandFailed (failure : TxFailure)
  | probe (result : ProbeResult)
  | elapsed
  deriving DecidableEq

structure ReachabilityInfo where
  state : Reachability := .unknown
  isSleepy : Bool := false
  lastSeen : Option SystemTime := none
  lastTxOk : Option Instant := none
  lastTxErr : Option (Instant × TxFailure) := none
  lastProbe : Option (Instant × ProbeResult) := none
  consecutiveProbeFailures : UInt32 := 0
  deriving DecidableEq

namespace ReachabilityInfo

/-- How long since the last received frame; none when the clock stepped back past it. -/
def silence (r : ReachabilityInfo) (now : SystemTime) : Option Duration :=
  r.lastSeen.bind fun t => if t ≤ now then some (now - t).toNat else none

def recordTraffic (r : ReachabilityInfo) (now : SystemTime) : ReachabilityInfo :=
  { r with lastSeen := some now, consecutiveProbeFailures := 0 }

def recordTx (r : ReachabilityInfo) (now : Instant) : Except TxFailure Unit → ReachabilityInfo
  | .ok () => { r with lastTxOk := some now }
  | .error e => { r with lastTxErr := some (now,e) }

def recordProbe (r : ReachabilityInfo) (now : Instant) (result : ProbeResult) : ReachabilityInfo :=
  { r with
    lastProbe := some (now,result)
    consecutiveProbeFailures :=
      match result with
      | .answered => 0
      | .failed _ =>
        if r.consecutiveProbeFailures = 0xffffffff then 0xffffffff
        else r.consecutiveProbeFailures + 1 }

end ReachabilityInfo

/-- Everything a policy is allowed to see. -/
structure ReachabilityContext where
  device : DeviceInfo
  current : ReachabilityInfo
  now : Instant
  wallNow : SystemTime

inductive NextCheck
  | probe (due : Instant) (attempts : UInt8) (allowRecovery : Bool)
  | reassess (due : Instant)
  | awaitTraffic
  deriving DecidableEq

structure Assessment where
  verdict : Reachability
  next : NextCheck
  deriving DecidableEq

/-- When to look, and what to conclude. -/
abbrev ReachabilityPolicy := ReachabilityContext → Assessment

/-- `SilencePolicy` with its limit: it never probes. -/
def silencePolicy (silenceLimit : Duration) : ReachabilityPolicy := fun ctx =>
  match ctx.current.silence ctx.wallNow with
  | none => ⟨.unknown,.awaitTraffic⟩
  | some silence =>
    if silence < silenceLimit then
      ⟨.reachable,.reassess (ctx.now + (silenceLimit - silence))⟩
    else ⟨.unreachable,.awaitTraffic⟩

def defaultSilenceLimit : Duration := .fromSecs (1500 * 60)

end Rszigbee
