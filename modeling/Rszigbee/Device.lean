import Rszigbee.Ids

/-! The device and endpoint model, and what is stored of it. -/
namespace Rszigbee

inductive DeviceKind
  | coordinator | router | endDevice | greenPower | unknown
  deriving DecidableEq

inductive PowerSource
  | mains | battery | dc | emergencyMains | unknown
  deriving DecidableEq

/-- How far the interview got. -/
inductive InterviewState
  | pending | inProgress | successful | failed
  deriving DecidableEq

/-- What `genBasic` told us. -/
structure BasicInfo where
  manufacturerName : Option String := none
  modelId : Option String := none
  dateCode : Option String := none
  softwareBuildId : Option String := none
  zclVersion : Option UInt8 := none
  appVersion : Option UInt8 := none
  stackVersion : Option UInt8 := none
  hardwareVersion : Option UInt8 := none
  deriving DecidableEq

structure EndpointInfo where
  id : EndpointId
  profile : ProfileId
  deviceId : UInt16
  inputClusters : List ClusterId
  outputClusters : List ClusterId
  deriving DecidableEq

def EndpointInfo.hasInput (e : EndpointInfo) (cluster : ClusterId) : Bool :=
  cluster ∈ e.inputClusters

structure DeviceInfo where
  ieee : Ieee
  nwk : Nwk
  kind : DeviceKind
  powerSource : PowerSource := .unknown
  interview : InterviewState := .pending
  basic : BasicInfo := {}
  endpoints : List EndpointInfo := []
  checkinInterval : Option Duration := none
  lastSeen : Option SystemTime := none
  linkQuality : Option UInt8 := none
  deriving DecidableEq

namespace DeviceInfo

/-- A device known only by its addresses. -/
def new (ieee : Ieee) (nwk : Nwk) (kind : DeviceKind) : DeviceInfo where
  ieee := ieee
  nwk := nwk
  kind := kind

def endpoint (d : DeviceInfo) (id : EndpointId) : Option EndpointInfo :=
  d.endpoints.find? fun e => e.id = id

def endpointWithInput (d : DeviceInfo) (cluster : ClusterId) : Option EndpointInfo :=
  d.endpoints.find? fun e => e.hasInput cluster

/-- Everything but a known mains supply and the coordinator is taken to sleep. -/
def isSleepy (d : DeviceInfo) : Bool :=
  if d.checkinInterval.isSome then true
  else
    match d.powerSource with
    | .battery => true
    | .mains | .dc | .emergencyMains => false
    | .unknown => d.kind ≠ .coordinator

end DeviceInfo

/-- A stored endpoint has the fields of a live one. -/
abbrev PersistedEndpoint := EndpointInfo

/-- One stored device. -/
structure PersistedDevice where
  ieee : Ieee
  nwk : Nwk
  kind : DeviceKind := .unknown
  powerSource : PowerSource := .unknown
  interview : InterviewState := .pending
  basic : BasicInfo := {}
  endpoints : List PersistedEndpoint := []
  checkinIntervalSecs : Option UInt32 := none
  lastSeenEpochMs : Option UInt64 := none
  passthrough : List (String × String) := []
  deriving DecidableEq

end Rszigbee
