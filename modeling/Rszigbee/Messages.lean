import Rszigbee.Reachability
import Rszigbee.Frame
import Rszigbee.Store

/-! What the runtime is asked, what it answers and what it reports.
What a device definition means, and how attribute and command payloads are typed, is
the engine's business; the runtime only calls it. -/
namespace Rszigbee

/-- The wire types of attribute values. -/
inductive ZclType
  | noData | bool | enum8 | enum16 | single | octStr | charStr
  | clusterId | attrId | ieee | key128 | unk
  | data (n : UInt8)
  | bitmap (n : UInt8)
  | uint (n : UInt8)
  | int (n : UInt8)
  | time (n : UInt8)
  | unknown (id : UInt8)
  deriving DecidableEq

/-- A decoded value; a float is its bits. -/
inductive ZclValue
  | none
  | bool (b : Bool)
  | uint (v : UInt64)
  | int (v : Int64)
  | enum (v : UInt16)
  | bitmap (v : UInt64)
  | single (bits : UInt32)
  | octets (bytes : Bytes)
  | str (s : String)
  | ieee (address : Ieee)
  | key128 (key : Vector UInt8 16)
  | raw (ty : UInt8) (bytes : Bytes)
  | invalid (ty : ZclType)
  deriving DecidableEq

inductive ParseFailure
  | codec (error : CodecError)
  | unknownCluster (cluster : ClusterId)
  | unknownCommand (command : UInt8)
  | unknownAttribute (attr : UInt16)
  deriving DecidableEq

inductive ZclMessageKind
  | attributes (records : List (UInt16 × ZclValue))
  | command (id : UInt8) (name : Option String) (params : List (String × ZclValue))
  | defaultResponse (command status : UInt8)
  deriving DecidableEq

structure ZclMessage where
  ieee : Ieee
  endpoint : EndpointId
  cluster : ClusterId
  kind : ZclMessageKind
  linkQuality : Option UInt8
  deriving DecidableEq

structure CapabilityId where
  name : String
  deriving DecidableEq

structure ZclCommand where
  endpoint : Option EndpointId
  cluster : ClusterId
  command : CommandId
  params : List (String × ZclValue)
  manufacturer : Option UInt16
  disableDefaultResponse : Bool
  deriving DecidableEq

structure ZclAttributeWrite where
  endpoint : Option EndpointId
  cluster : ClusterId
  attributes : List (AttrId × ZclValue)
  manufacturer : Option UInt16
  deriving DecidableEq

inductive CommandError
  | unknownDevice (ieee : Ieee)
  | noDefinition
  | unsupportedCapability (capability : CapabilityId)
  | invalidValue (capability : CapabilityId) (value : String)
  | unknownEndpoint (endpoint : EndpointId)
  | delivery (failure : TxFailure)
  | timeout (after : Duration)
  | shuttingDown
  deriving DecidableEq

inductive Confirmation
  | acked | noResponseRequested | queued
  deriving DecidableEq

/-- A command lowered to one cluster command. -/
structure PlannedZcl where
  endpoint : EndpointId
  cluster : ClusterId
  command : CommandId
  payload : Bytes
  deriving DecidableEq

/-- One binding, and the reporting to configure on it. -/
structure ConfigureStep where
  endpoint : EndpointId
  cluster : ClusterId
  attr : Option AttrId
  attrType : Option ZclType
  minInterval : UInt16
  maxInterval : UInt16
  minChange : UInt64
  deriving DecidableEq

structure ReportRecord where
  attr : AttrId
  ty : ZclType
  minInterval : UInt16
  maxInterval : UInt16
  minChange : UInt64
  deriving DecidableEq

structure ConfigureOutcome where
  bound : ℕ := 0
  configured : ℕ := 0
  failed : ℕ := 0
  deriving DecidableEq

inductive PowerSourceHint
  | mains | battery | dc | other
  deriving DecidableEq

/-- The definition engine, the cluster registry and the payload codecs, as the runtime
calls them. -/
structure Engine where
  Registry : Type
  ClusterDef : Type
  Definition : Type
  Command : Type
  Datapoint : Type
  Value : Type
  Changes : Type
  zclMessage : Registry → Ieee → ZclRx → Except ParseFailure ZclMessage
  attrType : Registry → Ieee → ClusterId → AttrId → Option ZclType
  insertForDevice : Registry → Ieee → ClusterDef → Registry
  resolve : DeviceInfo → Option Definition
  model : Definition → String
  isComplete : Definition → Bool
  customClusters : Definition → List ClusterDef
  forcePowerSource : Definition → Option PowerSourceHint
  configurePlan : Definition → DeviceInfo → List ConfigureStep
  reportToState : Definition → ClusterId → UInt16 → ZclValue → Option (CapabilityId × Value)
  noChanges : Changes
  setChange : Changes → CapabilityId → Value → Changes
  isEmpty : Changes → Bool
  commandToAction : Definition → ClusterId → UInt8 → List (String × ZclValue) →
    Option (CapabilityId × String)
  tuyaDecode : Bytes → Option (UInt16 × List Datapoint)
  tuyaEncode : UInt16 → List Datapoint → Bytes
  datapointsToState : Definition → List Datapoint → DeviceInfo → Changes
  commandToDatapoint : Definition → Command → Option Datapoint
  commandViaBehavior : Definition → Command → DeviceInfo → Option (List Datapoint)
  planCommand : Definition → DeviceInfo → Command → Except CommandError PlannedZcl
  encodeCommand : Registry → Ieee → UInt8 → ZclCommand → Except String Bytes
  attributeWrite : Registry → Ieee → UInt8 → ZclAttributeWrite → Except String Bytes
  configureReporting : UInt8 → List ReportRecord → Except String Bytes

/-- An engine that knows no device and no cluster. -/
def Engine.bare : Engine where
  Registry := Unit
  ClusterDef := Unit
  Definition := Empty
  Command := Unit
  Datapoint := Unit
  Value := Unit
  Changes := Unit
  zclMessage _ _ rx := .error (.unknownCluster rx.cluster)
  attrType _ _ _ _ := none
  insertForDevice registry _ _ := registry
  resolve _ := none
  model := nofun
  isComplete := nofun
  customClusters := nofun
  forcePowerSource := nofun
  configurePlan := nofun
  reportToState := nofun
  noChanges := ()
  setChange _ _ _ := ()
  isEmpty _ := true
  commandToAction := nofun
  tuyaDecode _ := none
  tuyaEncode _ _ := []
  datapointsToState := nofun
  commandToDatapoint := nofun
  commandViaBehavior := nofun
  planCommand := nofun
  encodeCommand _ _ _ _ := .error ""
  attributeWrite _ _ _ _ := .error ""
  configureReporting _ _ := .error ""

inductive DeviceCommand (E : Engine)
  | zcl (command : ZclCommand)
  | zclAttributes (write : ZclAttributeWrite)
  | capability (command : E.Command)

structure CommandOutcome (E : Engine) where
  optimisticState : Option E.Changes
  confirmed : Confirmation
  latency : Duration

inductive RuntimeError
  | stopped
  | adapter (error : AdapterError)
  | store (error : StoreError)
  | unknownDevice (ieee : Ieee)
  | readRefused (ieee : Ieee) (status : UInt8)
  | zdoTimeout (ieee : Ieee) (timeout : Duration)
  | zclTimeout (ieee : Ieee) (timeout : Duration)
  | coordinatorMismatch (expected found : Ieee)
  deriving DecidableEq

inductive InterviewStep
  | nodeDescriptor | activeEndpoints
  | simpleDescriptor (endpoint : EndpointId)
  | basicAttributes
  | iasEnroll (endpoint : EndpointId)
  | pollControl (endpoint : EndpointId)
  deriving DecidableEq

/-- What an interview learned. -/
structure InterviewOutcome where
  state : InterviewState
  completed : List InterviewStep
  failures : List (InterviewStep × String)
  endpoints : List EndpointInfo
  basic : Option BasicInfo
  deriving DecidableEq

inductive InterviewUpdate
  | started
  | nodeDescriptor (kind : DeviceKind) (power : PowerSource) (sleepy : Bool)
  | step (step : InterviewStep)
  | finished (outcome : InterviewOutcome)
  deriving DecidableEq

inductive LastSeenReason
  | announce | joined | message | messageWithoutPayload | networkAddress
  deriving DecidableEq

inductive LeaveReason
  | deviceRequest | removed | unknown
  deriving DecidableEq

inductive DefinitionSource
  | bundled | local | generated
  deriving DecidableEq

inductive Event (E : Engine)
  | started (outcome : StartOutcome)
  | stopping
  | adapterDisconnected (reason : DisconnectReason)
  | permitJoinChanged (permitted : Bool) (closes : Option Instant) (via : Option Ieee)
  | deviceJoined (ieee : Ieee) (nwk : Nwk)
  | deviceAnnounced (ieee : Ieee)
  | deviceLeft (ieee : Ieee) (reason : LeaveReason)
  | deviceAddressChanged (ieee : Ieee) (previous current : Nwk)
  | interviewStarted (ieee : Ieee)
  | interviewProgress (ieee : Ieee) (step : InterviewStep)
  | interviewFinished (ieee : Ieee) (state : InterviewState)
  | definitionResolved (ieee : Ieee) (model : Option String) (source : DefinitionSource)
  | lastSeenChanged (ieee : Ieee) (seen : SystemTime) (reason : LastSeenReason)
  | reachabilityChanged (ieee : Ieee) (previous current : Reachability) (evidence : Evidence)
  | stateChanged (ieee : Ieee) (endpoint : Option EndpointId) (changes : E.Changes)
  | action (ieee : Ieee) (endpoint : Option EndpointId) (capability : CapabilityId)
      (action : String)
  | zclMessage (message : ZclMessage)
  | zdoResponse (nwk : Nwk) (cluster : ZdoClusterId) (payload : Bytes)
  | unparsedFrame (ieee : Ieee) (endpoint : EndpointId) (cluster : ClusterId) (raw : Bytes)
      (reason : ParseFailure)
  | commandFailed (ieee : Ieee) (capability : Option CapabilityId) (failure : TxFailure)

/-- What a handle asks of the task; the reply channel is the request's position. -/
inductive Request (E : Engine)
  | devices
  | device (ieee : Ieee)
  | network
  | definition (ieee : Ieee)
  | configure (ieee : Ieee)
  | configurePlan (ieee : Ieee)
  | permitJoin (duration : Duration) (via : Option Ieee)
  | zclRead (ieee : Ieee) (endpoint : EndpointId) (cluster : ClusterId)
      (attributes : List AttrId)
  | zdo (ieee : Ieee) (cluster : ZdoClusterId) (build : UInt8 → Nwk → Bytes)
  | command (ieee : Ieee) (command : DeviceCommand E)
  | interview (ieee : Ieee)
  | interviewUpdate (ieee : Ieee) (update : InterviewUpdate)
  | stop

inductive Reply (E : Engine)
  | devices (devices : List DeviceInfo)
  | device (device : Option DeviceInfo)
  | network (result : Except AdapterError NetworkInfo)
  | definition (definition : Option (String × Bool))
  | configure (result : Except RuntimeError ConfigureOutcome)
  | configurePlan (plan : List ConfigureStep)
  | permitJoin (result : Except RuntimeError Unit)
  | zclRead (result : Except RuntimeError (List (UInt16 × ZclValue)))
  | zdo (result : Except RuntimeError Bytes)
  | command (result : Except CommandError (CommandOutcome E))
  | interview (result : Except RuntimeError InterviewOutcome)
  | stop (result : Except RuntimeError Unit)

/-- Why a frame was put on the radio. -/
inductive Purpose
  | zdo (reply : ℕ)
  | read (reply : ℕ)
  | command (reply : ℕ)
  | bind | reporting | probe | ota
  deriving DecidableEq

/-- What made the runtime send a reply. A received frame comes with the transmission it
answers, when it answers one. -/
inductive Cause
  | handled
  | inline
  | sendError
  | zdoFrame (cluster : ZdoClusterId) (nwk : Nwk) (payload : Bytes)
  | zclFrame (ieee : Ieee) (cluster : ClusterId) (frame : ZclFrame)
      (origin : Option (ℕ × Purpose))
  | timeout (now : Instant)
  | shutdown
  deriving DecidableEq

structure Answer (E : Engine) where
  id : ℕ
  reply : Reply E
  cause : Cause

/-- A transmission: its purpose, the sequence number it carries, and when the adapter's
answer to it was in. -/
structure Sent (Tx : Type) where
  purpose : Purpose
  sequence : UInt8
  tx : Tx
  sentAt : Instant
  deriving DecidableEq

/-- The answers of everything outside the task: clocks, adapter and store. -/
structure Env where
  now : Instant := 0
  started : Instant := 0
  wall : SystemTime := 0
  assessedAt : Instant := 0
  assessedWall : SystemTime := 0
  networkInfo : Except AdapterError NetworkInfo := .error .notConnected
  networkKey : Except AdapterError (Option SecretKey) := .ok none
  permitJoin : Except AdapterError Unit := .ok ()
  sendZcl : Except AdapterError (Option ZclRx) := .ok none
  sendZdo : Except AdapterError (Option Bytes) := .ok none
  loadNetwork : Option StoreError := none
  saveNetwork : WriteAnswer := .done
  upsertDevice : WriteAnswer := .done
  deleteDevice : WriteAnswer := .done
  flush : Except StoreError Unit := .ok ()
  stop : Except AdapterError Unit := .ok ()

end Rszigbee
