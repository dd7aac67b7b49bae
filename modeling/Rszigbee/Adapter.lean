import Rszigbee.Codec

/-! What passes between the runtime and a coordinator adapter. -/
namespace Rszigbee

/-- Why a transmission failed. -/
inductive TxFailure
  | noAck | noRoute | coordinatorBusy | rejected
  | timeout (after : Duration)
  | adapterStatus (status : UInt16)
  deriving DecidableEq

inductive DisconnectReason
  | serialClosed | coordinatorReset
  | protocolError (detail : String)
  | requested
  deriving DecidableEq

inductive AdapterError
  | notConnected
  | disconnected (reason : DisconnectReason)
  | tx (failure : TxFailure)
  | codec (error : CodecError)
  | unsupported (what : String)
  | incompatibleFirmware (detail : String)
  | networkMismatch (detail : String)
  | transport (detail : String)
  | timeout (after : Duration)
  deriving DecidableEq

inductive StartOutcome
  | resumed | formed | restored
  deriving DecidableEq

/-- What to do when the coordinator has no network. -/
inductive MismatchPolicy
  | fail | form
  deriving DecidableEq

structure SecretKey where
  bytes : Vector UInt8 16
  deriving DecidableEq

structure NetworkConfig where
  panId : Option UInt16
  extendedPanId : Option UInt64
  channel : UInt8
  networkKey : Option SecretKey
  onMismatch : MismatchPolicy
  deriving DecidableEq

structure NetworkInfo where
  panId : UInt16
  extendedPanId : UInt64
  channel : UInt8
  nwkUpdateId : UInt8
  keySequence : UInt8
  frameCounter : UInt32
  deriving DecidableEq

inductive BroadcastAddress
  | all | rxOnWhenIdle | routers | lowPowerRouters
  deriving DecidableEq

inductive Destination
  | unicast (ieee : Ieee) (nwk : Nwk)
  | group (id : GroupId)
  | broadcast (address : BroadcastAddress)
  deriving DecidableEq

inductive SendPolicy
  | queue | immediate | bulk | keepPayload | keepCommand
  deriving DecidableEq

structure TxOptions where
  expectResponse : Bool := true
  disableDefaultResponse : Bool := false
  disableRecovery : Bool := false
  timeout : Duration := .fromSecs 10
  policy : SendPolicy := .queue
  deriving DecidableEq

structure ZclTx where
  dest : Destination
  endpoint : EndpointId
  sourceEndpoint : EndpointId
  profile : ProfileId
  cluster : ClusterId
  frame : Bytes
  options : TxOptions := {}
  deriving DecidableEq

structure ZdoTx where
  dest : Destination
  cluster : ZdoClusterId
  payload : Bytes
  options : TxOptions := {}
  deriving DecidableEq

/-- A received ZCL frame. -/
structure ZclRx where
  ieee : Option Ieee
  nwk : Nwk
  endpoint : EndpointId
  destinationEndpoint : EndpointId
  cluster : ClusterId
  group : Option GroupId
  wasBroadcast : Bool
  linkQuality : Option UInt8
  frame : Bytes
  deriving DecidableEq

inductive AdapterEvent
  | deviceJoined (ieee : Option Ieee) (nwk : Nwk)
  | deviceLeft (ieee : Option Ieee) (nwk : Option Nwk)
  | zcl (rx : ZclRx)
  | zdo (cluster : ZdoClusterId) (nwk : Nwk) (payload : Bytes)
  | disconnected (reason : DisconnectReason)
  deriving DecidableEq

end Rszigbee
