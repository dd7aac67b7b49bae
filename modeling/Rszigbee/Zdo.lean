import Rszigbee.Codec

/-! ZDO requests and responses: the descriptors an interview asks for. -/
namespace Rszigbee

/-- ZDO status codes. -/
inductive ZdoStatus
  | success | notSupported | deviceNotFound | invalidEndpoint | noEntry
  | other (code : UInt8)
  deriving DecidableEq

namespace ZdoStatus

def fromU8 (v : UInt8) : ZdoStatus :=
  if v = 0x00 then success
  else if v = 0x84 then notSupported
  else if v = 0x81 then deviceNotFound
  else if v = 0x82 then invalidEndpoint
  else if v = 0x88 then noEntry
  else other v

def isSuccess : ZdoStatus → Bool
  | success => true
  | _ => false

end ZdoStatus

/-- Why a response could not be used. -/
inductive ZdoError
  | status (sequence : UInt8) (status : ZdoStatus)
  | truncated (what : String) (claimed available : ℕ)
  | codec (error : CodecError)
  deriving DecidableEq

inductive LogicalType
  | coordinator | router | endDevice
  | reserved (bits : UInt8)
  deriving DecidableEq

def LogicalType.fromBits (b : UInt8) : LogicalType :=
  let bits := b &&& 0b111
  if bits = 0 then coordinator
  else if bits = 1 then router
  else if bits = 2 then endDevice
  else reserved bits

structure NodeDescriptor where
  sequence : UInt8
  of : Nwk
  logicalType : LogicalType
  manufacturerCode : UInt16
  maxIncomingTransferSize : UInt16
  macCapabilityFlags : UInt8
  serverMask : UInt16
  deriving DecidableEq

namespace NodeDescriptor

/-- The node is not a sleepy device. -/
def rxOnWhenIdle (d : NodeDescriptor) : Bool := d.macCapabilityFlags &&& 0b00001000 ≠ 0

def mainsPowered (d : NodeDescriptor) : Bool := d.macCapabilityFlags &&& 0b00000100 ≠ 0

end NodeDescriptor

structure ActiveEndpoints where
  sequence : UInt8
  of : Nwk
  endpoints : List EndpointId
  deriving DecidableEq

structure SimpleDescriptor where
  sequence : UInt8
  of : Nwk
  endpoint : EndpointId
  profile : ProfileId
  deviceId : UInt16
  deviceVersion : UInt8
  inputClusters : List ClusterId
  outputClusters : List ClusterId
  deriving DecidableEq

namespace Zdo

/-- A computation that reads a response. -/
abbrev ReadZdo (α : Type) := StateT Reader (Except ZdoError) α

instance : MonadLift (StateT Reader (Except CodecError)) (StateT Reader (Except ZdoError)) where
  monadLift m := fun r =>
    match m r with
    | .ok x => .ok x
    | .error e => .error (.codec e)

def encodeNodeDescReq (sequence : UInt8) (target : Nwk) : Bytes := [sequence] ++ le16 target.raw

def encodeActiveEpReq (sequence : UInt8) (target : Nwk) : Bytes := [sequence] ++ le16 target.raw

def encodeSimpleDescReq (endpoint : EndpointId) (sequence : UInt8) (target : Nwk) : Bytes :=
  [sequence] ++ le16 target.raw ++ [endpoint.raw]

/-- The sequence number of a response whose status says success. -/
def readStatus : ReadZdo UInt8 := do
  let sequence ← Reader.u8
  let status := ZdoStatus.fromU8 (← Reader.u8)
  if status.isSuccess then pure sequence else throw (.status sequence status)

def readNodeDescRsp : ReadZdo NodeDescriptor := do
  let sequence ← readStatus
  let of ← Reader.u16Le
  let byte0 ← Reader.u8
  let _ ← Reader.u8
  let macCapabilityFlags ← Reader.u8
  let manufacturerCode ← Reader.u16Le
  let _ ← Reader.u8
  let maxIncomingTransferSize ← Reader.u16Le
  let serverMask ← Reader.u16Le
  pure {
    sequence := sequence
    of := ⟨of⟩
    logicalType := .fromBits byte0
    manufacturerCode := manufacturerCode
    maxIncomingTransferSize := maxIncomingTransferSize
    macCapabilityFlags := macCapabilityFlags
    serverMask := serverMask }

/-- As many bytes as the device claims there are, if there are. -/
def readClaimed (what : String) (claimed : ℕ) : ReadZdo Bytes := fun r =>
  match Reader.take claimed r with
  | .ok x => .ok x
  | .error _ => .error (.truncated what claimed r.remaining)

def readActiveEpRsp : ReadZdo ActiveEndpoints := do
  let sequence ← readStatus
  let of ← Reader.u16Le
  let count ← Reader.u8
  let bytes ← readClaimed "active endpoint list" count.toNat
  pure ⟨sequence,⟨of⟩,bytes.map EndpointId.mk⟩

def readClusters : ℕ → ReadZdo (List ClusterId)
  | 0 => pure []
  | n+1 => do
    let cluster ← Reader.u16Le
    let rest ← readClusters n
    pure (⟨cluster⟩::rest)

def readClusterList (what : String) : ReadZdo (List ClusterId) := do
  let count ← Reader.u8
  let r ← get
  if count.toNat * 2 > r.remaining then throw (.truncated what (count.toNat * 2) r.remaining)
  readClusters count.toNat

def readSimpleDescRsp : ReadZdo SimpleDescriptor := do
  let sequence ← readStatus
  let of ← Reader.u16Le
  let _ ← Reader.u8
  let endpoint ← Reader.u8
  let profile ← Reader.u16Le
  let deviceId ← Reader.u16Le
  let version ← Reader.u8
  let inputClusters ← readClusterList "input cluster list"
  let outputClusters ← readClusterList "output cluster list"
  pure {
    sequence := sequence
    of := ⟨of⟩
    endpoint := ⟨endpoint⟩
    profile := ⟨profile⟩
    deviceId := deviceId
    deviceVersion := version &&& 0x0f
    inputClusters := inputClusters
    outputClusters := outputClusters }

def decode {α : Type} (read : ReadZdo α) (payload : Bytes) : Except ZdoError α :=
  (read (.new payload)).map Prod.fst

def decodeNodeDescRsp (payload : Bytes) : Except ZdoError NodeDescriptor :=
  decode readNodeDescRsp payload

def decodeActiveEpRsp (payload : Bytes) : Except ZdoError ActiveEndpoints :=
  decode readActiveEpRsp payload

def decodeSimpleDescRsp (payload : Bytes) : Except ZdoError SimpleDescriptor :=
  decode readSimpleDescRsp payload

/-- A coordinator's node descriptor, as one arrives. -/
example : (decodeNodeDescRsp [0x01,0x00,0x00,0x00,0x00,0x40,0x8e,0x49,0x10,0x52,0x52,0x00,0x2c,0x00]).map
    (fun d => (d.logicalType,d.manufacturerCode,d.rxOnWhenIdle,d.mainsPowered)) =
      .ok (.coordinator,0x1049,true,true) := by
  decide

end Zdo
end Rszigbee
