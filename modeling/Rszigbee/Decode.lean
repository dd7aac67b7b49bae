import Rszigbee.Registry

/-! Decoding an incoming frame into something a caller can act on. -/
namespace Rszigbee
namespace Decode

def readAttributesResponse : UInt8 := 0x01
def reportAttributes : UInt8 := 0x0a
def defaultResponse : UInt8 := 0x0b

/-- The value of a record: its type tag is authoritative, not the registry's type. -/
def typedValue : Read ZclValue := do
  let tag ← Reader.u8
  decodeValue (.fromU8 tag)

/-- An attribute record; in a read response one with a status other than zero has no value. -/
def record (withStatus : Bool) : Read (Option (UInt16 × ZclValue)) := do
  let id ← Reader.u16Le
  let status ← if withStatus then Reader.u8 else pure 0
  if status ≠ 0 then pure none
  else
    let value ← typedValue
    pure (some (id,value))

/-- Attribute records until nothing is left. Every record consumes a byte, so as many rounds
as there are bytes are enough. -/
def records (withStatus : Bool) : ℕ → Read (List (UInt16 × ZclValue))
  | 0 => pure []
  | n+1 => do
    let r ← get
    if r.rest.isEmpty then pure []
    else
      let found ← record withStatus
      let rest ← records withStatus n
      pure (found.toList ++ rest)

def attributes (withStatus : Bool) : Read (List (UInt16 × ZclValue)) := do
  let r ← get
  records withStatus r.remaining

/-- A command's parameters, as far as the payload goes. -/
def params : List ParamDef → Reader → List (String × ZclValue)
  | [], _ => []
  | p::ps, r =>
    match decodeValue p.ty r with
    | .ok (value,r') => (p.name,value)::params ps r'
    | .error _ => []

/-- The reads of a payload, with their errors as parse failures. -/
def reading {α : Type} (read : Read α) (payload : Bytes) : Except ParseFailure α :=
  match read (.new payload) with
  | .ok (a,_) => .ok a
  | .error e => .error (.codec e)

def global (frame : ZclFrame) : Except ParseFailure ZclMessageKind :=
  let id := frame.header.command.raw
  if id = reportAttributes ∨ id = readAttributesResponse then
    (reading (attributes (id = readAttributesResponse)) frame.payload).map .attributes
  else if id = defaultResponse then
    reading (do
      let command ← Reader.u8
      let status ← Reader.u8
      pure (.defaultResponse command status)) frame.payload
  else .error (.unknownCommand id)

/-- A server-to-client frame is looked up among the responses. -/
def specific (registry : ClusterRegistry) (ieee : Ieee) (rx : ZclRx) (frame : ZclFrame) :
    Except ParseFailure ZclMessageKind :=
  match registry.get (some ieee) rx.cluster with
  | none => .error (.unknownCluster rx.cluster)
  | some cluster =>
    let id := frame.header.command.raw
    let table := if frame.header.direction = .serverToClient then cluster.responses
      else cluster.commands
    match table.lookup id with
    | none => .ok (.command id none [])
    | some definition =>
      .ok (.command id (some definition.name) (params definition.params (.new frame.payload)))

def kind (registry : ClusterRegistry) (ieee : Ieee) (rx : ZclRx) (frame : ZclFrame) :
    Except ParseFailure ZclMessageKind :=
  match frame.header.frameType with
  | .global => global frame
  | .specific => specific registry ieee rx frame
  | .reserved _ => .error (.unknownCommand frame.header.command.raw)

def zclMessage (registry : ClusterRegistry) (ieee : Ieee) (rx : ZclRx) :
    Except ParseFailure ZclMessage :=
  match ZclFrame.decode rx.frame with
  | .error e => .error (.codec e)
  | .ok frame => (kind registry ieee rx frame).map fun kind => {
      ieee := ieee
      endpoint := rx.endpoint
      cluster := rx.cluster
      kind := kind
      linkQuality := rx.linkQuality }

end Decode
end Rszigbee
