import Rszigbee.Zdo
import Rszigbee.Dialogue
import Rszigbee.Texts
import Rszigbee.Values

/-! What an interview asks of a device and what it makes of the answers.
A refused step is recorded and the rest goes on; only a runtime that stopped ends an
interview early. -/
namespace Rszigbee
namespace Interview

/-- What an interview puts to the loop. -/
inductive Ask
  | update (update : InterviewUpdate)
  | zdo (cluster : ZdoClusterId) (build : UInt8 → Nwk → Bytes)
  | zclRead (endpoint : EndpointId) (cluster : ClusterId) (attributes : List AttrId)

namespace Ask

/-- What it gets for it, unless an error; an update is only handed over. -/
def Payload : Ask → Type
  | update _ => Unit
  | zdo _ _ => Bytes
  | zclRead _ _ _ => List (UInt16 × ZclValue)

abbrev Response (c : Ask) : Type := Except RuntimeError c.Payload

end Ask

/-- How the errors an interview meets are written down. -/
structure ErrorText where
  runtime : RuntimeError → String
  zdo : ZdoError → String

/-- A part of an interview. -/
abbrev Part (α : Type) := Dialogue Ask Ask.Response RuntimeError α

def put (c : Ask) : Part c.Response := .command c

/-- `interview_update`, with the error passed on. -/
def tell (update : InterviewUpdate) : Part Unit := do
  match ← put (Ask.update update) with
  | .ok () => pure ()
  | .error e => .done (.error e)

/-- `zdo`, its answer decoded. -/
def askZdo {α : Type} (text : ErrorText) (cluster : ZdoClusterId) (build : UInt8 → Nwk → Bytes)
    (decode : Bytes → Except ZdoError α) : Part (Except String α) := do
  match ← put (Ask.zdo cluster build) with
  | .ok payload => pure ((decode payload).mapError text.zdo)
  | .error e => pure (.error (text.runtime e))

section Steps

variable (text : ErrorText) (outcome : InterviewOutcome)

def completed (step : InterviewStep) : InterviewOutcome :=
  { outcome with completed := outcome.completed ++ [step] }

def failed (step : InterviewStep) (detail : String) : InterviewOutcome :=
  { outcome with failures := outcome.failures ++ [(step,detail)] }

def deviceKind : LogicalType → DeviceKind
  | .coordinator => .coordinator
  | .router => .router
  | .endDevice => .endDevice
  | .reserved _ => .unknown

def nodeDescriptor : Part InterviewOutcome := do
  let outcome ←
    match ← askZdo text .nodeDescReq Zdo.encodeNodeDescReq Zdo.decodeNodeDescRsp with
    | .ok descriptor =>
      let power := if descriptor.mainsPowered then PowerSource.mains else .battery
      tell (.nodeDescriptor (deviceKind descriptor.logicalType) power !descriptor.rxOnWhenIdle)
      pure (completed outcome .nodeDescriptor)
    | .error detail => pure (failed outcome .nodeDescriptor detail)
  tell (.step .nodeDescriptor)
  pure outcome

def activeEndpoints : Part (List EndpointId × InterviewOutcome) := do
  let found :=
    match ← askZdo text .activeEpReq Zdo.encodeActiveEpReq Zdo.decodeActiveEpRsp with
    | .ok response => (response.endpoints,completed outcome .activeEndpoints)
    | .error detail => ([],failed outcome .activeEndpoints detail)
  tell (.step .activeEndpoints)
  pure found

def endpointInfo (d : SimpleDescriptor) : EndpointInfo where
  id := d.endpoint
  profile := d.profile
  deviceId := d.deviceId
  inputClusters := d.inputClusters
  outputClusters := d.outputClusters

/-- One simple descriptor for each endpoint, one after the other. -/
def simpleDescriptors : List EndpointId → InterviewOutcome → Part InterviewOutcome
  | [], outcome => pure outcome
  | endpoint::endpoints, outcome => do
    let outcome :=
      match ← askZdo text .simpleDescReq (Zdo.encodeSimpleDescReq endpoint)
        Zdo.decodeSimpleDescRsp with
      | .ok descriptor =>
        completed { outcome with endpoints := outcome.endpoints ++ [endpointInfo descriptor] }
          (.simpleDescriptor endpoint)
      | .error detail => failed outcome (.simpleDescriptor endpoint) detail
    tell (.step (.simpleDescriptor endpoint))
    simpleDescriptors endpoints outcome

end Steps

section Basic

def genBasic : ClusterId := ⟨0x0000⟩

namespace Attr

def zclVersion : AttrId := ⟨0x0000⟩
def appVersion : AttrId := ⟨0x0001⟩
def stackVersion : AttrId := ⟨0x0002⟩
def hwVersion : AttrId := ⟨0x0003⟩
def manufacturerName : AttrId := ⟨0x0004⟩
def modelId : AttrId := ⟨0x0005⟩
def dateCode : AttrId := ⟨0x0006⟩
def powerSource : AttrId := ⟨0x0007⟩
def swBuildId : AttrId := ⟨0x4000⟩

end Attr

/-- A ZCL string, with control characters stripped. -/
def text : ZclValue → Option String
  | .str s =>
    let cleaned := s.toList.filter fun c => !isControl c
    let trimmed := Texts.trim cleaned
    if trimmed.isEmpty then none else some (String.ofList trimmed)
  | _ => none

/-- A small unsigned value, when the device reported one that fits. -/
def small : ZclValue → Option UInt8
  | .uint v => if v.toNat < 256 then some (.ofNat v.toNat) else none
  | .int v => if 0 ≤ v.toInt ∧ v.toInt < 256 then some (.ofNat v.toInt.toNat) else none
  | .enum v => if v.toNat < 256 then some (.ofNat v.toNat) else none
  | _ => none

/-- The first record of the attribute that reads as wanted. -/
def findAttr {α : Type} (values : List (UInt16 × ZclValue)) (attr : AttrId)
    (read : ZclValue → Option α) : Option α :=
  values.findSome? fun v => if v.1 = attr.raw then read v.2 else none

def basicInfo (values : List (UInt16 × ZclValue)) : BasicInfo where
  manufacturerName := findAttr values Attr.manufacturerName text
  modelId := findAttr values Attr.modelId text
  dateCode := findAttr values Attr.dateCode text
  softwareBuildId := findAttr values Attr.swBuildId text
  zclVersion := findAttr values Attr.zclVersion small
  appVersion := findAttr values Attr.appVersion small
  stackVersion := findAttr values Attr.stackVersion small
  hardwareVersion := findAttr values Attr.hwVersion small

def basicAttributeIds : List AttrId :=
  [Attr.zclVersion,Attr.appVersion,Attr.stackVersion,Attr.hwVersion,Attr.manufacturerName,
    Attr.modelId,Attr.dateCode,Attr.powerSource,Attr.swBuildId]

/-- The endpoint that hosts `genBasic`, or the first one, or endpoint 1. -/
def basicEndpoint (endpoints : List EndpointInfo) : EndpointId :=
  (((endpoints.find? fun e => e.hasInput genBasic) <|> endpoints.head?).map
    EndpointInfo.id).getD ⟨1⟩

/-- What the attributes say, and that a model is among them. -/
def recordBasic (values : List (UInt16 × ZclValue)) (outcome : InterviewOutcome) :
    InterviewOutcome :=
  let info := basicInfo values
  let outcome := { outcome with basic := some info }
  if info.modelId.isSome then completed outcome .basicAttributes
  else failed outcome .basicAttributes
    "answered without a modelId, so no definition can be resolved"

def basicAttributes (errors : ErrorText) (outcome : InterviewOutcome) : Part InterviewOutcome := do
  let endpoint := basicEndpoint outcome.endpoints
  let outcome :=
    match ← put (Ask.zclRead endpoint genBasic basicAttributeIds) with
    | .ok values => recordBasic values outcome
    | .error e => failed outcome .basicAttributes (errors.runtime e)
  tell (.step .basicAttributes)
  pure outcome

end Basic

/-- Endpoints decide the verdict. -/
def isUsable (outcome : InterviewOutcome) : Bool := !outcome.endpoints.isEmpty

def verdict (outcome : InterviewOutcome) : InterviewOutcome :=
  { outcome with state := if isUsable outcome then .successful else .failed }

def unanswered : InterviewOutcome where
  state := .failed
  completed := []
  failures := []
  endpoints := []
  basic := none

/-- An interview from its beginning to its end. -/
def run (errors : ErrorText) : Part InterviewOutcome := do
  tell .started
  let outcome ← nodeDescriptor errors unanswered
  let (endpoints,outcome) ← activeEndpoints errors outcome
  let outcome ← simpleDescriptors errors endpoints outcome
  let outcome ← basicAttributes errors outcome
  tell (.finished (verdict outcome))
  pure (verdict outcome)

end Interview
end Rszigbee
