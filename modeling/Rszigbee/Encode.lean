import Rszigbee.Decode

/-! Turning requests named in ZCL's own terms into frames. -/
namespace Rszigbee

/-- A number in lowercase hexadecimal, of at least some width. -/
def hex (width v : ℕ) : String :=
  let digits := Nat.toDigits 16 v
  String.ofList (List.replicate (width - digits.length) '0' ++ digits)

def CodecError.toText : CodecError → String
  | eof wanted offset available =>
    "unexpected end of input: wanted " ++ toString wanted ++ " bytes at offset " ++
      toString offset ++ ", " ++ toString available ++ " available"
  | badLength claimed available offset =>
    "length prefix of " ++ toString claimed ++ " exceeds the " ++ toString available ++
      " bytes remaining at offset " ++ toString offset
  | badUtf8 offset => "invalid UTF-8 in string field at offset " ++ toString offset
  | outputFull wanted => "output full: cannot write " ++ toString wanted ++ " more bytes"

/-- Why a frame could not be built. -/
inductive EncodeError
  | unknownCluster (cluster : UInt16)
  | unknownCommand (cluster : UInt16) (command : UInt8)
  | unknownAttribute (cluster attr : UInt16)
  | missingParameter (command parameter : String)
  | unknownParameter (command parameter : String)
  | badValue (parameter detail : String)
  | noAttributes
  | untypedParameters (command : String)
  deriving DecidableEq

def EncodeError.toText : EncodeError → String
  | unknownCluster cluster =>
    "cluster 0x" ++ hex 4 cluster.toNat ++ " is not in the registry, so parameter types are unknown. " ++
      "Register it with `ClusterRegistry::insert_global` or `insert_for_device` first."
  | unknownCommand cluster command =>
    "cluster 0x" ++ hex 4 cluster.toNat ++ " has no command 0x" ++ hex 2 command.toNat
  | unknownAttribute cluster attr =>
    "cluster 0x" ++ hex 4 cluster.toNat ++ " has no attribute 0x" ++ hex 4 attr.toNat
  | missingParameter command parameter =>
    "command '" ++ command ++ "' requires parameter '" ++ parameter ++
      "', which was not supplied"
  | unknownParameter command parameter =>
    "command '" ++ command ++ "' has no parameter '" ++ parameter ++ "'"
  | badValue parameter detail =>
    "parameter '" ++ parameter ++ "' does not encode as the declared type: " ++ detail
  | noAttributes => "an attribute write with no attributes would be a no-op frame"
  | untypedParameters command =>
    "command '" ++ command ++ "' takes parameters this build cannot encode (composite or " ++
      "list-valued), so it is refused rather than sent short"

namespace Encode

/-- The declared parameters, in the order of the declaration. -/
def parameters (command : String) (supplied : List (String × ZclValue)) :
    List ParamDef → Except EncodeError Bytes
  | [] => .ok []
  | p::ps =>
    match supplied.find? fun s => s.1 = p.name with
    | none => .error (.missingParameter command p.name)
    | some (_,value) =>
      match encodeValue value p.ty with
      | .error e => .error (.badValue p.name e.toText)
      | .ok bytes => (parameters command supplied ps).map fun rest => bytes ++ rest

/-- A cluster-specific command. -/
def command (registry : ClusterRegistry) (device : Ieee) (tsn : UInt8) (request : ZclCommand) :
    Except EncodeError Bytes :=
  match registry.get (some device) request.cluster with
  | none => .error (.unknownCluster request.cluster.raw)
  | some cluster =>
    match cluster.commands.lookup request.command.raw with
    | none => .error (.unknownCommand request.cluster.raw request.command.raw)
    | some definition =>
      if definition.untypedParameters then .error (.untypedParameters definition.name)
      else
        match request.params.find? fun s => !definition.params.any fun p => p.name = s.1 with
        | some (name,_) => .error (.unknownParameter definition.name name)
        | none =>
          (parameters definition.name request.params definition.params).map fun payload =>
            ZclFrame.encode ⟨{ ZclHeader.specific tsn request.command with
              manufacturer := request.manufacturer.map .mk
              disableDefaultResponse := request.disableDefaultResponse },payload⟩

/-- Attribute records to write: id, type tag and value. -/
def writeRecords (registry : ClusterRegistry) (device : Ieee) (cluster : ClusterId) :
    List (AttrId × ZclValue) → Except EncodeError Bytes
  | [] => .ok []
  | (attr,value)::rest =>
    match registry.attr (some device) cluster attr with
    | none => .error (.unknownAttribute cluster.raw attr.raw)
    | some definition =>
      match encodeValue value definition.ty with
      | .error e => .error (.badValue definition.name e.toText)
      | .ok bytes => (writeRecords registry device cluster rest).map fun records =>
          le16 attr.raw ++ [definition.ty.toU8] ++ bytes ++ records

def attributeWrite (registry : ClusterRegistry) (device : Ieee) (tsn : UInt8)
    (request : ZclAttributeWrite) : Except EncodeError Bytes :=
  if request.attributes.isEmpty then .error .noAttributes
  else
    (writeRecords registry device request.cluster request.attributes).map fun payload =>
      ZclFrame.encode ⟨{ ZclHeader.global tsn ⟨0x02⟩ with
        manufacturer := request.manufacturer.map .mk },payload⟩

/-- A boolean changing is not a change of some size. -/
def isAnalog : ZclType → Bool
  | .uint _ | .int _ | .single | .time _ => true
  | _ => false

/-- The smallest change worth a report, as a value of the type. -/
def reportableChange (record : ReportRecord) : ZclValue :=
  match record.ty with
  | .int _ => .int (if record.minChange.toNat < 2 ^ 63 then record.minChange.toInt64
      else Int64.maxValue)
  | _ => .uint record.minChange

/-- One record; direction `0x00` has the receiver send reports. -/
def reportRecord (record : ReportRecord) : Except CodecError Bytes := do
  let change ← if isAnalog record.ty then encodeValue (reportableChange record) record.ty
    else pure []
  pure ([0x00] ++ le16 record.attr.raw ++ [record.ty.toU8] ++ le16 record.minInterval ++
    le16 record.maxInterval ++ change)

def reportRecords : List ReportRecord → Except CodecError Bytes
  | [] => .ok []
  | record::records => do
    let bytes ← reportRecord record
    let rest ← reportRecords records
    pure (bytes ++ rest)

def configureReporting (tsn : UInt8) (records : List ReportRecord) : Except CodecError Bytes :=
  (reportRecords records).map fun payload => ZclFrame.encode ⟨.global tsn ⟨0x06⟩,payload⟩

end Encode

/-- A device that no definition describes brings no clusters of its own. -/
def noClusters : Engine.bare.Definition → List ClusterDef := nofun

/-- An engine whose frames are decoded and encoded with a cluster registry. -/
def Engine.withCodecs (E : Engine)
    (customClusters : E.Definition → List Rszigbee.ClusterDef) : Engine where
  Registry := ClusterRegistry
  ClusterDef := Rszigbee.ClusterDef
  Definition := E.Definition
  Command := E.Command
  Datapoint := E.Datapoint
  Value := E.Value
  Changes := E.Changes
  zclMessage := Decode.zclMessage
  attrType registry ieee cluster attr := (registry.attr (some ieee) cluster attr).map AttrDef.ty
  insertForDevice := ClusterRegistry.insertForDevice
  resolve := E.resolve
  model := E.model
  isComplete := E.isComplete
  customClusters := customClusters
  forcePowerSource := E.forcePowerSource
  configurePlan := E.configurePlan
  reportToState := E.reportToState
  noChanges := E.noChanges
  setChange := E.setChange
  isEmpty := E.isEmpty
  commandToAction := E.commandToAction
  tuyaDecode := E.tuyaDecode
  tuyaEncode := E.tuyaEncode
  datapointsToState := E.datapointsToState
  commandToDatapoint := E.commandToDatapoint
  commandViaBehavior := E.commandViaBehavior
  planCommand := E.planCommand
  encodeCommand registry ieee tsn request :=
    (Encode.command registry ieee tsn request).mapError EncodeError.toText
  attributeWrite registry ieee tsn request :=
    (Encode.attributeWrite registry ieee tsn request).mapError EncodeError.toText
  configureReporting tsn records :=
    (Encode.configureReporting tsn records).mapError CodecError.toText

end Rszigbee
