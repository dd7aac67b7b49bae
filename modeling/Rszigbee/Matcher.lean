import Rszigbee.Interview
import Rszigbee.Names

/-! Which devices a definition claims: model strings, and narrower fingerprints.
`str::to_lowercase` is a parameter; nothing here depends on what it does. -/
namespace Rszigbee

/-- One endpoint, for matching. -/
structure EndpointMatch where
  id : EndpointId
  profile : Option ProfileId := none
  deviceId : Option UInt16 := none
  inputClusters : List ClusterId := []
  outputClusters : List ClusterId := []
  deriving DecidableEq

/-- The device facts a match is decided on. -/
structure DeviceMatch where
  modelId : Option String := none
  manufacturerName : Option String := none
  manufacturerId : Option UInt16 := none
  applicationVersion : Option UInt8 := none
  stackVersion : Option UInt8 := none
  zclVersion : Option UInt8 := none
  hardwareVersion : Option UInt8 := none
  dateCode : Option String := none
  softwareBuildId : Option String := none
  powerSource : Option UInt8 := none
  deviceType : Option UInt8 := none
  ieee : Option Ieee := none
  endpoints : List EndpointMatch := []
  deriving DecidableEq

structure FingerprintEndpoint where
  id : EndpointId
  profile : Option ProfileId := none
  deviceId : Option UInt16 := none
  inputClusters : Option (List ClusterId) := none
  outputClusters : Option (List ClusterId) := none
  deriving DecidableEq

/-- A narrow match rule: every populated field must match. -/
structure Fingerprint where
  modelId : Option String := none
  manufacturerName : Option String := none
  manufacturerId : Option UInt16 := none
  applicationVersion : Option UInt8 := none
  stackVersion : Option UInt8 := none
  zclVersion : Option UInt8 := none
  hardwareVersion : Option UInt8 := none
  dateCode : Option String := none
  softwareBuildId : Option String := none
  powerSource : Option UInt8 := none
  deviceType : Option UInt8 := none
  ieeePrefix : Option String := none
  endpoints : List FingerprintEndpoint := []
  priority : Int32 := 0
  deriving DecidableEq

/-- How a definition claims a device. -/
structure MatchRules where
  models : List String := []
  fingerprints : List Fingerprint := []
  deriving DecidableEq

/-- Equal length and containment, not sequence equality. -/
def setEqual {α : Type} [DecidableEq α] (a b : List α) : Bool :=
  a.length = b.length && a.all fun x => x ∈ b

/-- A requirement; what the interview never learned does not meet one. -/
def same {α : Type} [DecidableEq α] (required found : Option α) : Bool :=
  required.all fun want => found = some want

namespace Fingerprint

/-- It constrains nothing, and so matches every device. -/
def isEmpty (f : Fingerprint) : Bool :=
  f.modelId.isNone && f.manufacturerName.isNone && f.manufacturerId.isNone &&
    f.applicationVersion.isNone && f.stackVersion.isNone && f.zclVersion.isNone &&
    f.hardwareVersion.isNone && f.dateCode.isNone && f.softwareBuildId.isNone &&
    f.powerSource.isNone && f.deviceType.isNone && f.ieeePrefix.isNone && f.endpoints.isEmpty

/-- What a fingerprint requires of the endpoint with its number. -/
def endpointMatches (required : FingerprintEndpoint) (found : EndpointMatch) : Bool :=
  same required.profile found.profile && same required.deviceId found.deviceId &&
    required.inputClusters.all (fun wanted => setEqual wanted found.inputClusters) &&
    required.outputClusters.all fun wanted => setEqual wanted found.outputClusters

/-- As many endpoints as required, each required one among them and as required. -/
def endpointsMatch (f : Fingerprint) (device : DeviceMatch) : Bool :=
  if f.endpoints.isEmpty then true
  else if f.endpoints.length ≠ device.endpoints.length then false
  else if !f.endpoints.all fun required => device.endpoints.any fun e => e.id = required.id then
    false
  else f.endpoints.all fun required =>
    (device.endpoints.find? fun e => e.id = required.id).any (endpointMatches required)

def «matches» (f : Fingerprint) (device : DeviceMatch) : Bool :=
  same f.modelId device.modelId && same f.manufacturerName device.manufacturerName &&
    same f.manufacturerId device.manufacturerId &&
    same f.applicationVersion device.applicationVersion &&
    same f.stackVersion device.stackVersion && same f.zclVersion device.zclVersion &&
    same f.hardwareVersion device.hardwareVersion && same f.dateCode device.dateCode &&
    same f.softwareBuildId device.softwareBuildId && same f.powerSource device.powerSource &&
    same f.deviceType device.deviceType &&
    (f.ieeePrefix.all fun start =>
      device.ieee.any fun ieee => start.toList.isPrefixOf ieee.show.toList) &&
    f.endpointsMatch device

end Fingerprint

/-- Cut at the first NUL, and trimmed. -/
def normaliseModel (model : String) : String :=
  .ofList (Texts.trim (model.toList.takeWhile fun c => c ≠ Char.ofNat 0))

/-- The key a model is indexed under: normalised and lowercased. -/
def indexKey (lower : String → String) (model : String) : String := lower (normaliseModel model)

example : normaliseModel "TS0601\x00\x00" = "TS0601" := by decide
example : normaliseModel " NLG-RGBW light " = "NLG-RGBW light" := by decide

end Rszigbee
