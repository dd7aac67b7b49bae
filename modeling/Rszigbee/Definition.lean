import Rszigbee.State
import Rszigbee.Matcher

/-! What a device is, expressed as data. -/
namespace Rszigbee

/-- How a raw value becomes a quantity. -/
structure NumericSpec where
  divisor : Int64 := 1
  offset : Int64 := 0
  deriving DecidableEq

/-- A zero divisor is taken as one. -/
def NumericSpec.apply (spec : NumericSpec) (raw : ℤ) : Float :=
  let divisor := if spec.divisor = 0 then 1 else spec.divisor
  let scaled := floatOfInt raw / floatOfInt divisor.toInt
  scaled + floatOfInt spec.offset.toInt

/-- A manufacturer-specific cluster; types are wire tags. -/
structure CustomCluster where
  name : String
  id : ClusterId
  manufacturer : Option UInt16
  attributes : List (UInt16 × String × UInt8)
  commands : List (UInt8 × String × List (String × UInt8))
  responses : List (UInt8 × String × List (String × UInt8))
  deriving DecidableEq

/-- One capability a device has. -/
inductive Extend
  | light (brightness : Bool)
  | identify
  | onOff (endpoints : List EndpointId)
  | battery (voltage : Bool)
  | deviceEndpoints
  | electricityMeter
  | temperature (spec : NumericSpec)
  | humidity (spec : NumericSpec)
  | illuminance (spec : NumericSpec)
  | soilMoisture (spec : NumericSpec)
  | co2 (spec : NumericSpec)
  | occupancy
  | iasZoneAlarm (alarms : List String)
  | numeric (name : String) (cluster : ClusterId) (attr : AttrId) (spec : NumericSpec)
  | binary (name : String) (cluster : ClusterId) (attr : AttrId) (valueOn : Int64)
  | enumLookup (name : String) (cluster : ClusterId) (attr : AttrId)
      (values : List (Int64 × String))
  | windowCovering (lift tilt inverted : Bool)
  | lock
  | tuyaBase
  | commandsOnOff (commands : List String)
  | commandsLevelCtrl (commands : List String)
  | forcePowerSource (source : PowerSourceHint)
  | addCustomCluster (cluster : CustomCluster)
  | unsupported (helper note : String)
  deriving DecidableEq

structure Reporting where
  attr : AttrId
  minInterval : UInt16
  maxInterval : UInt16
  minChange : UInt64
  deriving DecidableEq

structure Binding where
  endpoint : EndpointId
  cluster : ClusterId
  reporting : List Reporting
  deriving DecidableEq

/-- Whether a capability can be read or written. -/
inductive Access
  | report | reportAndSet | set
  deriving DecidableEq

/-- How a Tuya datapoint's payload is interpreted; a behaviour is named. -/
inductive TuyaKind
  | bool (inverted : Bool)
  | value (spec : NumericSpec)
  | enum (names : List (Int64 × String))
  | bitmap (names : List (UInt8 × String))
  | string
  | raw
  | behavior (name : String)
  deriving DecidableEq

/-- One Tuya datapoint, mapped to a capability. -/
structure TuyaDatapoint where
  dp : UInt8
  name : String
  kind : TuyaKind
  access : Access := .report
  deriving DecidableEq

/-- Everything known about one device model. -/
structure Definition where
  model : String := ""
  matchRules : MatchRules := {}
  extend : List Extend := []
  bindings : List Binding := []
  endpointNames : List (String × EndpointId) := []
  tuyaDatapoints : List TuyaDatapoint := []
  deriving DecidableEq

end Rszigbee
