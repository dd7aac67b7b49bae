import Rszigbee.Values
import Rszigbee.Definition
import Rszigbee.Registry

/-! What a device reports, and what it means. One table decides which attribute feeds
which capability, with its wire type and its scale. -/
namespace Rszigbee

namespace ClusterId

def identify : ClusterId := ⟨0x0003⟩
def onOff : ClusterId := ⟨0x0006⟩
def level : ClusterId := ⟨0x0008⟩
def lock : ClusterId := ⟨0x0101⟩
def windowCovering : ClusterId := ⟨0x0102⟩

end ClusterId

/-- How a raw value becomes a capability value. -/
inductive ValueShape
  | numeric (spec : NumericSpec)
  | boolean (on : Int64)
  | named (values : List (Int64 × String))
  deriving DecidableEq

/-- Where one capability's value comes from. -/
structure Source where
  capability : String
  cluster : ClusterId
  attr : AttrId
  ty : ZclType
  value : ValueShape
  deriving DecidableEq

namespace Source

def numeric (capability : String) (cluster attr : UInt16) (ty : ZclType) (divisor : Int64) :
    Source where
  capability := capability
  cluster := ⟨cluster⟩
  attr := ⟨attr⟩
  ty := ty
  value := .numeric { divisor := divisor }

/-- A boolean at attribute zero. -/
def boolean (capability : String) (cluster : UInt16) (ty : ZclType) : Source where
  capability := capability
  cluster := ⟨cluster⟩
  attr := ⟨0x0000⟩
  ty := ty
  value := .boolean 1

end Source

/-- The sources a helper implies rather than states. -/
def wellKnown : Extend → Option (List Source)
  | .temperature _ => some [.numeric "temperature" 0x0402 0x0000 (.int 2) 100]
  | .humidity _ => some [.numeric "humidity" 0x0405 0x0000 (.uint 2) 100]
  | .soilMoisture _ => some [.numeric "soil_moisture" 0x0408 0x0000 (.uint 2) 100]
  | .co2 _ => some [.numeric "co2" 0x040d 0x0000 .single 1]
  | .illuminance _ => some [.numeric "illuminance" 0x0400 0x0000 (.uint 2) 1]
  | .battery voltage => some (.numeric "battery" 0x0001 0x0021 (.uint 1) 2::
      if voltage then [.numeric "voltage" 0x0001 0x0020 (.uint 1) 10] else [])
  | .occupancy => some [.boolean "occupancy" 0x0406 (.bitmap 1)]
  | .windowCovering lift tilt _ => some (
      (if lift then [.numeric "position" 0x0102 0x0008 (.uint 1) 1] else []) ++
      (if tilt then [.numeric "tilt" 0x0102 0x0009 (.uint 1) 1] else []))
  -- `lockState`: 1 is locked, 2 unlocked.
  | .lock => some [⟨"lock",.lock,⟨0x0000⟩,.enum8,.boolean 1⟩]
  | .onOff _ => some [.boolean "state" 0x0006 .bool]
  | .light brightness => some (.boolean "state" 0x0006 .bool::
      if brightness then [.numeric "brightness" 0x0008 0x0000 (.uint 1) 1] else [])
  | _ => none

/-- The sources of one helper. -/
def implied (e : Extend) : List Source :=
  match wellKnown e with
  | some sources => sources
  | none =>
    match e with
    -- These carry their own wiring.
    | .numeric name cluster attr spec => [⟨name,cluster,attr,.int 2,.numeric spec⟩]
    | .binary name cluster attr valueOn => [⟨name,cluster,attr,.bool,.boolean valueOn⟩]
    | .enumLookup name cluster attr values => [⟨name,cluster,attr,.enum8,.named values⟩]
    | _ => []

def sources (definition : Definition) : List Source := definition.extend.flatMap implied

/-- The first source on an attribute. -/
def firstOn (definition : Definition) (cluster : ClusterId) (attr : UInt16) : Option Source :=
  (sources definition).find? fun s => s.cluster = cluster && s.attr.raw = attr

/-- `i64::try_from`. -/
def tryInt64 (v : UInt64) : Option Int64 := if v.toNat < 2 ^ 63 then some v.toInt64 else none

def ZclValue.asFlag : ZclValue → Option Int64
  | .bool b => some (if b then 1 else 0)
  | _ => Option.none

def ValueShape.convert (shape : ValueShape) (value : ZclValue) : Option StateValue :=
  match shape with
  | .numeric spec =>
    (value.asInt <|> value.asUint.bind tryInt64).map fun raw => .float (spec.apply raw.toInt)
  | .boolean on =>
    (value.asUint.bind tryInt64 <|> value.asInt <|> value.asFlag).map fun raw =>
      .bool (raw = on)
  | .named values => do
    let raw ← value.asUint.bind tryInt64 <|> value.asInt
    let entry ← values.find? fun entry => entry.1 = raw
    pure (.enum entry.2)

/-- A report as a capability value. "No reading" becomes null rather than zero. -/
def reportToState (definition : Definition) (cluster : ClusterId) (attr : UInt16)
    (value : ZclValue) : Option (CapabilityId × StateValue) :=
  match firstOn definition cluster attr with
  | none => none
  | some source =>
    if value.isInvalid then some (⟨source.capability⟩,.null)
    else (source.value.convert value).map fun state => (⟨source.capability⟩,state)

section Readable

/-- The wire types each shape is declared with; only readings in parts per million are
floats. -/
def Source.Typed (s : Source) : Prop :=
  match s.value with
  | .numeric _ => s.ty = .int 2 ∨ s.ty = .uint 1 ∨ s.ty = .uint 2 ∨
      s = .numeric "co2" 0x040d 0x0000 .single 1
  | .boolean _ => s.ty = .bool ∨ s.ty = .bitmap 1 ∨ s.ty = .enum8
  | .named _ => s.ty = .enum8

theorem typed_of_mem_implied {e : Extend} {s : Source} (h : s ∈ implied e) : s.Typed := by
  cases e with
  | battery flag | light flag =>
    cases flag <;> simp [implied,wellKnown] at h <;>
      rcases h with rfl | rfl <;> simp [Source.Typed,Source.numeric,Source.boolean]
  | windowCovering lift tilt inverted =>
    cases lift <;> cases tilt <;> simp [implied,wellKnown] at h <;>
      rcases h with rfl | rfl <;> simp [Source.Typed,Source.numeric]
  | temperature | humidity | soilMoisture | co2 | illuminance | occupancy | lock | onOff
  | numeric | binary | enumLookup =>
    simp [implied,wellKnown] at h
    simp [h,Source.Typed,Source.numeric,Source.boolean]
  | _ => simp [implied,wellKnown] at h

theorem typed_of_mem_sources {d : Definition} {s : Source} (h : s ∈ sources d) : s.Typed := by
  obtain ⟨e,-,hs⟩ := List.mem_flatMap.mp h
  exact typed_of_mem_implied hs

/-- A declared float is the carbon dioxide sensor's. -/
theorem Source.Typed.eq_co2 {s : Source} (h : s.Typed) (hty : s.ty = .single) :
    s = .numeric "co2" 0x040d 0x0000 .single 1 := by
  rw [Typed,hty] at h
  split at h <;> simp at h
  exact h

theorem toInt_toInt64 {v : UInt64} (h : v.toNat < 2 ^ 63) : v.toInt64.toInt = v.toNat := by
  show v.toBitVec.toInt = v.toNat
  rw [BitVec.toInt_eq_toNat_of_lt]
  · rfl
  · show 2 * v.toNat < 2 ^ 64
    omega

theorem tryInt64_of_lt {v : UInt64} (h : v.toNat < 2 ^ 63) : tryInt64 v = some v.toInt64 :=
  if_pos h

theorem ZclType.Carries.isInvalid {ty : ZclType} {v : ZclValue} (h : ty.Carries v) :
    v.isInvalid = false := by
  cases ty with
  | noData | unk =>
    cases h
    rfl
  | bool | octStr | charStr | clusterId | attrId | time | ieee | key128 | unknown =>
    obtain ⟨x,rfl⟩ := h
    rfl
  | _ =>
    obtain ⟨x,-,rfl⟩ := h
    rfl

/-- A numeric source converts what its type carries, unless that is a float. -/
theorem convert_numeric_iff {s : Source} {spec : NumericSpec} (hs : s.value = .numeric spec)
    (htyped : s.Typed) {v : ZclValue} (hv : s.ty.Carries v) :
    (s.value.convert v).isSome ↔ s.ty ≠ .single := by
  simp only [Source.Typed,hs] at htyped
  rcases htyped with hty | hty | hty | rfl
  · rw [hty] at hv
    obtain ⟨raw,-,rfl⟩ := hv
    simp [hs,hty,ValueShape.convert,ZclValue.asInt]
  · rw [hty] at hv
    obtain ⟨x,-,rfl⟩ := hv
    simp [hs,hty,ValueShape.convert,ZclValue.asInt]
  · rw [hty] at hv
    obtain ⟨x,-,rfl⟩ := hv
    simp [hs,hty,ValueShape.convert,ZclValue.asInt]
  · obtain ⟨bits,-,rfl⟩ := hv
    simp [Source.numeric,ValueShape.convert,ZclValue.asInt,ZclValue.asUint]

/-- A boolean source converts whatever its type carries. -/
theorem convert_boolean {s : Source} {on : Int64} (hs : s.value = .boolean on)
    (htyped : s.Typed) {v : ZclValue} (hv : s.ty.Carries v) :
    (s.value.convert v).isSome ∧ s.ty ≠ .single := by
  simp only [Source.Typed,hs] at htyped
  rcases htyped with hty | hty | hty
  · rw [hty] at hv
    obtain ⟨b,rfl⟩ := hv
    cases b <;> simp [hs,hty,ValueShape.convert,ZclValue.asUint,tryInt64]
  · rw [hty] at hv
    obtain ⟨x,hx,rfl⟩ := hv
    have hlt : x.toNat < 2 ^ 63 := by
      have : 256 ^ (1 : UInt8).toNat = 256 := by decide
      omega
    simp [hs,hty,ValueShape.convert,ZclValue.asUint,tryInt64_of_lt hlt]
  · rw [hty] at hv
    obtain ⟨x,-,rfl⟩ := hv
    have hlt : x.toUInt64.toNat < 2 ^ 63 := by
      have := x.toNat_lt
      simp
      omega
    simp [hs,hty,ValueShape.convert,ZclValue.asUint,tryInt64_of_lt hlt]

theorem of_firstOn {d : Definition} {cluster : ClusterId} {attr : UInt16} {s : Source}
    (h : firstOn d cluster attr = some s) :
    s ∈ sources d ∧ s.cluster = cluster ∧ s.attr.raw = attr := by
  have hmem := List.mem_of_find?_eq_some h
  have hkey := List.find?_some h
  simp only [Bool.and_eq_true,decide_eq_true_eq] at hkey
  exact ⟨hmem,hkey⟩

def ValueShape.isNamed : ValueShape → Bool
  | named _ => true
  | _ => false

theorem report_defined_iff (d : Definition) (s : Source) (v : ZclValue)
    (hfirst : firstOn d s.cluster s.attr.raw = some s) (hv : s.ty.Yields v)
    (hshape : v.isInvalid ∨ s.value.isNamed = false) :
    (reportToState d s.cluster s.attr.raw v).isSome ↔ (s.ty = .single → v.isInvalid) := by
  have htyped := typed_of_mem_sources (of_firstOn hfirst).1
  obtain ⟨r,r',hr⟩ := hv
  rw [reportToState,hfirst]
  rcases decodeValue_carries hr with rfl | hcarries
  · simp [ZclValue.isInvalid]
  · have hvalid := hcarries.isInvalid
    simp only [hvalid,Bool.false_eq_true,if_false,Option.isSome_map,imp_false]
    cases hs : s.value with
    | numeric spec =>
      have hconv := convert_numeric_iff hs htyped hcarries
      rwa [hs] at hconv
    | boolean on =>
      have hconv := convert_boolean hs htyped hcarries
      rw [hs] at hconv
      simp [hconv]
    | named values => simp [hvalid,hs,ValueShape.isNamed] at hshape

theorem report_defined_temperature :
    (reportToState { extend := [.temperature {}] } ⟨0x0402⟩ 0x0000 (.int (-1000))).isSome :=
  (report_defined_iff { extend := [.temperature {}] }
    (.numeric "temperature" 0x0402 0x0000 (.int 2) 100) (.int (-1000)) (by decide)
    ⟨.new [0x18,0xfc],⟨[],2⟩,by decide⟩ (.inr rfl)).mpr nofun

/-- 300 parts per million. -/
theorem co2_report_dropped :
    let d : Definition := { extend := [.co2 {}] }
    let s : Source := .numeric "co2" 0x040d 0x0000 .single 1
    let v : ZclValue := .single 0x43960000
    firstOn d s.cluster s.attr.raw = some s ∧ s.ty.Yields v ∧ s.value.isNamed = false ∧
      (reportToState d s.cluster s.attr.raw v).isSome = false :=
  ⟨by decide,⟨.new [0x00,0x00,0x96,0x43],⟨[],4⟩,by decide⟩,rfl,by decide⟩

end Readable

section Actions

/-- Whether a mode byte says up; an absent one does. -/
def upward (params : List (String × ZclValue)) (name : String) : Bool :=
  match ((params.find? fun p => p.1 = name).map Prod.snd).bind ZclValue.asUint with
  | some mode => mode = 0
  | none => true

/-- The name of a level command, with its direction. -/
def levelAction (command : UInt8) (params : List (String × ZclValue)) : Option String :=
  if command = 0x00 ∨ command = 0x04 then some "brightness_move_to_level"
  else if command = 0x01 ∨ command = 0x05 then
    some (if upward params "movemode" then "brightness_move_up" else "brightness_move_down")
  else if command = 0x02 ∨ command = 0x06 then
    some (if upward params "stepmode" then "brightness_step_up" else "brightness_step_down")
  else if command = 0x03 ∨ command = 0x07 then some "brightness_stop"
  else none

/-- `0x40` is off with an effect. -/
def onOffAction (command : UInt8) : Option String :=
  if command = 0x00 ∨ command = 0x40 then some "off"
  else if command = 0x01 then some "on"
  else if command = 0x02 then some "toggle"
  else none

def commandsOnOff (definition : Definition) : Option (List String) :=
  definition.extend.findSome? fun
    | .commandsOnOff commands => some commands
    | _ => none

def commandsLevelCtrl (definition : Definition) : Option (List String) :=
  definition.extend.findSome? fun
    | .commandsLevelCtrl commands => some commands
    | _ => none

/-- A received command as the action the definition declares for it. -/
def commandToAction (definition : Definition) (cluster : ClusterId) (command : UInt8)
    (params : List (String × ZclValue)) : Option (CapabilityId × String) := do
  let (declared,action) ←
    if cluster = .onOff then do
      let declared ← commandsOnOff definition
      let action ← onOffAction command
      pure (declared,action)
    else if cluster = .level then do
      let declared ← commandsLevelCtrl definition
      let action ← levelAction command params
      pure (declared,action)
    else none
  if action ∈ declared then some (⟨"action"⟩,action) else none

end Actions

/-- Wire tags as types. -/
def typedParams (params : List (String × UInt8)) : List (String × ZclType) :=
  params.map fun p => (p.1,.fromU8 p.2)

def CustomCluster.toDef (custom : CustomCluster) : ClusterDef :=
  let c := { ClusterDef.new custom.id.raw custom.name with
    manufacturer := custom.manufacturer.map .mk }
  let c := custom.attributes.foldl (fun c a => c.attr a.1 a.2.1 (.fromU8 a.2.2)) c
  let c := custom.commands.foldl (fun c a => c.cmd a.1 a.2.1 (typedParams a.2.2)) c
  custom.responses.foldl (fun c a => c.rsp a.1 a.2.1 (typedParams a.2.2)) c

/-- The manufacturer-specific clusters a definition declares. -/
def customClusters (definition : Definition) : List ClusterDef :=
  definition.extend.filterMap fun
    | .addCustomCluster custom => some custom.toDef
    | _ => none

end Rszigbee
