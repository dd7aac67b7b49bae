import Rszigbee.Behaviour
import Rszigbee.Tuya
import Mathlib.Algebra.Order.Ring.Int
import Mathlib.Algebra.Order.Ring.Abs
import Mathlib.Tactic.FieldSimp
import Mathlib.Data.Rat.Cast.Defs

/-! The Tuya datapoint engine. Frames become capability values and commands become datapoints
through one table; a number the table does not mention means nothing. -/
namespace Rszigbee

/-- The same scaling without rounding. -/
def NumericSpec.exact (spec : NumericSpec) (raw : ℤ) : ℚ :=
  let divisor := if spec.divisor = 0 then 1 else spec.divisor
  (raw : ℚ) / (divisor.toInt : ℚ) + (spec.offset.toInt : ℚ)

namespace StateChanges

def get (c : StateChanges) (id : CapabilityId) : Option StateValue :=
  (c.entries.find? fun e => e.1 = id).map Prod.snd

/-- Sets several values in turn. -/
def setAll (c : StateChanges) (changes : List (CapabilityId × StateValue)) : StateChanges :=
  changes.foldl (fun c e => c.set e.1 e.2) c

/-- Everything of the other on top. -/
def merge (c other : StateChanges) : StateChanges := c.setAll other.entries

end StateChanges

/-- Whether a behaviour dealt with something; "nothing" is an answer too. -/
inductive Outcome (α : Type)
  | handled (answer : α)
  | notHandled

def Outcome.answer {α : Type} : Outcome α → Option α
  | handled a => some a
  | notHandled => none

/-- What a table cannot express, as code that a definition names. -/
structure Behavior where
  decodeDatapoint : DeviceInfo → Definition → Tuya.Datapoint → String → Outcome StateChanges
  encodeCommand : DeviceInfo → Definition → CapabilityCommand → Outcome (List Tuya.Datapoint)

abbrev BehaviorRegistry := Table String Behavior

namespace Tuya

/-- What a datapoint reads as: a value, or a quantity in the arithmetic used. -/
inductive Reading (Q : Type)
  | plain (v : StateValue)
  | quantity (q : Q)

def Reading.toState : Reading Float → StateValue
  | plain v => v
  | quantity x => .float x

section ToState
variable {Q : Type} (apply : NumericSpec → ℤ → Q)

/-- One datapoint's converter. A type the table contradicts reads as nothing. -/
def convert (entry : TuyaDatapoint) (value : Value) : Option (Reading Q) :=
  match entry.kind,value with
  | .bool inverted,.bool on => some (.plain (.bool (on ^^ inverted)))
  -- Some firmware reports a boolean as an enum or a number.
  | .bool inverted,.enum v => some (.plain (.bool ((v ≠ 0) ^^ inverted)))
  | .bool inverted,.number v => some (.plain (.bool ((v ≠ 0) ^^ inverted)))
  | .value spec,.number raw => some (.quantity (apply spec raw.toInt))
  | .value spec,.bitmap raw => some (.quantity (apply spec raw.toNat))
  | .enum names,.bool on =>
    match names.find? fun n => n.1 = if on then 1 else 0 with
    | none => some (.plain (.bool on))
    | some (_,name) => some (.plain (.enum name))
  -- An unnamed value is reported by number.
  | .enum names,.enum raw =>
    match names.find? fun n => n.1 = raw.toUInt64.toInt64 with
    | none => some (.plain (.int raw.toUInt64.toInt64))
    | some (_,name) => some (.plain (.enum name))
  | .bitmap names,.bitmap bits => some (.plain (.list
      ((names.filter fun n => bits &&& ((1 : UInt32) <<< n.1.toUInt32) ≠ 0).map fun n =>
        .str n.2)))
  | .string,.str text => some (.plain (.str text))
  | .raw,.raw bytes => some (.plain (.list (bytes.map fun b => .int b.toUInt64.toInt64)))
  | _,_ => none

variable (behaviors : BehaviorRegistry) (definition : Definition) (device : DeviceInfo)

/-- What one datapoint sets, in turn. The first entry with its number decides, and one that
names a behaviour leaves everything to it. -/
def readings (point : Datapoint) : List (CapabilityId × Reading Q) :=
  match definition.tuyaDatapoints.find? fun d => d.dp = point.dp with
  | none => []
  | some entry =>
    match entry.kind with
    | .behavior name =>
      match behaviors.lookup name with
      | none => []
      | some behavior =>
        match (behavior.decodeDatapoint device definition point entry.name).answer with
        | none => []
        | some delegated => delegated.entries.map fun e => (e.1,.plain e.2)
    | _ =>
      match convert apply entry point.value with
      | none => []
      | some value => [(⟨entry.name⟩,value)]

end ToState

/-- Reported datapoints as capability values. -/
def datapointsToState (behaviors : BehaviorRegistry) (definition : Definition)
    (datapoints : List Datapoint) (device : DeviceInfo) : StateChanges :=
  datapoints.foldl (fun changes point => changes.setAll
    ((readings NumericSpec.apply behaviors definition device point).map fun e =>
      (e.1,e.2.toState))) .new

section OfCommand

/-- `f64::round` and `as i64`, which saturates and takes no number as zero. -/
def scale (value : Float) : Int64 :=
  match value.toModel.unpack with
  | .zero _ | .notANumber => 0
  | .infinity sign => match sign with
    | .positive => Int64.maxValue
    | .negative => Int64.minValue
  | .finite sign mantissa exponent _ =>
    let magnitude := Floats.rounded mantissa exponent
    match sign with
    | .positive => .ofIntClamp magnitude
    | .negative => .ofIntClamp (-magnitude)

/-- What a command wants. -/
inductive Intent
  | bool (on : Bool)
  | number (n : Int64)
  | named (name : String)

/-- The capability a command addresses, and the value it asks for. -/
def intentOf : CapabilityCommand → Option (String × Intent)
  | .setOn on => some ("state",.bool on)
  | .setBrightness level => some ("brightness",.number level.raw.toUInt64.toInt64)
  | .setPosition percent => some ("position",.number percent.raw.toUInt64.toInt64)
  | .setPreset name => some ("preset",.named name)
  | .setTargetTemperature degrees => some ("current_heating_setpoint",.number (scale degrees))
  | .openCover => some ("state",.named "OPEN")
  | .closeCover => some ("state",.named "CLOSE")
  | .stopCover => some ("state",.named "STOP")
  | .lock => some ("lock",.bool true)
  | .unlock => some ("lock",.bool false)
  | _ => none

/-- `i32::try_from`. -/
def tryInt32 (v : Int64) : Option Int32 :=
  if -2 ^ 31 ≤ v.toInt ∧ v.toInt < 2 ^ 31 then some (.ofInt v.toInt) else none

/-- A value for one datapoint, by its declared kind. -/
def encodeIntent (entry : TuyaDatapoint) (intent : Intent) : Option Value :=
  match entry.kind,intent with
  | .bool inverted,.bool on => some (.bool (on ^^ inverted))
  | .value spec,.number n =>
    let divisor := if spec.divisor = 0 then 1 else spec.divisor
    -- both steps saturate
    let scaled := Int64.ofIntClamp (n.toInt - spec.offset.toInt)
    (tryInt32 (.ofIntClamp (scaled.toInt * divisor.toInt))).map .number
  | .enum names,.named name =>
    ((names.find? fun n => n.2 = name).bind fun n => tryUInt8 n.1).map .enum
  -- A boolean to an enum: the names are `ON` and `OFF`, in any case.
  | .enum names,.bool on =>
    let want := if on then "ON" else "OFF"
    ((names.find? fun n => asciiUppercase n.2 = want).bind fun n => tryUInt8 n.1).map .enum
  | .string,.named name => some (.str name)
  | _,_ => none

/-- A command as a datapoint. A capability the definition does not give, or gives to be read
only, is refused. -/
def commandToDatapoint (definition : Definition) (command : CapabilityCommand) :
    Option Datapoint := do
  let (capability,intent) ← intentOf command
  let entry ← definition.tuyaDatapoints.find? fun d => d.name = capability
  if entry.access = .report then none
  let value ← encodeIntent entry intent
  some ⟨entry.dp,value⟩

/-- A command through the first behaviour that claims it, of those the definition names. -/
def commandViaBehavior (behaviors : BehaviorRegistry) (definition : Definition)
    (command : CapabilityCommand) (device : DeviceInfo) : Option (List Datapoint) :=
  definition.tuyaDatapoints.findSome? fun entry =>
    match entry.kind with
    | .behavior name => (behaviors.lookup name).bind fun behavior =>
        (behavior.encodeCommand device definition command).answer
    | _ => none

end OfCommand

section ReadBack

/-- The value set last under a name. -/
def lastSet {α : Type} (changes : List (CapabilityId × α)) (id : CapabilityId) : Option α :=
  (changes.reverse.find? fun e => e.1 = id).map Prod.snd

namespace Intent

/-- The names that ask for the intent; a boolean is asked for by `ON` and `OFF`. -/
def means : Intent → String → Bool
  | bool on, s => asciiUppercase s = if on then "ON" else "OFF"
  | named name, s => s = name
  | number _, _ => false

/-- The readings that are the value asked for. -/
def Asks : Intent → Reading ℚ → Prop
  | bool on, .plain (.bool b) => b = on
  | named name, .plain (.str s) => s = name
  | number n, .quantity q => q = n.toInt
  | number n, .plain (.int i) => i = n
  | number n, .plain (.float x) => x = floatOfInt n.toInt
  | intent, .plain (.enum s) => intent.means s = true
  | _, _ => False

end Intent

/-- The entry found by name is the first with its number too, and of an enum's names the first
with the number written asks for the same. -/
def Unshadowed (definition : Definition) (capability : String) (intent : Intent) : Prop :=
  ∃ entry, definition.tuyaDatapoints.find? (fun d => d.name = capability) = some entry ∧
    definition.tuyaDatapoints.find? (fun d => d.dp = entry.dp) = some entry ∧
    ∀ names, entry.kind = .enum names → ∀ n, names.find? (fun n => intent.means n.2) = some n →
      ∀ first, names.find? (fun m => m.1 = n.1) = some first → intent.means first.2 = true

/-- The first entry with the number leaves it to a behaviour, and this one reports the value
asked for. -/
def Delegated (behaviors : BehaviorRegistry) (definition : Definition) (device : DeviceInfo)
    (capability : String) (intent : Intent) (point : Datapoint) : Prop :=
  ∃ entry name behavior changes v,
    definition.tuyaDatapoints.find? (fun d => d.dp = point.dp) = some entry ∧
    entry.kind = .behavior name ∧ behaviors.lookup name = some behavior ∧
    (behavior.decodeDatapoint device definition point entry.name).answer = some changes ∧
    changes.get ⟨capability⟩ = some v ∧ intent.Asks (.plain v)

/-- Fed back as a report, the datapoint sets the capability to the value asked for. -/
def ReadsBack (behaviors : BehaviorRegistry) (definition : Definition) (device : DeviceInfo)
    (capability : String) (intent : Intent) (point : Datapoint) : Prop :=
  ∃ v, lastSet (readings NumericSpec.exact behaviors definition device point) ⟨capability⟩ =
    some v ∧ intent.Asks v

/-- Two first matches, each of which passes the other's test, are the same. -/
theorem find?_eq_find? {α : Type} {p q : α → Bool} {l : List α} {a b : α}
    (ha : l.find? p = some a) (hb : l.find? q = some b) (hpb : p b = true) (hqa : q a = true) :
    a = b := by
  induction l with
  | nil => cases ha
  | cons x l ih =>
    rw [List.find?_cons] at ha hb
    cases hp : p x with
    | true =>
      rw [hp] at ha
      cases ha
      rw [hqa] at hb
      exact Option.some.inj hb
    | false =>
      rw [hp] at ha
      cases hq : q x with
      | true =>
        rw [hq] at hb
        cases hb
        rw [hpb] at hp
        cases hp
      | false =>
        rw [hq] at hb
        exact ih ha hb

theorem toInt_ofIntClamp (v : ℤ) : (Int64.ofIntClamp v).toInt =
    if v < -2 ^ 63 then -2 ^ 63 else if 2 ^ 63 ≤ v then 2 ^ 63 - 1 else v := by
  have hmin : Int64.minValue.toInt = -2 ^ 63 := by decide
  have hmax : Int64.maxValue.toInt = 2 ^ 63 - 1 := by decide
  rw [Int64.ofIntClamp]
  by_cases hlow : Int64.minValue.toInt ≤ v
  · rw [dif_pos hlow]
    by_cases hhigh : v ≤ Int64.maxValue.toInt
    · rw [dif_pos hhigh,Int64.toInt_ofIntLE]
      rw [if_neg (by omega),if_neg (by omega)]
    · rw [dif_neg hhigh,hmax,if_neg (by omega),if_pos (by omega)]
  · rw [dif_neg hlow,hmin,if_pos (by omega)]

/-- A number that was not refused did not saturate on its way. -/
theorem number_of_clamped {x d : ℤ} (hd : d ≠ 0) {m : Int32}
    (h : tryInt32 (.ofIntClamp ((Int64.ofIntClamp x).toInt * d)) = some m) : m.toInt = x * d := by
  rw [tryInt32] at h
  split at h
  · rename_i hrange
    cases h
    have hx := toInt_ofIntClamp x
    have hprod := toInt_ofIntClamp ((Int64.ofIntClamp x).toInt * d)
    generalize (Int64.ofIntClamp x).toInt = y at *
    have hyd : (Int64.ofIntClamp (y * d)).toInt = y * d := by
      rw [hprod] at hrange ⊢
      split at hrange
      · omega
      · split at hrange
        · omega
        · rw [if_neg (by assumption),if_neg (by assumption)]
    have hxy : y = x := by
      rw [hyd] at hrange
      by_contra hne
      have hbig : 2 ^ 63 - 1 ≤ |y| := by
        split at hx
        · rw [hx]; decide
        · split at hx
          · rw [hx]; decide
          · exact absurd hx hne
      have hone : 1 ≤ |d| := Int.one_le_abs hd
      have habs : |y| ≤ |y * d| := by
        rw [abs_mul]
        exact le_mul_of_one_le_right (abs_nonneg y) hone
      have hsmall : |y * d| ≤ 2 ^ 31 := abs_le.mpr ⟨hrange.1,hrange.2.le⟩
      omega
    rw [Int32.toInt_ofInt_of_le (by omega) (by omega),hyd,hxy]
  · cases h

theorem divisor_ne_zero (spec : NumericSpec) :
    (if spec.divisor = 0 then (1 : Int64) else spec.divisor).toInt ≠ 0 := by
  split
  · decide
  · rename_i hne
    intro h
    exact hne (Int64.toInt_inj.mp h)

theorem exact_scaled (spec : NumericSpec) (n : ℤ) :
    spec.exact ((n - spec.offset.toInt) *
      (if spec.divisor = 0 then (1 : Int64) else spec.divisor).toInt) = n := by
  have hd := divisor_ne_zero spec
  rw [NumericSpec.exact]
  generalize (if spec.divisor = 0 then (1 : Int64) else spec.divisor).toInt = d at hd
  have hq : (d : ℚ) ≠ 0 := by exact_mod_cast hd
  push_cast
  field_simp
  ring

/-- What a command's datapoint consists of. -/
theorem commandToDatapoint_ok {definition : Definition} {command : CapabilityCommand}
    {capability : String} {intent : Intent} {point : Datapoint}
    (hintent : intentOf command = some (capability,intent))
    (hpoint : commandToDatapoint definition command = some point) :
    ∃ entry, definition.tuyaDatapoints.find? (fun d => d.name = capability) = some entry ∧
      ∃ value, encodeIntent entry intent = some value ∧ point = ⟨entry.dp,value⟩ := by
  rw [commandToDatapoint,hintent] at hpoint
  simp only [Option.bind_eq_bind,Option.bind_some] at hpoint
  cases hentry : definition.tuyaDatapoints.find? (fun d => d.name = capability) with
  | none =>
    rw [hentry] at hpoint
    cases hpoint
  | some entry =>
    rw [hentry] at hpoint
    simp only [Option.bind_some] at hpoint
    by_cases haccess : entry.access = .report
    · rw [if_pos haccess] at hpoint
      cases hpoint
    · rw [if_neg haccess] at hpoint
      cases hvalue : encodeIntent entry intent with
      | none =>
        rw [hvalue] at hpoint
        cases hpoint
      | some value =>
        rw [hvalue] at hpoint
        cases hpoint
        exact ⟨entry,rfl,value,hvalue,rfl⟩

theorem toInt64_tryUInt8 {v : Int64} {raw : UInt8} (h : tryUInt8 v = some raw) :
    raw.toUInt64.toInt64 = v := by
  rw [tryUInt8] at h
  split at h
  · rename_i hrange
    cases h
    have hlt : v.toInt.toNat < 256 := by omega
    apply Int64.toInt_inj.mp
    rw [toInt_toInt64,UInt8.toNat_toUInt64,UInt8.toNat_ofNat_of_lt' hlt]
    · omega
    · rw [UInt8.toNat_toUInt64,UInt8.toNat_ofNat_of_lt' hlt]
      omega
  · cases h

/-- What is written to an enum is the number of the first name that asks for it. -/
theorem encodeIntent_enum {entry : TuyaDatapoint} {names : List (Int64 × String)}
    (hkind : entry.kind = .enum names) {intent : Intent} {value : Value}
    (hvalue : encodeIntent entry intent = some value) :
    ∃ n raw, names.find? (fun n => intent.means n.2) = some n ∧ tryUInt8 n.1 = some raw ∧
      value = .enum raw := by
  have hnamed : ((names.find? fun n => intent.means n.2).bind fun n => tryUInt8 n.1).map .enum =
      some value := by
    cases entry
    cases hkind
    cases intent with
    | number n => cases hvalue
    | bool on => exact hvalue
    | named name => exact hvalue
  rw [Option.map_eq_some_iff] at hnamed
  obtain ⟨raw,hraw,rfl⟩ := hnamed
  obtain ⟨n,hfind,hraw⟩ := Option.bind_eq_some_iff.mp hraw
  exact ⟨n,raw,hfind,hraw,rfl⟩

/-- What is written to a number, if it is written at all, is the scaled number. -/
theorem encodeIntent_value {entry : TuyaDatapoint} {spec : NumericSpec}
    (hkind : entry.kind = .value spec) {intent : Intent} {value : Value}
    (hvalue : encodeIntent entry intent = some value) :
    ∃ n raw, intent = .number n ∧ value = .number raw ∧
      raw.toInt = (n.toInt - spec.offset.toInt) *
        (if spec.divisor = 0 then (1 : Int64) else spec.divisor).toInt := by
  cases entry
  cases hkind
  cases intent with
  | number n =>
    obtain ⟨raw,hraw,rfl⟩ := Option.map_eq_some_iff.mp hvalue
    exact ⟨n,raw,rfl,rfl,number_of_clamped (divisor_ne_zero spec) hraw⟩
  | bool on => cases hvalue
  | named name => cases hvalue

section Convert
variable {Q : Type} (apply : NumericSpec → ℤ → Q) {entry : TuyaDatapoint}

theorem convert_bool {inverted : Bool} (hkind : entry.kind = .bool inverted) (on : Bool) :
    convert apply entry (.bool on) = some (.plain (.bool (on ^^ inverted))) := by
  cases entry
  cases hkind
  rfl

theorem convert_number {spec : NumericSpec} (hkind : entry.kind = .value spec) (raw : Int32) :
    convert apply entry (.number raw) = some (.quantity (apply spec raw.toInt)) := by
  cases entry
  cases hkind
  rfl

theorem convert_enum {names : List (Int64 × String)} (hkind : entry.kind = .enum names)
    {raw : UInt8} {first : Int64 × String}
    (hfirst : names.find? (fun n => n.1 = raw.toUInt64.toInt64) = some first) :
    convert apply entry (.enum raw) = some (.plain (.enum first.2)) := by
  cases entry
  cases hkind
  simp only [convert,hfirst]

theorem convert_str (hkind : entry.kind = .string) (text : String) :
    convert apply entry (.str text) = some (.plain (.str text)) := by
  cases entry
  cases hkind
  rfl

end Convert

/-- Read by its own entry, what was written is the value asked for; of an enum it is the first
name with the number. -/
theorem convert_encodeIntent {entry : TuyaDatapoint} {intent : Intent} {value : Value}
    (hvalue : encodeIntent entry intent = some value) :
    ∃ v, convert NumericSpec.exact entry value = some v ∧
      (intent.Asks v ↔ ∀ names, entry.kind = .enum names →
        ∀ n, names.find? (fun n => intent.means n.2) = some n →
        ∀ first, names.find? (fun m => m.1 = n.1) = some first → intent.means first.2 = true) := by
  cases hkind : entry.kind with
  | enum names =>
    obtain ⟨n,raw,hfind,hraw,rfl⟩ := encodeIntent_enum hkind hvalue
    have hback := toInt64_tryUInt8 hraw
    obtain ⟨first,hfirst⟩ : ∃ first, names.find? (fun m => m.1 = n.1) = some first := by
      rw [← Option.isSome_iff_exists,List.find?_isSome]
      exact ⟨n,List.mem_of_find?_eq_some hfind,by simp⟩
    refine ⟨.plain (.enum first.2),?_,?_⟩
    · rw [← hback] at hfirst
      exact convert_enum NumericSpec.exact hkind hfirst
    · have hasks : intent.Asks (.plain (.enum first.2)) ↔ intent.means first.2 = true := by
        cases intent <;> rfl
      rw [hasks]
      constructor
      · intro hmeans names' hnames n' hn' first' hfirst'
        cases hnames
        rw [hfind] at hn'
        cases hn'
        rw [hfirst] at hfirst'
        cases hfirst'
        exact hmeans
      · intro h
        exact h names rfl n hfind first hfirst
  | value spec =>
    obtain ⟨n,raw,rfl,rfl,hraw⟩ := encodeIntent_value hkind hvalue
    refine ⟨.quantity n.toInt,?_,?_⟩
    · rw [convert_number NumericSpec.exact hkind,hraw,exact_scaled]
    · simp [Intent.Asks]
  | bool inverted =>
    have hbool : ∃ on, intent = .bool on ∧ value = .bool (on ^^ inverted) := by
      cases entry
      cases hkind
      cases intent with
      | bool on => exact ⟨on,rfl,(Option.some.inj hvalue).symm⟩
      | number n => cases hvalue
      | named name => cases hvalue
    obtain ⟨on,rfl,rfl⟩ := hbool
    refine ⟨.plain (.bool on),?_,?_⟩
    · simp [convert_bool NumericSpec.exact hkind]
    · simp [Intent.Asks]
  | string =>
    have hnamed : ∃ name, intent = .named name ∧ value = .str name := by
      cases entry
      cases hkind
      cases intent with
      | named name => exact ⟨name,rfl,(Option.some.inj hvalue).symm⟩
      | bool on => cases hvalue
      | number n => cases hvalue
    obtain ⟨name,rfl,rfl⟩ := hnamed
    refine ⟨.plain (.str name),?_,?_⟩
    · exact convert_str NumericSpec.exact hkind name
    · simp [Intent.Asks]
  | bitmap | raw | behavior =>
    cases entry
    cases hkind
    cases intent <;> cases hvalue

/-- Where no name is set twice, the last one set is the one there is. -/
theorem find?_reverse_of_nodup {α : Type} {l : List (CapabilityId × α)} (id : CapabilityId)
    (h : (l.map Prod.fst).Nodup) :
    l.reverse.find? (fun e => e.1 = id) = l.find? fun e => e.1 = id := by
  cases hback : l.reverse.find? (fun e => e.1 = id) with
  | none =>
    rw [List.find?_eq_none] at hback
    symm
    rw [List.find?_eq_none]
    intro e he
    exact hback e (List.mem_reverse.mpr he)
  | some b =>
    have hb := List.mem_reverse.mp (List.mem_of_find?_eq_some hback)
    have hbid : b.1 = id := by simpa using List.find?_some hback
    cases hfront : l.find? (fun e => e.1 = id) with
    | none =>
      rw [List.find?_eq_none] at hfront
      exact absurd (by simpa using hbid) (hfront b hb)
    | some a =>
      have haid : a.1 = id := by simpa using List.find?_some hfront
      rw [List.inj_on_of_nodup_map h hb (List.mem_of_find?_eq_some hfront) (hbid.trans haid.symm)]

theorem lastSet_plain (changes : StateChanges) (id : CapabilityId) :
    lastSet (changes.entries.map fun e => (e.1,(.plain e.2 : Reading ℚ))) id =
      (changes.get id).map .plain := by
  have hkeys : ((changes.entries.map fun e => (e.1,(.plain e.2 : Reading ℚ))).map Prod.fst) =
      changes.entries.map Prod.fst := by
    rw [List.map_map]
    rfl
  have hnodup := changes.distinct
  rw [← hkeys] at hnodup
  rw [lastSet,find?_reverse_of_nodup id hnodup,List.find?_map,StateChanges.get,Option.map_map,
    Option.map_map]
  rfl

section FirstWithNumber
variable {behaviors : BehaviorRegistry} {definition : Definition} {device : DeviceInfo}
  {capability : String} {intent : Intent} {point : Datapoint} {entry : TuyaDatapoint}

/-- Read by a behaviour, the value is the one asked for when the behaviour says so. -/
theorem readsBack_behavior
    (hentry : definition.tuyaDatapoints.find? (fun d => d.dp = point.dp) = some entry)
    {name : String} (hkind : entry.kind = .behavior name) :
    ReadsBack behaviors definition device capability intent point ↔
      Delegated behaviors definition device capability intent point := by
  have hreadings : readings NumericSpec.exact behaviors definition device point =
      match behaviors.lookup name with
      | none => []
      | some behavior =>
        match (behavior.decodeDatapoint device definition point entry.name).answer with
        | none => []
        | some delegated => delegated.entries.map fun e => (e.1,.plain e.2) := by
    simp only [readings,hentry,hkind]
  constructor
  · rintro ⟨v,hlast,hasks⟩
    rw [hreadings] at hlast
    cases hbehavior : behaviors.lookup name with
    | none => simp [hbehavior,lastSet] at hlast
    | some behavior =>
      simp only [hbehavior] at hlast
      cases hanswer : (behavior.decodeDatapoint device definition point entry.name).answer with
      | none => simp [hanswer,lastSet] at hlast
      | some changes =>
        simp only [hanswer,lastSet_plain,Option.map_eq_some_iff] at hlast
        obtain ⟨v',hget,rfl⟩ := hlast
        exact ⟨entry,name,behavior,changes,v',hentry,hkind,hbehavior,hanswer,hget,hasks⟩
  · rintro ⟨e,name',behavior,changes,v,he,hkind',hbehavior,hanswer,hget,hasks⟩
    rw [hentry] at he
    cases he
    rw [hkind] at hkind'
    cases hkind'
    refine ⟨.plain v,?_,hasks⟩
    rw [hreadings]
    simp only [hbehavior,hanswer,lastSet_plain,hget,Option.map_some]

/-- Read by a converter, the value goes to the entry's own name. -/
theorem readsBack_convert
    (hentry : definition.tuyaDatapoints.find? (fun d => d.dp = point.dp) = some entry)
    (hkind : ∀ name, entry.kind ≠ .behavior name) :
    ReadsBack behaviors definition device capability intent point ↔
      entry.name = capability ∧
        ∃ v, convert NumericSpec.exact entry point.value = some v ∧ intent.Asks v := by
  have hreadings : readings NumericSpec.exact behaviors definition device point =
      match convert NumericSpec.exact entry point.value with
      | none => []
      | some v => [(⟨entry.name⟩,v)] := by
    simp only [readings,hentry]
    cases hcase : entry.kind with
    | behavior name => exact absurd hcase (hkind name)
    | _ => cases convert NumericSpec.exact entry point.value <;> rfl
  rw [ReadsBack,hreadings]
  cases convert NumericSpec.exact entry point.value with
  | none => simp [lastSet]
  | some v => by_cases hname : entry.name = capability <;> simp [lastSet,hname]

/-- No behaviour reads it back that is not asked. -/
theorem not_delegated
    (hentry : definition.tuyaDatapoints.find? (fun d => d.dp = point.dp) = some entry)
    (hkind : ∀ name, entry.kind ≠ .behavior name) :
    ¬Delegated behaviors definition device capability intent point := by
  rintro ⟨e,name,-,-,-,he,hbehavior,-⟩
  rw [hentry] at he
  cases he
  exact hkind name hbehavior

end FirstWithNumber

/-- What is written by an entry is written by a converter of it. -/
theorem encodeIntent_converter {entry : TuyaDatapoint} {intent : Intent} {value : Value}
    (hvalue : encodeIntent entry intent = some value) (name : String) :
    entry.kind ≠ .behavior name := by
  intro hkind
  cases entry
  cases hkind
  cases intent <;> cases hvalue

theorem get_set (c : StateChanges) (id id' : CapabilityId) (v : StateValue) :
    (c.set id v).get id' = if id = id' then some v else c.get id' := by
  have hentries : ∀ es : List (CapabilityId × StateValue),
      ((StateChanges.setEntry id v es).find? fun e => e.1 = id').map Prod.snd =
        if id = id' then some v else (es.find? fun e => e.1 = id').map Prod.snd := by
    intro es
    induction es with
    | nil => by_cases h : id = id' <;> simp [StateChanges.setEntry,h]
    | cons e es ih =>
      rw [StateChanges.setEntry]
      by_cases he : e.1 = id
      · by_cases h : id = id' <;> simp [he,h]
      · rw [if_neg he]
        by_cases hid : e.1 = id'
        · have hne : id ≠ id' := fun h => he (hid.trans h.symm)
          simp [hid,hne]
        · simpa [hid] using ih
  exact hentries c.entries

theorem get_setAll (l : List (CapabilityId × StateValue)) (id : CapabilityId)
    (c : StateChanges) : (c.setAll l).get id = (lastSet l id <|> c.get id) := by
  induction l generalizing c with
  | nil => rfl
  | cons e l ih =>
    have hstep : c.setAll (e::l) = (c.set e.1 e.2).setAll l := rfl
    rw [hstep,ih,get_set,lastSet,lastSet,List.reverse_cons,List.find?_append]
    by_cases he : e.1 = id <;>
      cases l.reverse.find? (fun e => e.1 = id) <;> simp [he]

/-- The state one datapoint sets is its last reading of each capability. -/
theorem get_datapointsToState (behaviors : BehaviorRegistry) (definition : Definition)
    (point : Datapoint) (device : DeviceInfo) (id : CapabilityId) :
    (datapointsToState behaviors definition [point] device).get id =
      (lastSet (readings NumericSpec.apply behaviors definition device point) id).map
        Reading.toState := by
  have hone : datapointsToState behaviors definition [point] device = StateChanges.new.setAll
      ((readings NumericSpec.apply behaviors definition device point).map fun e =>
        (e.1,e.2.toState)) := rfl
  have hnew : StateChanges.new.get id = none := rfl
  rw [hone,get_setAll,hnew,lastSet,lastSet,← List.map_reverse,List.find?_map,Option.map_map,
    Option.map_map]
  simp only [Option.orElse_eq_orElse,Option.orElse_eq_or,Option.or_none]
  rfl

/-- What is set is what is read, numbers being scaled as floats. Scaled exactly, a written
datapoint is read back as the value asked for when its entry is not shadowed, or when the
behaviour that shadows it says so. -/
theorem reads_back_iff (behaviors : BehaviorRegistry) {definition : Definition}
    (device : DeviceInfo) {command : CapabilityCommand} {capability : String} {intent : Intent}
    {point : Datapoint} (hintent : intentOf command = some (capability,intent))
    (hpoint : commandToDatapoint definition command = some point) :
    (∀ id, (datapointsToState behaviors definition [point] device).get id =
      (lastSet (readings NumericSpec.apply behaviors definition device point) id).map
        Reading.toState) ∧
    (ReadsBack behaviors definition device capability intent point ↔
      Unshadowed definition capability intent ∨
        Delegated behaviors definition device capability intent point) := by
  refine ⟨get_datapointsToState behaviors definition point device,?_⟩
  obtain ⟨entry,hentry,value,hvalue,rfl⟩ := commandToDatapoint_ok hintent hpoint
  have hname : entry.name = capability := by simpa using List.find?_some hentry
  obtain ⟨first,hfirst⟩ :
      ∃ first, definition.tuyaDatapoints.find? (fun d => d.dp = entry.dp) = some first := by
    rw [← Option.isSome_iff_exists,List.find?_isSome]
    exact ⟨entry,List.mem_of_find?_eq_some hentry,by simp⟩
  by_cases hsame : first = entry
  · subst hsame
    have hkind := encodeIntent_converter hvalue
    obtain ⟨v,hv,hasks⟩ := convert_encodeIntent hvalue
    have hdelegated : ¬Delegated behaviors definition device capability intent
        ⟨first.dp,value⟩ := not_delegated hfirst hkind
    rw [readsBack_convert hfirst hkind]
    simp only [hname,true_and,hdelegated,or_false,hv,Option.some.injEq,exists_eq_left',hasks]
    constructor
    · intro hnames
      exact ⟨first,hentry,hfirst,hnames⟩
    · rintro ⟨e,he,-,hnames⟩
      rw [hentry] at he
      cases he
      exact hnames
  · have hshadowed : ¬Unshadowed definition capability intent := by
      rintro ⟨e,he,hown,-⟩
      rw [hentry] at he
      cases he
      rw [hfirst] at hown
      exact hsame (Option.some.inj hown)
    simp only [hshadowed,false_or]
    by_cases hbehavior : ∃ name, first.kind = .behavior name
    · obtain ⟨name,hkind⟩ := hbehavior
      exact readsBack_behavior hfirst hkind
    · have hkind : ∀ name, first.kind ≠ .behavior name := fun name h => hbehavior ⟨name,h⟩
      -- an entry of the same name would have been found by name
      have hother : first.name ≠ capability := fun h =>
        hsame (find?_eq_find? hfirst hentry (by simp) (by simpa using h))
      have hdelegated : ¬Delegated behaviors definition device capability intent
          ⟨entry.dp,value⟩ := not_delegated hfirst hkind
      rw [readsBack_convert hfirst hkind]
      simp only [hother,false_and,hdelegated]

/-- Two entries of one number; the first is not the one commanded. -/
def sharedNumber : Definition where
  tuyaDatapoints := [
    { dp := 1, name := "child_lock", kind := .bool false, access := .reportAndSet },
    { dp := 1, name := "state", kind := .bool false, access := .reportAndSet }]

def plug : DeviceInfo := .new ⟨1⟩ ⟨0x1234⟩ .router

/-- Switched on, the device reports its lock. -/
theorem shared_number_reads_other :
    commandToDatapoint sharedNumber (.setOn true) = some ⟨1,.bool true⟩ ∧
      ¬ReadsBack ∅ sharedNumber plug "state" (.bool true) ⟨1,.bool true⟩ := by
  refine ⟨by decide,?_⟩
  rintro ⟨v,hlast,-⟩
  cases hlast

/-- A thermostat in tenths of a degree, five of them off. -/
def thermostat : Definition where
  tuyaDatapoints := [{
    dp := 4
    name := "current_heating_setpoint"
    kind := .value { divisor := 10, offset := 5 }
    access := .reportAndSet }]

theorem thermostat_reads_back :
    ReadsBack ∅ thermostat plug "current_heating_setpoint" (.number 21) ⟨4,.number 160⟩ ↔
      Unshadowed thermostat "current_heating_setpoint" (.number 21) ∨
        Delegated ∅ thermostat plug "current_heating_setpoint" (.number 21) ⟨4,.number 160⟩ := by
  have hintent : intentOf (.setTargetTemperature (floatOfInt 21)) =
      some ("current_heating_setpoint",.number 21) := by
    rfl
  exact (reads_back_iff ∅ plug hintent (by decide)).2

end ReadBack

/-- The Tuya side of a runtime with these behaviours. -/
def side (behaviors : BehaviorRegistry) : TuyaSide where
  Datapoint := Datapoint
  decode payload := (decode payload).toOption
  encode := encode
  toState := datapointsToState behaviors
  ofCommand := commandToDatapoint
  viaBehavior := commandViaBehavior behaviors

end Tuya

section GeneralForm

theorem tuyaCluster_not_planned :
    Task.tuyaCluster ∉ [ClusterId.onOff,.level,.windowCovering,.lock,.identify] := by
  decide

theorem planCommand_cluster {debug : DebugText} {d : Definition} {info : DeviceInfo}
    {command : CapabilityCommand} {planned : PlannedZcl}
    (h : planCommand debug d info command = .ok planned) : planned.cluster ≠ Task.tuyaCluster := by
  have hcases : (∃ changes, command = .set changes) ∨
      planCommand debug d info command = planSpecific debug d info command := by
    cases command with
    | set changes => exact .inl ⟨changes,rfl⟩
    | _ => exact .inr rfl
  have hspecific : ∃ c, planSpecific debug d info c = .ok planned := by
    rcases hcases with ⟨changes,rfl⟩ | hplan
    · have hset : planSet debug d info changes = .ok planned := h
      rw [planSet] at hset
      split at hset
      · rename_i capability value _
        obtain ⟨c,-,hplan⟩ := bind_eq_ok.mp hset
        exact ⟨c,hplan⟩
      · cases hset
    · exact ⟨command,hplan ▸ h⟩
  obtain ⟨c,hc⟩ := hspecific
  have hmem := planSpecific_cluster hc
  intro htuya
  exact tuyaCluster_not_planned (htuya ▸ hmem)

namespace Task
variable {resolve : DeviceInfo → Option Rszigbee.Definition} {debug : DebugText}
  {behaviors : BehaviorRegistry}

theorem planCapabilityCommand_datapoint
    (t : Task (Engine.ofDefinitions resolve debug (Tuya.side behaviors))) {ieee : Ieee}
    {e : Entry} {d : Rszigbee.Definition} (he : t.devices.get ieee = some e)
    (hd : t.resolve ieee = some d) {command : CapabilityCommand} {point : Tuya.Datapoint}
    (hpoint : Tuya.commandToDatapoint d command = some point) (tsn : UInt8) :
    (t.planCapabilityCommand ieee command tsn).2 = .ok (some ⟨1⟩,tuyaCluster,
      plannedFrame tsn ⟨0x00⟩ (Tuya.encode (t.tuyaSequence + 1) [point])) := by
  have hside : (Tuya.side behaviors).ofCommand d command = some point := hpoint
  rw [t.planCapabilityCommand_eq he hd,hside]
  rfl

/-- The general form is never a datapoint; what it becomes is up to the behaviours, and after
them to the clusters. -/
theorem planCapabilityCommand_set
    (t : Task (Engine.ofDefinitions resolve debug (Tuya.side behaviors))) {ieee : Ieee}
    {e : Entry} {d : Rszigbee.Definition} (he : t.devices.get ieee = some e)
    (hd : t.resolve ieee = some d) (changes : StateChanges) (tsn : UInt8) :
    (t.planCapabilityCommand ieee (.set changes) tsn).2 =
      match Tuya.commandViaBehavior behaviors d (.set changes) e.info with
      | some [] => .error (.invalidValue ⟨"behavior"⟩
          "the device behaviour refused this command")
      | some points => .ok (some ⟨1⟩,tuyaCluster,
          plannedFrame tsn ⟨0x00⟩ (Tuya.encode (t.tuyaSequence + 1) points))
      | none => (planCommand debug d e.info (.set changes)).map fun planned =>
          (some planned.endpoint,planned.cluster,
            plannedFrame tsn planned.command planned.payload) := by
  have hside : (Tuya.side behaviors).ofCommand d (.set changes) = none := rfl
  have hvia : (Tuya.side behaviors).viaBehavior d (.set changes) e.info =
      Tuya.commandViaBehavior behaviors d (.set changes) e.info := rfl
  rw [t.planCapabilityCommand_eq he hd,hside]
  dsimp only
  rw [hvia]
  cases Tuya.commandViaBehavior behaviors d (.set changes) e.info with
  | some points => cases points <;> rfl
  | none => rfl

theorem plannedFrame_inj {tsn : UInt8} {command : CommandId} {p q : Bytes} :
    plannedFrame tsn command p = plannedFrame tsn command q ↔ p = q := by
  simp [plannedFrame,ZclFrame.encode]

/-- The general form of a command that is written as a datapoint makes the same frame only
through a behaviour that claims it with the same records. -/
theorem general_form_planned_iff
    (t : Task (Engine.ofDefinitions resolve debug (Tuya.side behaviors))) {ieee : Ieee}
    {e : Entry} {d : Rszigbee.Definition} (he : t.devices.get ieee = some e)
    (hd : t.resolve ieee = some d) {command : CapabilityCommand} {point : Tuya.Datapoint}
    (hpoint : Tuya.commandToDatapoint d command = some point) (changes : StateChanges)
    (tsn : UInt8) :
    (t.planCapabilityCommand ieee (.set changes) tsn).2 =
        (t.planCapabilityCommand ieee command tsn).2 ↔
      ∃ points, points ≠ [] ∧
        Tuya.commandViaBehavior behaviors d (.set changes) e.info = some points ∧
        points.flatMap Tuya.record = Tuya.record point := by
  rw [t.planCapabilityCommand_datapoint he hd hpoint,t.planCapabilityCommand_set he hd]
  cases hvia : Tuya.commandViaBehavior behaviors d (.set changes) e.info with
  | none =>
    constructor
    · intro hframe
      cases hplan : planCommand debug d e.info (.set changes) with
      | error err =>
        simp only [hplan] at hframe
        cases hframe
      | ok planned =>
        simp only [hplan,Except.map,Except.ok.injEq,Prod.mk.injEq] at hframe
        exact absurd hframe.2.1 (planCommand_cluster hplan)
    · rintro ⟨points,-,hnone,-⟩
      cases hnone
  | some points =>
    cases points with
    | nil =>
      constructor
      · intro hframe
        cases hframe
      · rintro ⟨points,hne,hsome,-⟩
        cases hsome
        exact absurd rfl hne
    | cons p ps =>
      simp only [Except.ok.injEq,Prod.mk.injEq,true_and,plannedFrame_inj]
      constructor
      · intro hframe
        refine ⟨p::ps,by simp,rfl,?_⟩
        simpa [Tuya.encode] using hframe
      · rintro ⟨points,-,hsome,hrecords⟩
        cases hsome
        simpa [Tuya.encode] using hrecords

/-- A switch with one datapoint. -/
def tuyaSwitch : Rszigbee.Definition where
  tuyaDatapoints := [{ dp := 1, name := "state", kind := .bool false, access := .reportAndSet }]

/-- A runtime that knows one such switch, and no behaviour. -/
def switchTask : Task (Engine.ofDefinitions (fun _ => some tuyaSwitch) ⟨fun _ => "",fun _ => ""⟩
    (Tuya.side ∅)) where
  reachability := silencePolicy 0
  interviewOnJoin := false
  coordinator := ⟨0⟩
  networkKnown := true
  devices := Inventory.new.insert { info := Tuya.plug }
  registry := {}
  store := .new

theorem general_form_planned_iff_switch :
    (switchTask.planCapabilityCommand ⟨1⟩ (.set (.single "state" (.enum "ON"))) 7).2 =
        (switchTask.planCapabilityCommand ⟨1⟩ (.setOn true) 7).2 ↔
      ∃ points, points ≠ [] ∧
        Tuya.commandViaBehavior ∅ tuyaSwitch (.set (.single "state" (.enum "ON"))) Tuya.plug =
          some points ∧ points.flatMap Tuya.record = Tuya.record ⟨1,.bool true⟩ := by
  have he : switchTask.devices.get ⟨1⟩ = some { info := Tuya.plug } := by decide
  have hd : switchTask.resolve ⟨1⟩ = some tuyaSwitch := by rfl
  have hpoint : Tuya.commandToDatapoint tuyaSwitch (.setOn true) = some ⟨1,.bool true⟩ := by decide
  exact switchTask.general_form_planned_iff he hd hpoint (.single "state" (.enum "ON")) 7

/-- Switched on by name it gets a datapoint; by the general form it is refused. -/
theorem general_form_refused :
    CapabilityCommand.toChanges (.setOn true) = some (.single "state" (.enum "ON")) ∧
      (switchTask.planCapabilityCommand ⟨1⟩ (.setOn true) 7).2 =
        .ok (some ⟨1⟩,tuyaCluster,plannedFrame 7 ⟨0x00⟩ (Tuya.encode 1 [⟨1,.bool true⟩])) ∧
      (switchTask.planCapabilityCommand ⟨1⟩ (.set (.single "state" (.enum "ON"))) 7).2 =
        .error (.unsupportedCapability ⟨"state"⟩) := by
  refine ⟨rfl,rfl,rfl⟩

end Task

end GeneralForm
end Rszigbee
