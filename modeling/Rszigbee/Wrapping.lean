import Rszigbee.Sources

/-! Which integer a report is converted from. An unsigned value beyond the signed range is seen as
a negative one, and what comes of that depends on the view each kind of source tries first. -/
namespace Rszigbee

/-- A capability value before its number is rounded to a float. -/
inductive Converted (N : Type)
  | null
  | number (n : N)
  | flag (b : Bool)
  | name (s : String)
  deriving DecidableEq

def Converted.toState : Converted Float → StateValue
  | null => .null
  | number n => .float n
  | flag b => .bool b
  | name s => .enum s

section Scaled
variable {N : Type} (scale : NumericSpec → ℤ → N)

/-- The signed integer that is converted: which view of the value is tried first depends on the
source. -/
def ValueShape.view (value : ZclValue) : ValueShape → Option Int64
  | numeric _ => value.asInt <|> value.asUint.bind tryInt64
  | boolean _ => value.asUint.bind tryInt64 <|> value.asInt <|> value.asFlag
  | named _ => value.asUint.bind tryInt64 <|> value.asInt

/-- What an integer means to a source, whatever numbers are scaled to. -/
def ValueShape.meaning (z : ℤ) : ValueShape → Option (Converted N)
  | numeric spec => some (.number (scale spec z))
  | boolean on => some (.flag (z = on.toInt))
  | named values => (values.find? fun entry => entry.1.toInt = z).map fun entry => .name entry.2

/-- A report under some scaling of numbers. -/
def reportWith (definition : Definition) (cluster : ClusterId) (attr : UInt16)
    (value : ZclValue) : Option (CapabilityId × Converted N) :=
  match firstOn definition cluster attr with
  | none => none
  | some source =>
    if value.isInvalid then some (⟨source.capability⟩,.null)
    else (source.value.view value).bind fun raw =>
      (source.value.meaning scale raw.toInt).map fun converted => (⟨source.capability⟩,converted)

end Scaled

theorem convert_eq (shape : ValueShape) (value : ZclValue) : shape.convert value =
    ((shape.view value).bind fun raw => shape.meaning NumericSpec.apply raw.toInt).map
      Converted.toState := by
  cases shape with
  | numeric spec =>
    simp only [ValueShape.convert,ValueShape.view,ValueShape.meaning]
    cases value.asInt <|> value.asUint.bind tryInt64 <;> rfl
  | boolean on =>
    simp only [ValueShape.convert,ValueShape.view,ValueShape.meaning]
    cases value.asUint.bind tryInt64 <|> value.asInt <|> value.asFlag <;>
      simp [Converted.toState,Int64.toInt_inj]
  | named values =>
    simp only [ValueShape.convert,ValueShape.view,ValueShape.meaning,Int64.toInt_inj]
    cases value.asUint.bind tryInt64 <|> value.asInt with
    | none => rfl
    | some raw =>
      simp
      cases values.find? fun entry => entry.1 = raw <;> rfl

/-- The report the code makes is the one under the scaling of floats. -/
theorem reportToState_eq (d : Definition) (cluster : ClusterId) (attr : UInt16)
    (value : ZclValue) : reportToState d cluster attr value =
      (reportWith NumericSpec.apply d cluster attr value).map fun r => (r.1,r.2.toState) := by
  rw [reportToState,reportWith]
  cases firstOn d cluster attr with
  | none => rfl
  | some source =>
    dsimp only
    split
    · rfl
    · rw [convert_eq]
      cases source.value.view value with
      | none => rfl
      | some raw =>
        simp only [Option.bind_some,Option.map_map]
        rfl

/-- The scaling in exact arithmetic. -/
def NumericSpec.scale (spec : NumericSpec) (z : ℤ) : ℚ :=
  let divisor : ℤ := if spec.divisor = 0 then 1 else spec.divisor.toInt
  z / divisor + spec.offset.toInt

theorem NumericSpec.scale_injective (spec : NumericSpec) : Function.Injective spec.scale := by
  have hdivisor : (if spec.divisor = 0 then 1 else spec.divisor.toInt : ℤ) ≠ 0 := by
    split
    · exact one_ne_zero
    · rename_i hne
      exact fun hzero => hne (Int64.toInt_inj.mp hzero)
  intro z z' h
  have hq : ((if spec.divisor = 0 then 1 else spec.divisor.toInt : ℤ) : ℚ) ≠ 0 := by
    exact_mod_cast hdivisor
  have hquotient := add_right_cancel h
  exact_mod_cast (div_left_inj' hq).mp hquotient

/-- The integer a value holds. -/
def ZclValue.integer : ZclValue → Option ℤ
  | uint v => some v.toNat
  | int v => some v.toInt
  | _ => Option.none

/-- An integer seen in 64 signed bits, when it is one of 64 bits of either sign. -/
def wrapped (z : ℤ) : ℤ := if z < 2 ^ 63 then z else z - 2 ^ 64

theorem toInt_toInt64_eq (v : UInt64) : v.toInt64.toInt = wrapped v.toNat := by
  rw [wrapped]
  split
  · exact toInt_toInt64 (by omega)
  · have hlt := v.toNat_lt
    show v.toBitVec.toInt = _
    rw [BitVec.toInt_eq_toNat_cond,UInt64.toNat_toBitVec,if_neg (by omega)]
    rfl

theorem wrapped_toInt (v : Int64) : wrapped v.toInt = v.toInt :=
  if_pos (by have := v.toInt_lt; omega)

/-- Every source takes an integer as it is seen in 64 signed bits, whichever view it tries
first. -/
theorem view_integer (shape : ValueShape) {value : ZclValue} {z : ℤ}
    (h : value.integer = some z) : ∃ raw, shape.view value = some raw ∧ raw.toInt = wrapped z := by
  cases value with
  | int v =>
    obtain rfl := Option.some.inj h
    refine ⟨v,?_,(wrapped_toInt v).symm⟩
    cases shape <;> simp [ValueShape.view,ZclValue.asInt,ZclValue.asUint]
  | uint v =>
    obtain rfl := Option.some.inj h
    refine ⟨v.toInt64,?_,toInt_toInt64_eq v⟩
    cases shape <;> simp [ValueShape.view,ZclValue.asInt,ZclValue.asUint,tryInt64]
    all_goals split <;> rfl
  | _ => cases h

theorem integer_valid {value : ZclValue} {z : ℤ} (h : value.integer = some z) :
    value.isInvalid = false := by
  cases value <;> first | rfl | cases h

/-- An integer the source has no use for. A numeric source has a use for every one. -/
def ValueShape.Ignores (w : ℤ) : ValueShape → Prop
  | numeric _ => False
  | boolean on => on.toInt ≠ w
  | named values => ∀ entry ∈ values, entry.1.toInt ≠ w

/-- Beyond the signed range, the integer seen and the one there agree in meaning only where the
one seen is ignored. -/
theorem meaning_wrapped_iff (shape : ValueShape) {z : ℤ} (h : 2 ^ 63 ≤ z) :
    (∀ c, shape.meaning NumericSpec.scale (z - 2 ^ 64) = some c →
      shape.meaning NumericSpec.scale z = some c) ↔ shape.Ignores (z - 2 ^ 64) := by
  have hbeyond : ∀ v : Int64, v.toInt ≠ z := by
    intro v
    have := v.toInt_lt
    omega
  cases shape with
  | numeric spec =>
    refine iff_of_false (fun hsame => ?_) id
    have hscale := Converted.number.inj (Option.some.inj (hsame _ rfl))
    have hz := spec.scale_injective hscale
    omega
  | boolean on =>
    have hoff : ¬ z = on.toInt := (hbeyond on).symm
    simp [ValueShape.meaning,ValueShape.Ignores,hoff,eq_comm]
  | named values =>
    have hnone : (ValueShape.named values).meaning NumericSpec.scale z = none := by
      simp [ValueShape.meaning,hbeyond]
    rw [hnone]
    simp only [ValueShape.meaning,reduceCtorEq,ValueShape.Ignores]
    constructor
    · intro hfound entry hentry hw
      cases hfind : values.find? fun entry => entry.1.toInt = z - 2 ^ 64 with
      | none => simpa [hw] using List.find?_eq_none.mp hfind entry hentry
      | some entry => exact hfound _ (by rw [hfind]; rfl)
    · intro hignored c hc
      obtain ⟨entry,hfind,-⟩ := Option.map_eq_some_iff.mp hc
      have hw := List.find?_some hfind
      exact hignored entry (List.mem_of_find?_eq_some hfind) (by simpa using hw)

section Exact
variable {d : Definition} {cluster : ClusterId} {attr : UInt16} {value : ZclValue} {z : ℤ}

theorem reportWith_integer {N : Type} (scale : NumericSpec → ℤ → N)
    (h : value.integer = some z) : reportWith scale d cluster attr value =
      (firstOn d cluster attr).bind fun s => (s.value.meaning scale (wrapped z)).map fun c =>
        (⟨s.capability⟩,c) := by
  rw [reportWith]
  cases firstOn d cluster attr with
  | none => rfl
  | some s =>
    obtain ⟨raw,hview,hraw⟩ := view_integer s.value h
    simp [integer_valid h,hview,hraw]

/-- What is reported, if anything, is the conversion of the integer itself, numbers being scaled
in exact arithmetic. -/
def ExactOrAbsent (d : Definition) (cluster : ClusterId) (attr : UInt16) (value : ZclValue)
    (z : ℤ) : Prop :=
  ∀ capability c, reportWith NumericSpec.scale d cluster attr value = some (capability,c) →
    ∃ s, firstOn d cluster attr = some s ∧ capability = ⟨s.capability⟩ ∧
      s.value.meaning NumericSpec.scale z = some c

/-- The code reports what is reported under the scaling of floats. Under that of exact arithmetic
a report is exact exactly within the signed range, and beyond it where the source has no use for
the negative integer that is seen instead. -/
theorem report_exact_iff (h : value.integer = some z) :
    reportToState d cluster attr value =
      (reportWith NumericSpec.apply d cluster attr value).map (fun r => (r.1,r.2.toState)) ∧
    (ExactOrAbsent d cluster attr value z ↔
      z < 2 ^ 63 ∨ ∀ s, firstOn d cluster attr = some s → s.value.Ignores (z - 2 ^ 64)) := by
  refine ⟨reportToState_eq d cluster attr value,?_⟩
  rw [ExactOrAbsent,reportWith_integer NumericSpec.scale h]
  cases hfirst : firstOn d cluster attr with
  | none => simp
  | some s =>
    have hsame : (∀ capability c, ((some s).bind fun s =>
        (s.value.meaning NumericSpec.scale (wrapped z)).map fun c =>
          ((⟨s.capability⟩,c) : CapabilityId × Converted ℚ)) = some (capability,c) →
        ∃ s', some s = some s' ∧ capability = ⟨s'.capability⟩ ∧
          s'.value.meaning NumericSpec.scale z = some c) ↔
        ∀ c, s.value.meaning NumericSpec.scale (wrapped z) = some c →
          s.value.meaning NumericSpec.scale z = some c := by
      constructor
      · intro hexact c hc
        obtain ⟨s',hs',-,hmeaning⟩ := hexact ⟨s.capability⟩ c (by simp [hc])
        rwa [Option.some.inj hs']
      · intro hexact capability c hc
        obtain ⟨c',hc',heq⟩ := Option.map_eq_some_iff.mp hc
        obtain ⟨rfl,rfl⟩ := Prod.mk.inj heq
        exact ⟨s,rfl,rfl,hexact c' hc'⟩
    rw [hsame,wrapped]
    by_cases hz : z < 2 ^ 63
    · rw [if_pos hz]
      exact iff_of_true (fun c hc => hc) (.inl hz)
    · rw [if_neg hz,meaning_wrapped_iff s.value (le_of_not_gt hz)]
      constructor
      · rintro hignored
        refine .inr fun s' hs' => ?_
        rwa [← Option.some.inj hs']
      · rintro (hlt | hignored)
        · exact absurd hlt hz
        · exact hignored s rfl

end Exact

section Counter

/-- A definition that scales a counter. -/
def counter : Definition := { extend := [.numeric "energy" ⟨0x0702⟩ ⟨0x0000⟩ {}] }

/-- Ten degrees below zero. -/
theorem frost_exact :
    ExactOrAbsent { extend := [.temperature {}] } ⟨0x0402⟩ 0x0000 (.int (-1000)) (-1000) :=
  (report_exact_iff rfl).2.mpr (.inl (by decide))

/-- The most a counter of eight bytes can hold is reported as one below zero. -/
theorem counter_negative : ¬ ∀ (d : Definition) (cluster : ClusterId) (attr : UInt16)
    (value : ZclValue) (z : ℤ), value.integer = some z → ExactOrAbsent d cluster attr value z := by
  intro h
  have hfirst : firstOn counter ⟨0x0702⟩ 0x0000 =
      some ⟨"energy",⟨0x0702⟩,⟨0x0000⟩,.int 2,.numeric {}⟩ := by
    decide
  have hreport : reportWith NumericSpec.scale counter ⟨0x0702⟩ 0x0000 (.uint 0xffffffffffffffff) =
      some (⟨"energy"⟩,.number (NumericSpec.scale {} (-1))) := by
    have hwrapped : wrapped (0xffffffffffffffff : UInt64).toNat = -1 := by decide
    rw [reportWith_integer NumericSpec.scale rfl,hfirst,hwrapped]
    rfl
  obtain ⟨s,hs,-,hmeaning⟩ := h counter ⟨0x0702⟩ 0x0000 (.uint 0xffffffffffffffff) _ rfl _ _ hreport
  obtain rfl := Option.some.inj (hfirst.symm.trans hs)
  have hscale := Converted.number.inj (Option.some.inj hmeaning)
  exact absurd (NumericSpec.scale_injective _ hscale) (by decide)

end Counter
end Rszigbee
