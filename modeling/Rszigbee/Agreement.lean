import Rszigbee.Commands

/-! What is commanded against what is read back: the device reports what it was sent, in
the attribute that the sources read. -/
namespace Rszigbee

section Numbers

theorem roundFloat_byte (n : UInt8) : roundFloat (floatOfInt n.toNat) = some (n.toNat : ℤ) := by
  apply forall_byte (P := fun n => roundFloat (floatOfInt n.toNat) = some (n.toNat : ℤ))
  decide +kernel

theorem floatOfInt_byte_inj {m n : UInt8} :
    floatOfInt m.toNat = floatOfInt n.toNat ↔ m = n := by
  constructor
  · intro h
    have hround := roundFloat_byte m
    rw [h,roundFloat_byte] at hround
    apply UInt8.toNat_inj.mp
    have := Option.some.inj hround
    omega
  · rintro rfl
    rfl

/-- A divisor of one leaves a byte as it is. -/
theorem apply_byte (n : UInt8) : NumericSpec.apply {} n.toNat = floatOfInt n.toNat := by
  apply forall_byte (P := fun n => NumericSpec.apply {} n.toNat = floatOfInt n.toNat)
  decide +kernel

/-- A percentage is sent as it is to an inverted device, or half-way. -/
theorem coverPercent_eq_iff (p : Percent) (inverted : Bool) :
    coverPercent p.raw inverted = p.raw ↔ inverted ∨ p.raw = 50 := by
  apply forall_byte (P := fun b => b ≤ 100 → ∀ inverted,
    (coverPercent b inverted = b ↔ inverted ∨ b = 50)) ?_ p.raw p.le inverted
  decide +kernel

end Numbers

/-- The commands whose effect a source reads back. -/
inductive Write
  | setOn (on : Bool)
  | setBrightness (level : Brightness)
  | setPosition (percent : Percent)
  | setTilt (percent : Percent)
  | lock
  | unlock

namespace Write

def command : Write → CapabilityCommand
  | setOn on => .setOn on
  | setBrightness level => .setBrightness level
  | setPosition percent => .setPosition percent
  | setTilt percent => .setTilt percent
  | lock => .lock
  | unlock => .unlock

def capability : Write → String
  | setOn _ => "state"
  | setBrightness _ => "brightness"
  | setPosition _ => "position"
  | setTilt _ => "tilt"
  | lock | unlock => "lock"

/-- What is asked for, as the capability value that says so. -/
def requested : Write → StateValue
  | setOn on => .bool on
  | setBrightness level => .float (floatOfInt level.raw.toNat)
  | setPosition percent | setTilt percent => .float (floatOfInt percent.raw.toNat)
  | lock => .bool true
  | unlock => .bool false

/-- What a device that did as planned then reports: the flag, the lock state, or the byte
it was sent. -/
def reports (w : Write) (plan : PlannedZcl) : ZclValue :=
  match w with
  | setOn on => .bool on
  | setBrightness _ | setPosition _ | setTilt _ => .uint (plan.payload.headD 0).toUInt64
  | lock => .enum 1
  | unlock => .enum 2

end Write

/-- The report on a source's attribute is exactly what was asked for. -/
def ReadsBack (d : Definition) (s : Source) (w : Write) (plan : PlannedZcl) : Prop :=
  reportToState d s.cluster s.attr.raw (w.reports plan) = some (⟨w.capability⟩,w.requested)

namespace ValueShape

/-- A raw number is taken for the flag. -/
def ReadsFlag (shape : ValueShape) (raw : Int64) (flag : Bool) : Prop :=
  ∃ on, shape = .boolean on ∧ (raw = on ↔ flag)

/-- A raw byte is scaled to the number. -/
def ReadsNumber (shape : ValueShape) (raw number : UInt8) : Prop :=
  ∃ spec, shape = .numeric spec ∧ spec.apply raw.toNat = floatOfInt number.toNat

theorem convert_flag_iff {v : ZclValue} {raw : Int64} (hraw : v.asUint.bind tryInt64 = some raw)
    (shape : ValueShape) (flag : Bool) :
    shape.convert v = some (.bool flag) ↔ shape.ReadsFlag raw flag := by
  cases shape with
  | numeric spec => simp [convert,ReadsFlag]
  | boolean on => cases flag <;> simp [convert,ReadsFlag,hraw]
  | named values => simp [convert,ReadsFlag,hraw,Option.bind_eq_some_iff]

theorem convert_byte_iff (shape : ValueShape) (b number : UInt8) :
    shape.convert (.uint b.toUInt64) = some (.float (floatOfInt number.toNat)) ↔
      shape.ReadsNumber b number := by
  have hlt : b.toNat < 256 := b.toNat_lt
  have hnat : b.toUInt64.toNat = b.toNat := UInt8.toNat_toUInt64 b
  have hval : b.toUInt64.toInt64.toInt = b.toNat := by
    rw [toInt_toInt64 (by omega),hnat]
  cases shape with
  | numeric spec => simp [convert,ReadsNumber,ZclValue.asInt,hval]
  | boolean on => simp [convert,ReadsNumber]
  | named values =>
    simp [convert,ReadsNumber,Option.bind_eq_some_iff]

end ValueShape

namespace Write
variable {debug : DebugText} {d : Definition} {info : DeviceInfo} {plan : PlannedZcl}

/-- The first source on the attribute reads what is sent as what was asked for. -/
def Matches (d : Definition) (f : Source) : Write → Prop
  | setOn on => f.value.ReadsFlag (if on then 1 else 0) on
  | setBrightness level => f.value.ReadsNumber level.raw level.raw
  | setPosition percent | setTilt percent => ∃ cover, coverControls d = some cover ∧
      f.value.ReadsNumber (coverPercent percent.raw cover.inverted) percent.raw
  | lock => f.value.ReadsFlag 1 true
  | unlock => f.value.ReadsFlag 2 false

theorem planCommand_command (debug : DebugText) (d : Definition) (info : DeviceInfo)
    (w : Write) : planCommand debug d info w.command = planSpecific debug d info w.command := by
  cases w <;> rfl

theorem brightness_payload {level : Brightness}
    (h : planCommand debug d info (setBrightness level).command = .ok plan) :
    plan.payload.headD 0 = level.raw := by
  rw [planCommand_command,command,planSpecific] at h
  split at h
  · cases h
    rfl
  · cases h

/-- An accepted percentage is on the covering's scale. -/
theorem cover_payload {w : Write} {percent : Percent}
    (hw : w = .setPosition percent ∨ w = .setTilt percent)
    (h : planCommand debug d info w.command = .ok plan) : ∃ cover,
      coverControls d = some cover ∧
      plan.payload.headD 0 = coverPercent percent.raw cover.inverted := by
  rcases hw with rfl | rfl
  all_goals
    rw [planCommand_command,command,planSpecific,planCover] at h
    cases hcover : coverControls d with
    | none =>
      rw [hcover] at h
      cases h
    | some cover =>
      simp only [hcover] at h
      split at h
      · cases h
        exact ⟨cover,rfl,rfl⟩
      · cases h

theorem convert_reports_iff {w : Write} (h : planCommand debug d info w.command = .ok plan)
    (f : Source) : f.value.convert (w.reports plan) = some w.requested ↔ w.Matches d f := by
  cases w with
  | setOn on =>
    have hraw : ∀ on, (ZclValue.bool on).asUint.bind tryInt64 = some (if on then 1 else 0) := by
      decide
    exact ValueShape.convert_flag_iff (hraw on) f.value on
  | lock =>
    have hraw : (ZclValue.enum 1).asUint.bind tryInt64 = some 1 := by decide
    exact ValueShape.convert_flag_iff hraw f.value true
  | unlock =>
    have hraw : (ZclValue.enum 2).asUint.bind tryInt64 = some 2 := by decide
    exact ValueShape.convert_flag_iff hraw f.value false
  | setBrightness level =>
    rw [reports,brightness_payload h]
    exact ValueShape.convert_byte_iff f.value level.raw level.raw
  | setPosition percent =>
    obtain ⟨cover,hcover,hsent⟩ := cover_payload (.inl rfl) h
    rw [reports,hsent]
    simpa [Matches,requested,hcover] using ValueShape.convert_byte_iff f.value _ percent.raw
  | setTilt percent =>
    obtain ⟨cover,hcover,hsent⟩ := cover_payload (.inr rfl) h
    rw [reports,hsent]
    simpa [Matches,requested,hcover] using ValueShape.convert_byte_iff f.value _ percent.raw

theorem reports_valid (w : Write) (plan : PlannedZcl) : (w.reports plan).isInvalid = false := by
  cases w <;> rfl

theorem readsBack_iff {w : Write} (h : planCommand debug d info w.command = .ok plan)
    (s : Source) : ReadsBack d s w plan ↔ ∃ f, firstOn d s.cluster s.attr.raw = some f ∧
      f.capability = w.capability ∧ w.Matches d f := by
  rw [ReadsBack,reportToState]
  cases hfirst : firstOn d s.cluster s.attr.raw with
  | none => simp
  | some f =>
    have hconv := convert_reports_iff h f
    simp [reports_valid,Option.map_eq_some_iff,← hconv]
    tauto

end Write

section Standard

/-- A helper that states its own wiring. -/
def Extend.wired : Extend → Bool
  | numeric _ _ _ _ | binary _ _ _ _ | enumLookup _ _ _ _ => true
  | _ => false

/-- Every source that a helper implies. -/
def standardSources : List Source :=
  [Extend.temperature {},.humidity {},.soilMoisture {},.co2 {},.illuminance {},.battery true,
    .occupancy,.windowCovering true true false,.lock,.onOff [],.light true].flatMap implied

theorem mem_standardSources {e : Extend} (h : e.wired = false) {s : Source}
    (hs : s ∈ implied e) : s ∈ standardSources := by
  cases e with
  | numeric | binary | enumLookup => cases h
  | battery flag | light flag =>
    cases flag <;> simp [implied,wellKnown] at hs <;> rcases hs with rfl | rfl <;> decide
  | windowCovering lift tilt inverted =>
    cases lift <;> cases tilt <;> simp [implied,wellKnown] at hs <;>
      rcases hs with rfl | rfl <;> decide
  | temperature | humidity | soilMoisture | co2 | illuminance | occupancy | lock | onOff =>
    simp [implied,wellKnown] at hs
    subst hs
    decide
  | _ => simp [implied,wellKnown] at hs

theorem standardSources_unique : ∀ s ∈ standardSources, ∀ f ∈ standardSources,
    f.cluster = s.cluster → f.attr = s.attr → f = s := by
  decide

/-- Standard switches and locks read one as true, standard levels and percentages are not
scaled. -/
theorem standardSources_shape : ∀ s ∈ standardSources,
    (s.capability = "state" ∨ s.capability = "lock" → s.value = .boolean 1) ∧
    (s.capability = "brightness" ∨ s.capability = "position" ∨ s.capability = "tilt" →
      s.value = .numeric {}) := by
  decide

variable {d : Definition}

/-- No helper of a definition states its own wiring. -/
def Definition.Standard (d : Definition) : Prop := ∀ e ∈ d.extend, e.wired = false

theorem Definition.Standard.mem (hd : d.Standard) {s : Source} (hs : s ∈ sources d) :
    s ∈ standardSources := by
  obtain ⟨e,he,hs⟩ := List.mem_flatMap.mp hs
  exact mem_standardSources (hd e he) hs

/-- Each source of a standard definition is the first on its attribute. -/
theorem Definition.Standard.firstOn (hd : d.Standard) {s : Source} (hs : s ∈ sources d) :
    firstOn d s.cluster s.attr.raw = some s := by
  cases hfirst : Rszigbee.firstOn d s.cluster s.attr.raw with
  | none =>
    have hnone := List.find?_eq_none.mp hfirst s hs
    simp at hnone
  | some f =>
    obtain ⟨hf,hcluster,hattr⟩ := of_firstOn hfirst
    have hattr : f.attr = s.attr := congrArg AttrId.mk hattr
    rw [standardSources_unique s (hd.mem hs) f (hd.mem hf) hcluster hattr]

theorem readsNumber_standard (raw number : UInt8) :
    (ValueShape.numeric {}).ReadsNumber raw number ↔ raw = number := by
  constructor
  · rintro ⟨spec,hspec,h⟩
    cases hspec
    rw [apply_byte] at h
    exact floatOfInt_byte_inj.mp h
  · rintro rfl
    exact ⟨{},rfl,apply_byte raw⟩

/-- The percentages that are sent as they are. -/
def Write.Straight (d : Definition) (w : Write) : Prop :=
  ∀ percent, w = .setPosition percent ∨ w = .setTilt percent →
    ∀ cover, coverControls d = some cover → cover.inverted ∨ percent.raw = 50

theorem matches_standard {debug : DebugText} {info : DeviceInfo} {plan : PlannedZcl} {w : Write}
    (h : planCommand debug d info w.command = .ok plan) {s : Source}
    (hs : s ∈ standardSources) (hcap : s.capability = w.capability) :
    w.Matches d s ↔ w.Straight d := by
  obtain ⟨hflag,hnumber⟩ := standardSources_shape s hs
  cases w with
  | setOn on =>
    cases on <;> simp [Write.Matches,Write.Straight,ValueShape.ReadsFlag,hflag (.inl hcap)]
  | lock => simp [Write.Matches,Write.Straight,ValueShape.ReadsFlag,hflag (.inr hcap)]
  | unlock => simp [Write.Matches,Write.Straight,ValueShape.ReadsFlag,hflag (.inr hcap)]
  | setBrightness level =>
    simp [Write.Matches,Write.Straight,hnumber (.inl hcap),readsNumber_standard]
  | setPosition percent =>
    obtain ⟨cover,hcover,-⟩ := Write.cover_payload (.inl rfl) h
    simp [Write.Matches,Write.Straight,hnumber (.inr (.inl hcap)),readsNumber_standard,hcover,
      coverPercent_eq_iff]
  | setTilt percent =>
    obtain ⟨cover,hcover,-⟩ := Write.cover_payload (.inr rfl) h
    simp [Write.Matches,Write.Straight,hnumber (.inr (.inr hcap)),readsNumber_standard,hcover,
      coverPercent_eq_iff]

theorem write_read_iff (debug : DebugText) (d : Definition) (info : DeviceInfo) (w : Write)
    (plan : PlannedZcl) (hplan : planCommand debug d info w.command = .ok plan) (s : Source)
    (hs : s ∈ sources d) (hcap : s.capability = w.capability) :
    (ReadsBack d s w plan ↔ ∃ f, firstOn d s.cluster s.attr.raw = some f ∧
      f.capability = w.capability ∧ w.Matches d f) ∧
    (d.Standard → (ReadsBack d s w plan ↔ w.Straight d)) := by
  refine ⟨Write.readsBack_iff hplan s,fun hd => ?_⟩
  rw [Write.readsBack_iff hplan s,hd.firstOn hs,← matches_standard hplan (hd.mem hs) hcap]
  constructor
  · rintro ⟨f,hf,-,hmatches⟩
    cases hf
    exact hmatches
  · intro hmatches
    exact ⟨s,rfl,hcap,hmatches⟩

theorem inverted_cover_reads_back :
    ReadsBack { extend := [.windowCovering true false true] }
      (.numeric "position" 0x0102 0x0008 (.uint 1) 1) (.setPosition (.new 30))
      ⟨⟨1⟩,.windowCovering,⟨0x05⟩,[30]⟩ := by
  have h := write_read_iff ⟨fun _ => "",fun _ => ""⟩
    { extend := [.windowCovering true false true] } (.new ⟨1⟩ ⟨0x1234⟩ .router)
    (.setPosition (.new 30)) ⟨⟨1⟩,.windowCovering,⟨0x05⟩,[30]⟩ rfl
    (.numeric "position" 0x0102 0x0008 (.uint 1) 1) (by decide) rfl
  apply (h.2 (by simp [Definition.Standard,Extend.wired])).mpr
  intro percent _ cover hcover
  cases hcover
  exact .inl rfl

/-- A covering asked to open to 30 reports that it is at 70. -/
theorem cover_reads_backwards :
    let debug : DebugText := ⟨fun _ => "",fun _ => ""⟩
    let d : Definition := { extend := [.windowCovering true false false] }
    let info : DeviceInfo := .new ⟨1⟩ ⟨0x1234⟩ .router
    let w : Write := .setPosition (.new 30)
    let plan : PlannedZcl := ⟨⟨1⟩,.windowCovering,⟨0x05⟩,[70]⟩
    let s : Source := .numeric "position" 0x0102 0x0008 (.uint 1) 1
    planCommand debug d info w.command = .ok plan ∧ s ∈ sources d ∧
      s.capability = w.capability ∧
      reportToState d s.cluster s.attr.raw (w.reports plan) =
        some (⟨"position"⟩,.float (floatOfInt 70)) ∧
      ¬ReadsBack d s w plan := by
  intro debug d info w plan s
  have hplan : planCommand debug d info w.command = .ok plan := rfl
  have hreport : reportToState d s.cluster s.attr.raw (w.reports plan) =
      some (⟨"position"⟩,.float (floatOfInt 70)) := by
    show some (_,StateValue.float (NumericSpec.apply {} (70 : UInt8).toNat)) = _
    rw [apply_byte]
    rfl
  refine ⟨hplan,by decide,rfl,hreport,?_⟩
  intro hback
  rw [ReadsBack,hreport] at hback
  have hfloat : floatOfInt (70 : UInt8).toNat = floatOfInt (30 : UInt8).toNat :=
    StateValue.float.inj (Prod.mk.inj (Option.some.inj hback)).2
  exact absurd (floatOfInt_byte_inj.mp hfloat) (by decide)

end Standard

end Rszigbee
