import Rszigbee.Commands

/-! What a capability set to a number commands. What does not fit a byte is refused; what fits a byte
and not the capability is clamped. -/
namespace Rszigbee

/-- The capabilities that are set to a number of a range. -/
inductive Scaled
  | brightness | position
  deriving DecidableEq

namespace Scaled

def name : Scaled → String
  | brightness => "brightness"
  | position => "position"

/-- The most the capability can be. -/
def limit : Scaled → ℤ
  | brightness => 254
  | position => 100

/-- The definition has it, for a command to be planned. -/
def offered (d : Definition) : Scaled → Bool
  | brightness => hasBrightness d
  | position => (coverControls d).any Cover.lift

/-- The newtype's constructor clamps. -/
def command (raw : UInt8) : Scaled → CapabilityCommand
  | brightness => .setBrightness (.new raw)
  | position => .setPosition (.new raw)

/-- The frame states this number: as it is, or as closedness where the device counts that way. -/
def Encodes (d : Definition) (n : ℤ) (planned : PlannedZcl) : Scaled → Prop
  | brightness => planned.cluster = .level ∧ planned.command = ⟨0x04⟩ ∧
      ∃ b : UInt8, (b.toNat : ℤ) = n ∧ planned.payload = [b] ++ le16 0
  | position => planned.cluster = .windowCovering ∧ planned.command = ⟨0x05⟩ ∧
      ∃ cover, coverControls d = some cover ∧ ∃ b : UInt8,
        (b.toNat : ℤ) = (if cover.inverted then n else 100 - n) ∧ planned.payload = [b]

end Scaled

section Lowered
variable {debug : DebugText} {d : Definition} {info : DeviceInfo} {value : StateValue} {n : Int64}

theorem tryUInt8_eq_some {raw : UInt8} : tryUInt8 n = some raw ↔ (raw.toNat : ℤ) = n.toInt := by
  have hraw : raw.toNat < 256 := raw.toNat_lt
  rw [tryUInt8]
  constructor
  · intro h
    split at h
    · rename_i hn
      have hsmall : n.toInt.toNat < 256 := by omega
      rw [← Option.some.inj h,UInt8.toNat_ofNat_of_lt' hsmall]
      omega
    · cases h
  · intro h
    have hnat : n.toInt.toNat = raw.toNat := by omega
    rw [if_pos (by omega),hnat,UInt8.ofNat_toNat]

theorem tryUInt8_eq_none : tryUInt8 n = none ↔ n.toInt < 0 ∨ 256 ≤ n.toInt := by
  simp only [tryUInt8,ite_eq_right_iff,reduceCtorEq,imp_false]
  omega

theorem planSet_single {name : String} : planSet debug d info (.single name value) =
    (lower debug ⟨name⟩ value).bind (planSpecific debug d info) := rfl

/-- A number is lowered as the byte it is, or refused. -/
theorem lower_scaled (q : Scaled) (hvalue : integer value = some n) :
    lower debug ⟨q.name⟩ value = ((tryUInt8 n).map q.command).elim
      (.error (.invalidValue ⟨q.name⟩ (debug.value value))) .ok := by
  cases q <;> simp [lower,Scaled.name,hvalue,Scaled.command,Function.comp_def]

theorem Brightness.new_toNat (raw : UInt8) : (Brightness.new raw).raw.toNat = min raw.toNat 254 := by
  rw [Brightness.new]
  split <;> rename_i h <;> simp only [UInt8.le_iff_toNat_le] at h <;> simp at h ⊢ <;> omega

theorem Percent.new_toNat (raw : UInt8) : (Percent.new raw).raw.toNat = min raw.toNat 100 := by
  rw [Percent.new]
  split <;> rename_i h <;> simp only [UInt8.le_iff_toNat_le] at h <;> simp at h ⊢ <;> omega

/-- A percentage is within the scale already, and its closedness is what is left. -/
theorem coverPercent_toNat (percent : Percent) (inverted : Bool) :
    (coverPercent percent.raw inverted).toNat =
      if inverted then percent.raw.toNat else 100 - percent.raw.toNat := by
  have hle : min percent.raw 100 = percent.raw := if_pos percent.le
  have hnat : percent.raw.toNat ≤ 100 := UInt8.le_iff_toNat_le.mp percent.le
  rw [coverPercent,hle]
  cases inverted with
  | true => rfl
  | false => simpa using UInt8.toNat_sub_of_le 100 percent.raw percent.le

theorem planSpecific_not_offered {q : Scaled} (h : q.offered d = false) (raw : UInt8)
    (planned : PlannedZcl) : planSpecific debug d info (q.command raw) ≠ .ok planned := by
  cases q with
  | brightness => simp [Scaled.command,planSpecific,show hasBrightness d = false from h,unsupported]
  | position =>
    simp only [Scaled.command,planSpecific,planCover]
    cases hcover : coverControls d with
    | none => simp [unsupported]
    | some cover =>
      have hlift : cover.lift = false := by simpa [Scaled.offered,hcover] using h
      simp [hlift,unsupported]

/-- What is offered is planned, and states the byte exactly when the byte is within the range. -/
theorem planSpecific_offered (debug : DebugText) (info : DeviceInfo) {q : Scaled}
    (h : q.offered d = true) (raw : UInt8) :
    ∃ planned, planSpecific debug d info (q.command raw) = .ok planned ∧
      (q.Encodes d raw.toNat planned ↔ (raw.toNat : ℤ) ≤ q.limit) := by
  cases q with
  | brightness =>
    refine ⟨_,if_pos h,?_⟩
    have hraw := Brightness.new_toNat raw
    simp [Scaled.Encodes,Scaled.limit,hraw]
  | position =>
    obtain ⟨cover,hcover,hlift⟩ : ∃ cover, coverControls d = some cover ∧ cover.lift = true := by
      simpa [Scaled.offered,Option.any_eq_true] using h
    have hplan : planSpecific debug d info (Scaled.position.command raw) =
        .ok (coverFrame d info 0x05 [coverPercent (Percent.new raw).raw cover.inverted]) := by
      simp only [Scaled.command,planSpecific,planCover,hcover,hlift,if_true]
    refine ⟨_,hplan,?_⟩
    have hraw := Percent.new_toNat raw
    have hpercent := coverPercent_toNat (.new raw) cover.inverted
    simp only [Scaled.Encodes,Scaled.limit,coverFrame,hcover,true_and,Option.some.injEq,
      exists_eq_left',List.cons.injEq,and_true,exists_eq_right',hpercent,hraw]
    cases cover.inverted <;> simp

/-- A capability set to a number is refused, or commands that number, exactly when the definition
does not have the capability or the number is not between its range and a byte's. -/
theorem refused_or_exact_iff (debug : DebugText) (d : Definition) (info : DeviceInfo) (q : Scaled)
    {value : StateValue} {n : Int64} (hvalue : integer value = some n) :
    (∀ planned, planCommand debug d info (.set (.single q.name value)) = .ok planned →
        q.Encodes d n.toInt planned) ↔
      ¬ (q.offered d ∧ q.limit < n.toInt ∧ n.toInt < 256) := by
  rw [planCommand,planSet_single,lower_scaled q hvalue]
  have hlimit : 0 ≤ q.limit := by cases q <;> decide
  cases hbyte : tryUInt8 n with
  | none =>
    have hn := tryUInt8_eq_none.mp hbyte
    have hrefused : ¬ (q.offered d ∧ q.limit < n.toInt ∧ n.toInt < 256) := by omega
    simp [Except.bind,hrefused]
  | some raw =>
    have hraw := tryUInt8_eq_some.mp hbyte
    have hlt : raw.toNat < 256 := raw.toNat_lt
    simp only [Option.map_some,Option.elim_some,Except.bind]
    cases hoffered : q.offered d with
    | false => simp [planSpecific_not_offered hoffered]
    | true =>
      obtain ⟨planned,hplan,hencodes⟩ := planSpecific_offered debug info hoffered raw
      simp only [hplan,Except.ok.injEq,forall_eq',← hraw,hencodes,true_and]
      omega

/-- A dimmable lamp at full level, and beyond it. -/
def dimmer : Definition where
  extend := [.light true]

theorem refused_or_exact_full :
    (∀ planned, planCommand ⟨fun _ => "",fun _ => ""⟩ dimmer (.new ⟨1⟩ ⟨0x1234⟩ .router)
        (.set (.single Scaled.brightness.name (.int 254))) = .ok planned →
        Scaled.brightness.Encodes dimmer (254 : Int64).toInt planned) ↔
      ¬ (Scaled.brightness.offered dimmer ∧ Scaled.brightness.limit < (254 : Int64).toInt ∧
        (254 : Int64).toInt < 256) :=
  refused_or_exact_iff _ dimmer _ .brightness rfl

theorem level_clamped : ¬ ∀ (debug : DebugText) (d : Definition) (info : DeviceInfo) (q : Scaled)
    (n : Int64) (planned : PlannedZcl),
    planCommand debug d info (.set (.single q.name (.int n))) = .ok planned →
      q.Encodes d n.toInt planned := by
  intro h
  obtain ⟨-,-,b,hb,hpayload⟩ := h ⟨fun _ => "",fun _ => ""⟩ dimmer (.new ⟨1⟩ ⟨0x1234⟩ .router)
    .brightness 255 ⟨⟨1⟩,.level,⟨0x04⟩,[254] ++ le16 0⟩ rfl
  have hclamped : 254 = b := List.head_eq_of_cons_eq hpayload
  subst hclamped
  revert hb
  decide

end Lowered
end Rszigbee
