import Rszigbee.Fidelity

/-! Integers of every width, against what their bytes mean. -/
namespace Rszigbee

/-- The number some bytes denote in two's complement. -/
def LittleEndian.signed (bytes : List UInt8) : ℤ :=
  if 2 * value bytes < 256 ^ bytes.length then (value bytes : ℤ)
  else (value bytes : ℤ) - (256 ^ bytes.length : ℕ)

namespace ZclType

/-- The number that an integer type's bytes are. -/
def numberOf : ZclType → Bytes → ZclValue
  | .int _, b => .int (.ofInt (LittleEndian.signed b))
  | _, b => .uint (.ofNat (LittleEndian.value b))

/-- The bytes are read as "no reading" when they are the ones written for it, and otherwise as
their number. -/
def DecodesToMeaning (ty : ZclType) (n : UInt8) (bytes : Bytes) : Prop :=
  ∃ v r, decodeValue ty (.new bytes) = .ok (v,r) ∧
    (v = .invalid ty ↔ encodeValue (.invalid ty) ty = .ok (bytes.take n.toNat)) ∧
    (v ≠ .invalid ty → v = ty.numberOf (bytes.take n.toNat))

end ZclType

section Sentinels

/-- All bits set stands for "no reading" in up to four bytes. -/
theorem isInvalidUint_iff {raw : UInt64} {n : UInt8} (hpos : 1 ≤ n.toNat) :
    isInvalidUint raw n = true ↔ n.toNat ≤ 4 ∧ raw.toNat + 1 = 256 ^ n.toNat := by
  have hones : ∀ (ones : UInt64) (k : ℕ), ones.toNat + 1 = 256 ^ k →
      (raw = ones ↔ raw.toNat + 1 = 256 ^ k) := by
    intro ones k hk
    rw [← UInt64.toNat_inj]
    omega
  have hone := hones 0xff 1 (by decide)
  have htwo := hones 0xffff 2 (by decide)
  have hthree := hones 0x00ffffff 3 (by decide)
  have hfour := hones 0xffffffff 4 (by decide)
  simp only [isInvalidUint,Bool.or_eq_true,Bool.and_eq_true,decide_eq_true_iff]
  constructor
  · rintro (((⟨rfl,h⟩ | ⟨rfl,h⟩) | ⟨rfl,h⟩) | ⟨rfl,h⟩)
    · exact ⟨by decide,hone.mp h⟩
    · exact ⟨by decide,htwo.mp h⟩
    · exact ⟨by decide,hthree.mp h⟩
    · exact ⟨by decide,hfour.mp h⟩
  · rintro ⟨hle,h⟩
    have hn : n = 1 ∨ n = 2 ∨ n = 3 ∨ n = 4 := by
      simp only [← UInt8.toNat_inj]
      simp
      omega
    rcases hn with rfl | rfl | rfl | rfl
    · exact .inl (.inl (.inl ⟨rfl,hone.mpr h⟩))
    · exact .inl (.inl (.inr ⟨rfl,htwo.mpr h⟩))
    · exact .inl (.inr ⟨rfl,hthree.mpr h⟩)
    · exact .inr ⟨rfl,hfour.mpr h⟩

/-- What is written for no reading of a number without a sign has all bits set. -/
theorem value_writeInvalid_uint (n : UInt8) (hn : n.toNat ≤ 8) :
    LittleEndian.value (writeInvalid (.uint n)) + 1 = 256 ^ n.toNat ∧
      (writeInvalid (.uint n)).length = n.toNat := by
  revert hn
  apply forall_byte (P := fun n => n.toNat ≤ 8 → LittleEndian.value (writeInvalid (.uint n)) + 1 =
    256 ^ n.toNat ∧ (writeInvalid (.uint n)).length = n.toNat)
  decide +kernel

theorem value_writeInvalid_int (n : UInt8) (hpos : 1 ≤ n.toNat) (hn : n.toNat ≤ 8) :
    2 * LittleEndian.value (writeInvalid (.int n)) = 256 ^ n.toNat ∧
      (writeInvalid (.int n)).length = n.toNat := by
  revert hpos hn
  apply forall_byte (P := fun n => 1 ≤ n.toNat → n.toNat ≤ 8 →
    2 * LittleEndian.value (writeInvalid (.int n)) = 256 ^ n.toNat ∧
      (writeInvalid (.int n)).length = n.toNat)
  decide +kernel

end Sentinels

section Decoding

variable {n : UInt8} {bytes : Bytes}

theorem readUint_new (hn : n.toNat ≤ 8) (hlen : n.toNat ≤ bytes.length) :
    readUint n (.new bytes) =
      .ok (.ofNat (LittleEndian.value (bytes.take n.toNat)),⟨bytes.drop n.toNat,n.toNat⟩) := by
  have htake : Reader.take n.toNat (.new bytes) =
      .ok (bytes.take n.toNat,⟨bytes.drop n.toNat,n.toNat⟩) := by
    have hroom : n.toNat ≤ (Reader.new bytes).remaining := hlen
    rw [Reader.take,if_pos hroom]
    simp [Reader.new]
  have hall : (bytes.take n.toNat).take 8 = bytes.take n.toNat :=
    List.take_of_length_le (by rw [List.length_take]; omega)
  rw [readUint,Read.bind_ok_iff]
  refine ⟨_,_,htake,?_⟩
  rw [hall]
  rfl

/-- The first bytes as a number. -/
theorem toNat_value (hn : n.toNat ≤ 8) (hlen : n.toNat ≤ bytes.length) :
    (UInt64.ofNat (LittleEndian.value (bytes.take n.toNat))).toNat =
      LittleEndian.value (bytes.take n.toNat) ∧
    LittleEndian.value (bytes.take n.toNat) < 256 ^ n.toNat := by
  have hlt := LittleEndian.value_lt (bytes.take n.toNat)
  rw [List.length_take,min_eq_left hlen] at hlt
  have hsize : 256 ^ n.toNat ≤ 256 ^ 8 := Nat.pow_le_pow_right (by decide) hn
  exact ⟨UInt64.toNat_ofNat_of_lt' (lt_of_lt_of_le hlt hsize),hlt⟩

/-- The bytes are the ones written for "no reading" when they denote the same number. -/
theorem written_iff {ty : ZclType} (hlength : (writeInvalid ty).length = n.toNat)
    (hlen : n.toNat ≤ bytes.length) :
    encodeValue (.invalid ty) ty = .ok (bytes.take n.toNat) ↔
      LittleEndian.value (bytes.take n.toNat) = LittleEndian.value (writeInvalid ty) := by
  have hencode : encodeValue (.invalid ty) ty = .ok (writeInvalid ty) := by
    cases ty <;> rfl
  rw [hencode,Except.ok.injEq,eq_comm]
  refine (LittleEndian.value_inj ?_).symm
  rw [hlength,List.length_take,min_eq_left hlen]

/-- What a number is read as when some of them stand for "no reading". -/
theorem decodesToMeaning_iff {ty : ZclType} {invalid : Bool}
    (hread : ∃ r, decodeValue ty (.new bytes) =
      .ok (if invalid then .invalid ty else ty.numberOf (bytes.take n.toNat),r))
    (hnumber : ty.numberOf (bytes.take n.toNat) ≠ .invalid ty)
    (hinvalid : invalid = true ↔
      ty.HasInvalid ∧ encodeValue (.invalid ty) ty = .ok (bytes.take n.toNat)) :
    ty.DecodesToMeaning n bytes ↔
      (encodeValue (.invalid ty) ty = .ok (bytes.take n.toNat) → ty.HasInvalid) := by
  obtain ⟨r,hread⟩ := hread
  constructor
  · rintro ⟨v,r',hv,hmeaning,-⟩ hwritten
    obtain ⟨rfl,-⟩ := Prod.mk.inj (Except.ok.inj (hread.symm.trans hv))
    have hnone := hmeaning.mpr hwritten
    cases invalid with
    | true => exact (hinvalid.mp rfl).1
    | false => exact absurd hnone hnumber
  · intro h
    refine ⟨_,r,hread,?_,?_⟩
    · cases invalid with
      | true => exact iff_of_true rfl (hinvalid.mp rfl).2
      | false =>
        refine iff_of_false hnumber fun hwritten => ?_
        exact absurd (hinvalid.mpr ⟨h hwritten,hwritten⟩) (by decide)
    · cases invalid with
      | true => exact fun hne => absurd rfl hne
      | false => exact fun _ => rfl

/-- Of every width from one to eight bytes, an integer is read as what its bytes mean exactly when
they are not the ones for "no reading" or the type's table lists them. -/
theorem integer_meaning_iff {ty : ZclType} (hty : ty = .uint n ∨ ty = .int n) (hpos : 1 ≤ n.toNat)
    (hn : n.toNat ≤ 8) (hlen : n.toNat ≤ bytes.length) :
    ty.DecodesToMeaning n bytes ↔
      (encodeValue (.invalid ty) ty = .ok (bytes.take n.toNat) → ty.HasInvalid) := by
  obtain ⟨hraw,hlt⟩ := toNat_value hn hlen
  have hread := readUint_new hn hlen
  rcases hty with rfl | rfl
  · obtain ⟨hvalue,hlength⟩ := value_writeInvalid_uint n hn
    refine decodesToMeaning_iff ⟨_,Read.map_eq hread⟩ (by simp [ZclType.numberOf]) ?_
    rw [isInvalidUint_iff hpos,written_iff hlength hlen,hraw]
    have hwritten : LittleEndian.value (bytes.take n.toNat) + 1 = 256 ^ n.toNat ↔
        LittleEndian.value (bytes.take n.toNat) = LittleEndian.value (writeInvalid (.uint n)) := by
      omega
    rw [hwritten]
    rfl
  · obtain ⟨hvalue,hlength⟩ := value_writeInvalid_int n hpos hn
    have hextend : Int64.ofInt (LittleEndian.signed (bytes.take n.toNat)) =
        signExtend (.ofNat (LittleEndian.value (bytes.take n.toNat))) n := by
      have hint := toInt_signExtend hpos hn (hraw.symm ▸ hlt)
      rw [hraw] at hint
      rw [LittleEndian.signed,List.length_take,min_eq_left hlen,← hint,Int64.ofInt_toInt]
    have hnumber : ZclType.numberOf (.int n) (bytes.take n.toNat) =
        .int (signExtend (.ofNat (LittleEndian.value (bytes.take n.toNat))) n) :=
      congrArg ZclValue.int hextend
    have hdecode : ∃ r, decodeValue (.int n) (.new bytes) =
        .ok (if isInvalidInt (.ofNat (LittleEndian.value (bytes.take n.toNat))) n then
          .invalid (.int n) else ZclType.numberOf (.int n) (bytes.take n.toNat),r) := by
      rw [hnumber]
      exact ⟨_,Read.map_eq hread⟩
    refine decodesToMeaning_iff hdecode (by simp [ZclType.numberOf]) ?_
    rw [isInvalidInt_iff,written_iff hlength hlen,hraw]
    have hwritten : 2 * LittleEndian.value (bytes.take n.toNat) = 256 ^ n.toNat ↔
        LittleEndian.value (bytes.take n.toNat) = LittleEndian.value (writeInvalid (.int n)) := by
      omega
    rw [hwritten]
    rfl

end Decoding

/-- Four bytes with the sign bit alone are no temperature. -/
theorem int32_meaning : (ZclType.int 4).DecodesToMeaning 4 [0x00,0x00,0x00,0x80,0x17] :=
  (integer_meaning_iff (.inr rfl) (by decide) (by decide) (by decide)).mpr
    fun _ => .inr (.inr rfl)

/-- Six bytes of ones are written for "no reading", and read as 2⁴⁸ - 1. -/
theorem uint48_misread : ¬ ∀ (n : UInt8) (ty : ZclType) (bytes : Bytes),
    ty = .uint n ∨ ty = .int n → 1 ≤ n.toNat → n.toNat ≤ 8 → n.toNat ≤ bytes.length →
      ty.DecodesToMeaning n bytes := by
  intro h
  obtain ⟨v,r,hread,hmeaning,-⟩ := h 6 (.uint 6) [0xff,0xff,0xff,0xff,0xff,0xff] (.inl rfl)
    (by decide) (by decide) (by decide)
  have hnumber : decodeValue (.uint 6) (.new [0xff,0xff,0xff,0xff,0xff,0xff]) =
      .ok (.uint 0xffffffffffff,⟨[],6⟩) := by decide
  obtain ⟨rfl,-⟩ := Prod.mk.inj (Except.ok.inj (hread.symm.trans hnumber))
  exact absurd (hmeaning.mpr rfl) (by decide)

end Rszigbee
