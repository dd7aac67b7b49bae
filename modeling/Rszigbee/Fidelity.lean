import Rszigbee.Values
import Rszigbee.Utf8
import Mathlib.Tactic.IntervalCases

/-! Which values a type's bytes can say, and that these are the ones read and written
faithfully. -/
namespace Rszigbee

namespace ZclType

/-- Types read as plain numbers, which the encoder does not take back. -/
def Widened : ZclType → Prop
  | clusterId | attrId | time _ => True
  | _ => False

/-- Types with bytes of their own for "no reading". -/
def HasInvalid : ZclType → Prop
  | bool | enum8 | enum16 | single | octStr | charStr => True
  | uint n => n.toNat ≤ 4
  | int n => n = 1 ∨ n = 2 ∨ n = 4
  | _ => False

/-- The readings that a type's bytes can say. -/
def Fits : ZclType → ZclValue → Prop
  | noData, v | unk, v => v = .none
  | bool, v => ∃ b, v = .bool b
  | uint n, v => ∃ x, x.toNat < 256 ^ n.toNat ∧ isInvalidUint x n = false ∧ v = .uint x
  | bitmap n, v => ∃ x, x.toNat < 256 ^ n.toNat ∧ v = .bitmap x
  | int n, v => ∃ x : Int64, -(256 ^ n.toNat : ℕ) ≤ 2 * x.toInt ∧
      2 * x.toInt < (256 ^ n.toNat : ℕ) ∧
      ¬((n = 1 ∨ n = 2 ∨ n = 4) ∧ 2 * x.toInt = -(256 ^ n.toNat : ℕ)) ∧ v = .int x
  | enum8, v => ∃ x : UInt16, x.toNat < 255 ∧ v = .enum x
  | enum16, v => ∃ x, x ≠ 0xffff ∧ v = .enum x
  | single, v => ∃ bits, isNan bits = false ∧ v = .single bits
  | octStr, v => ∃ b, b.length < 255 ∧ v = .octets b
  | charStr, v => ∃ s, s.toUTF8.toList.length < 255 ∧ (∀ c ∈ s.toList, isControl c = false) ∧
      v = .str s
  | ieee, v => ∃ a, v = .ieee a
  | key128, v => ∃ k, v = .key128 k
  | data n, v => ∃ b : Bytes, b.length = n.toNat ∧ v = .raw (toU8 (data n)) b
  | unknown o, v => ∃ b, v = .raw o b
  | clusterId, _ | attrId, _ | time _, _ => False

/-- What a type's bytes can say: a reading that fits, or that there is none. -/
def Holds (ty : ZclType) (v : ZclValue) : Prop := (v = .invalid ty ∧ ty.HasInvalid) ∨ ty.Fits v

theorem Widened.not_holds {ty : ZclType} (h : ty.Widened) (v : ZclValue) : ¬ty.Holds v := by
  rintro (⟨-,hinvalid⟩ | hfits)
  · cases ty with
    | clusterId | attrId | time => exact hinvalid
    | _ => exact h
  · cases ty with
    | clusterId | attrId | time => exact hfits
    | _ => exact h

end ZclType

section Texts

theorem clean_sanitise (s : String) : ∀ c ∈ (sanitise s).toList, isControl c = false := by
  intro c hc
  rw [sanitise,String.toList_ofList,List.mem_filter] at hc
  simpa using hc.2

theorem sanitise_of_clean {s : String} (h : ∀ c ∈ s.toList, isControl c = false) :
    sanitise s = s := by
  have hall : s.toList.filter (fun c => !isControl c) = s.toList := by
    rw [List.filter_eq_self]
    intro c hc
    simp [h c hc]
  rw [sanitise,hall,String.ofList_toList]

/-- What was read is shorter than the one prefix that means "no value". -/
theorem octstr_ok {r r' : Reader} {b : Bytes} (h : Reader.octstr r = .ok (some b,r')) :
    b.length < 255 := by
  rw [Reader.octstr] at h
  obtain ⟨⟨len,r₁⟩,-,h⟩ := bind_eq_ok.mp h
  dsimp only at h
  by_cases hff : len = 0xff
  · rw [if_pos hff] at h
    cases h
  · rw [if_neg hff] at h
    have hlt : len.toNat < 255 := by
      have hne : len.toNat ≠ 255 := fun h255 => hff (UInt8.toNat_inj.mp h255)
      have := len.toNat_lt
      omega
    by_cases hroom : r₁.remaining < len.toNat
    · rw [if_pos hroom] at h
      cases h
    · rw [if_neg hroom,Reader.take,if_pos (not_lt.mp hroom)] at h
      cases h
      simp
      omega

theorem string_ok {r r' : Reader} {s : String} (h : Reader.string r = .ok (some s,r')) :
    s.toUTF8.toList.length < 255 := by
  rw [Reader.string] at h
  obtain ⟨⟨raw,r₁⟩,hraw,h⟩ := bind_eq_ok.mp h
  cases raw with
  | none => cases h
  | some b =>
    dsimp only at h
    cases hs : String.fromUTF8? ⟨b.toArray⟩ with
    | none =>
      rw [hs] at h
      cases h
    | some s' =>
      rw [hs] at h
      cases h
      rw [Utf8.eq_of_fromUTF8? hs]
      exact octstr_ok hraw

theorem octstr_writeOctstr {b : Bytes} (hb : b.length < 255) (rest : Bytes) (pos : ℕ) :
    Reader.octstr ⟨UInt8.ofNat b.length::(b ++ rest),pos⟩ =
      .ok (some b,⟨rest,pos + 1 + b.length⟩) := by
  have hlen : (UInt8.ofNat b.length).toNat = b.length :=
    UInt8.toNat_ofNat_of_lt' (lt_trans hb (by decide))
  have hne : UInt8.ofNat b.length ≠ 0xff := by
    intro h
    have h255 := congrArg UInt8.toNat h
    rw [hlen] at h255
    exact absurd h255 (by simp; omega)
  have hroom : ¬(b ++ rest).length < b.length := by simp
  have htake := Reader.take_append rfl rest (pos + 1) (b := b)
  simp only [Reader.octstr,Reader.u8,bind,Except.bind,if_neg hne,Reader.remaining,hlen,
    if_neg hroom,htake]
  rfl

theorem string_writeOctstr {s : String} (hs : s.toUTF8.toList.length < 255) (rest : Bytes)
    (pos : ℕ) : Reader.string
      ⟨UInt8.ofNat s.toUTF8.toList.length::(s.toUTF8.toList ++ rest),pos⟩ =
        .ok (some s,⟨rest,pos + 1 + s.toUTF8.toList.length⟩) := by
  have hread := octstr_writeOctstr hs rest pos
  have htext := Utf8.fromUTF8?_toUTF8 s
  simp only [Reader.string,hread,bind,Except.bind,htext]
  rfl

end Texts

section Numbers

theorem readUint_bytes {n : UInt8} (hn : n.toNat ≤ 8) (v : ℕ) (rest : Bytes) (pos : ℕ) :
    readUint n ⟨LittleEndian.bytes n.toNat v ++ rest,pos⟩ =
      .ok (.ofNat (v % 256 ^ n.toNat),⟨rest,pos + n.toNat⟩) := by
  have hlen := LittleEndian.length_bytes n.toNat v
  have htake := Reader.take_append hlen rest pos
  have hall : (LittleEndian.bytes n.toNat v).take 8 = LittleEndian.bytes n.toNat v :=
    List.take_of_length_le (by omega)
  rw [readUint,Read.bind_ok_iff]
  refine ⟨_,_,htake,?_⟩
  rw [hall,LittleEndian.value_bytes]
  rfl

theorem u32Le_bytes (v : UInt32) (rest : Bytes) (pos : ℕ) :
    Reader.u32Le ⟨LittleEndian.bytes 4 v.toNat ++ rest,pos⟩ = .ok (v,⟨rest,pos + 4⟩) := by
  have htake := Reader.take_append (LittleEndian.length_bytes 4 v.toNat) rest pos
  rw [Reader.u32Le,Read.bind_ok_iff]
  refine ⟨_,_,htake,?_⟩
  rw [LittleEndian.value_bytes_of_lt v.toNat_lt,UInt32.ofNat_toNat]
  rfl

/-- A 64-bit value's bytes are the ones of its number. -/
theorem le64_eq (v : UInt64) : le64 v = LittleEndian.bytes 8 v.toNat := by
  have hbyte : ∀ w : UInt64, UInt8.ofNat w.toNat = w.toUInt8 := fun w => by
    apply UInt8.toNat_inj.mp
    simp
  simp only [LittleEndian.bytes,Nat.div_div_eq_div_mul,le64,← hbyte,UInt64.toNat_shiftRight,
    Nat.shiftRight_eq_div_pow]
  rfl

theorem toInt_signExtend {raw : UInt64} {n : UInt8} (hpos : 1 ≤ n.toNat) (hle : n.toNat ≤ 8)
    (hraw : raw.toNat < 256 ^ n.toNat) :
    (signExtend raw n).toInt =
      if 2 * raw.toNat < 256 ^ n.toNat then (raw.toNat : ℤ)
      else (raw.toNat : ℤ) - (256 ^ n.toNat : ℕ) := by
  have hcond : ∀ x : UInt64, x.toInt64.toInt = if 2 * x.toNat < 2 ^ 64 then (x.toNat : ℤ)
      else (x.toNat : ℤ) - (2 ^ 64 : ℕ) := fun x => BitVec.toInt_eq_toNat_cond x.toBitVec
  rw [signExtend]
  dsimp only
  generalize n.toNat = w at *
  by_cases hw : w = 8
  · subst hw
    rw [if_pos (by decide),hcond]
    rfl
  · rw [if_neg (by omega)]
    -- the shift down takes back what the shift up left of the number
    have hdown : ((raw <<< UInt64.ofNat (64 - w * 8)).toInt64 >>> Int64.ofNat (64 - w * 8)).toInt =
        (raw <<< UInt64.ofNat (64 - w * 8)).toInt64.toInt >>> (64 - w * 8) := by
      show BitVec.toInt (BitVec.sshiftRight' _ _) = _
      rw [BitVec.toInt_sshiftRight']
      congr 1
      interval_cases w <;> rfl
    have hup : (raw <<< UInt64.ofNat (64 - w * 8)).toNat = raw.toNat * 2 ^ (64 - w * 8) := by
      have hs : (64 - w * 8) % 2 ^ 64 % 64 = 64 - w * 8 := by omega
      rw [UInt64.toNat_shiftLeft,UInt64.toNat_ofNat',hs,Nat.shiftLeft_eq]
      interval_cases w <;> omega
    rw [hdown,Int.shiftRight_eq_div_pow,hcond,hup]
    interval_cases w <;> split <;> split <;> omega

/-- The most negative number of one, two or four bytes stands for "no reading". -/
theorem isInvalidInt_iff {raw : UInt64} {n : UInt8} : isInvalidInt raw n = true ↔
    (n = 1 ∨ n = 2 ∨ n = 4) ∧ 2 * raw.toNat = 256 ^ n.toNat := by
  have hhalf : ∀ (half : UInt64) (k : ℕ), 2 * half.toNat = 256 ^ k →
      (raw = half ↔ 2 * raw.toNat = 256 ^ k) := by
    intro half k hk
    rw [← UInt64.toNat_inj]
    omega
  have hone := hhalf 0x80 1 (by decide)
  have htwo := hhalf 0x8000 2 (by decide)
  have hfour := hhalf 0x80000000 4 (by decide)
  simp only [isInvalidInt,Bool.or_eq_true,Bool.and_eq_true,decide_eq_true_iff]
  constructor
  · rintro ((⟨rfl,h⟩ | ⟨rfl,h⟩) | ⟨rfl,h⟩)
    · exact ⟨.inl rfl,hone.mp h⟩
    · exact ⟨.inr (.inl rfl),htwo.mp h⟩
    · exact ⟨.inr (.inr rfl),hfour.mp h⟩
  · rintro ⟨rfl | rfl | rfl,h⟩
    · exact .inl (.inl ⟨rfl,hone.mpr h⟩)
    · exact .inl (.inr ⟨rfl,htwo.mpr h⟩)
    · exact .inr ⟨rfl,hfour.mpr h⟩

/-- A number in range is what its low bytes say. -/
theorem signExtend_low {x : Int64} {n : UInt8} (hpos : 1 ≤ n.toNat) (hle : n.toNat ≤ 8)
    (hlow : -(256 ^ n.toNat : ℕ) ≤ 2 * x.toInt) (hhigh : 2 * x.toInt < (256 ^ n.toNat : ℕ)) :
    signExtend (.ofNat (x.toUInt64.toNat % 256 ^ n.toNat)) n = x := by
  have hx : x.toInt = if 2 * x.toUInt64.toNat < 2 ^ 64 then (x.toUInt64.toNat : ℤ)
      else (x.toUInt64.toNat : ℤ) - (2 ^ 64 : ℕ) := BitVec.toInt_eq_toNat_cond x.toBitVec
  have hlt := x.toUInt64.toNat_lt
  have hraw : (UInt64.ofNat (x.toUInt64.toNat % 256 ^ n.toNat)).toNat =
      x.toUInt64.toNat % 256 ^ n.toNat := by
    rw [UInt64.toNat_ofNat']
    exact Nat.mod_eq_of_lt (lt_of_le_of_lt (Nat.mod_le _ _) hlt)
  have hmod : x.toUInt64.toNat % 256 ^ n.toNat < 256 ^ n.toNat :=
    Nat.mod_lt _ (Nat.pow_pos (by decide))
  apply Int64.toInt_inj.mp
  rw [toInt_signExtend hpos hle (by rwa [hraw]),hraw]
  generalize n.toNat = w at *
  generalize x.toUInt64.toNat = u at *
  interval_cases w <;> split <;> split at hx <;> omega

end Numbers

section Reading

/-- A read that succeeds and is then turned into a value. -/
theorem Read.map_eq {α : Type} {m : Read α} {f : α → ZclValue} {r r' : Reader} {a : α}
    (h : m r = .ok (a,r')) : (m >>= fun a => pure (f a)) r = .ok (f a,r') := by
  rw [Read.bind_ok_iff]
  exact ⟨a,r',h,rfl⟩

/-- These bytes, whatever follows them, are read as the value. A type that takes what is left
has nothing after it. -/
def ZclType.ReadsBack (ty : ZclType) (v : ZclValue) (out : Bytes) : Prop :=
  ∀ (rest : Bytes) (pos : ℕ), (∀ o, ty = .unknown o → rest = []) →
    decodeValue ty ⟨out ++ rest,pos⟩ = .ok (v,⟨rest,pos + out.length⟩)

theorem readsBack_invalid {ty : ZclType} (hty : ty.Canonical) (h : ty.HasInvalid) :
    ty.ReadsBack (.invalid ty) (writeInvalid ty) := by
  intro rest pos _
  cases ty with
  | bool | enum8 | enum16 | octStr | charStr => rfl
  | single => exact Read.map_eq (u32Le_bytes nanBits rest pos)
  | uint n =>
    have hwidth := hty.width (.inr (.inr (.inl rfl)))
    have hn : n = 1 ∨ n = 2 ∨ n = 3 ∨ n = 4 := by
      simp only [← UInt8.toNat_inj]
      have hle : n.toNat ≤ 4 := h
      simp
      omega
    rcases hn with rfl | rfl | rfl | rfl
    · exact Read.map_eq (readUint_bytes (n := 1) (by decide) 0xff rest pos)
    · exact Read.map_eq (readUint_bytes (n := 2) (by decide) 0xffff rest pos)
    · exact Read.map_eq (readUint_bytes (n := 3) (by decide) 0xffffff rest pos)
    · exact Read.map_eq (readUint_bytes (n := 4) (by decide) 0xffffffff rest pos)
  | int n =>
    rcases h with rfl | rfl | rfl
    · exact Read.map_eq (readUint_bytes (n := 1) (by decide) 0x80 rest pos)
    · exact Read.map_eq (readUint_bytes (n := 2) (by decide) 0x8000 rest pos)
    · exact Read.map_eq (readUint_bytes (n := 4) (by decide) 0x80000000 rest pos)
  | noData | data | bitmap | time | clusterId | attrId | ieee | key128 | unk | unknown =>
    exact absurd h id

section Types

variable {n : UInt8}

theorem readsBack_uint (hn : n.toNat ≤ 8) {x : UInt64} (hx : x.toNat < 256 ^ n.toNat)
    (hvalid : isInvalidUint x n = false) :
    (ZclType.uint n).ReadsBack (.uint x) (writeUint x n) := by
  intro rest pos _
  have hread := readUint_bytes hn x.toNat rest pos
  rw [Nat.mod_eq_of_lt hx,UInt64.ofNat_toNat] at hread
  have hvalue := Read.map_eq (f := fun raw =>
    if isInvalidUint raw n then .invalid (.uint n) else .uint raw) hread
  rw [hvalid] at hvalue
  rw [writeUint,LittleEndian.length_bytes]
  exact hvalue

theorem readsBack_bitmap (hn : n.toNat ≤ 8) {x : UInt64} (hx : x.toNat < 256 ^ n.toNat) :
    (ZclType.bitmap n).ReadsBack (.bitmap x) (writeUint x n) := by
  intro rest pos _
  have hread := readUint_bytes hn x.toNat rest pos
  rw [Nat.mod_eq_of_lt hx,UInt64.ofNat_toNat] at hread
  rw [writeUint,LittleEndian.length_bytes]
  exact Read.map_eq hread

theorem readsBack_int (hpos : 1 ≤ n.toNat) (hn : n.toNat ≤ 8) {x : Int64}
    (hlow : -(256 ^ n.toNat : ℕ) ≤ 2 * x.toInt) (hhigh : 2 * x.toInt < (256 ^ n.toNat : ℕ))
    (hvalid : ¬((n = 1 ∨ n = 2 ∨ n = 4) ∧ 2 * x.toInt = -(256 ^ n.toNat : ℕ))) :
    (ZclType.int n).ReadsBack (.int x) (writeUint x.toUInt64 n) := by
  intro rest pos _
  have hread := readUint_bytes hn x.toUInt64.toNat rest pos
  have hback := signExtend_low hpos hn hlow hhigh
  generalize UInt64.ofNat (x.toUInt64.toNat % 256 ^ n.toNat) = raw at hread hback
  have hraw : isInvalidInt raw n = false := by
    rw [← Bool.not_eq_true,isInvalidInt_iff]
    rintro ⟨hwidth,hhalf⟩
    have hpower : 0 < 256 ^ n.toNat := Nat.pow_pos (by decide)
    have hlt : raw.toNat < 256 ^ n.toNat := by omega
    have hint := toInt_signExtend hpos hn hlt
    rw [if_neg (by omega),hback] at hint
    exact hvalid ⟨hwidth,by omega⟩
  have hvalue := Read.map_eq (f := fun raw =>
    if isInvalidInt raw n then .invalid (.int n) else .int (signExtend raw n)) hread
  rw [hraw,hback] at hvalue
  rw [writeUint,LittleEndian.length_bytes]
  exact hvalue

theorem readsBack_enum8 {x : UInt16} (hx : x.toNat < 255) :
    ZclType.enum8.ReadsBack (.enum x) [.ofNat x.toNat] := by
  intro rest pos _
  have hsmall : x.toNat < 256 := by omega
  have hne : UInt8.ofNat x.toNat ≠ 0xff := by
    intro h
    have h255 := congrArg UInt8.toNat h
    rw [UInt8.toNat_ofNat_of_lt' hsmall] at h255
    simp at h255
    omega
  have hback : (UInt8.ofNat x.toNat).toUInt16 = x := by
    apply UInt16.toNat_inj.mp
    rw [UInt8.toNat_toUInt16,UInt8.toNat_ofNat_of_lt' hsmall]
  have hvalue := Read.map_eq (m := Reader.u8) (f := fun v =>
    if v = 0xff then .invalid .enum8 else .enum v.toUInt16)
    (r := ⟨UInt8.ofNat x.toNat::rest,pos⟩) rfl
  rw [if_neg hne,hback] at hvalue
  exact hvalue

theorem readsBack_enum16 {x : UInt16} (hx : x ≠ 0xffff) :
    ZclType.enum16.ReadsBack (.enum x) (le16 x) := by
  intro rest pos _
  have hread : Reader.u16Le ⟨le16 x ++ rest,pos⟩ = .ok (x,⟨rest,pos + 2⟩) :=
    Read.u16Le_ok_iff.mpr ⟨rfl,rfl⟩
  have hvalue := Read.map_eq (f := fun v =>
    if v = 0xffff then .invalid .enum16 else .enum v) hread
  rw [if_neg hx] at hvalue
  exact hvalue

theorem readsBack_single {bits : UInt32} (hbits : isNan bits = false) :
    ZclType.single.ReadsBack (.single bits) (LittleEndian.bytes 4 bits.toNat) := by
  intro rest pos _
  have hvalue := Read.map_eq (f := fun bits =>
    if isNan bits then .invalid .single else .single bits) (u32Le_bytes bits rest pos)
  rw [hbits] at hvalue
  exact hvalue

theorem readsBack_charStr {s : String} (hs : s.toUTF8.toList.length < 255)
    (hclean : ∀ c ∈ s.toList, isControl c = false) : ZclType.charStr.ReadsBack (.str s)
      (UInt8.ofNat s.toUTF8.toList.length::s.toUTF8.toList) := by
  intro rest pos _
  have hread : decodeValue .charStr
      ⟨UInt8.ofNat s.toUTF8.toList.length::(s.toUTF8.toList ++ rest),pos⟩ =
        .ok (.str (sanitise s),⟨rest,pos + 1 + s.toUTF8.toList.length⟩) :=
    Read.map_eq (string_writeOctstr hs rest pos)
  rw [sanitise_of_clean hclean] at hread
  rw [List.length_cons,Nat.add_comm s.toUTF8.toList.length,← Nat.add_assoc]
  exact hread

theorem readsBack_ieee (a : Ieee) : ZclType.ieee.ReadsBack (.ieee a) (le64 a.raw) := by
  intro rest pos _
  have htake := Reader.take_append (LittleEndian.length_bytes 8 a.raw.toNat) rest pos
  have hread : Reader.ieeeLe ⟨le64 a.raw ++ rest,pos⟩ = .ok (a,⟨rest,pos + 8⟩) := by
    rw [le64_eq,Reader.ieeeLe,Reader.u64Le,Read.bind_ok_iff]
    refine ⟨a.raw,_,?_,rfl⟩
    rw [Read.bind_ok_iff]
    refine ⟨_,_,htake,?_⟩
    rw [LittleEndian.value_bytes_of_lt a.raw.toNat_lt,UInt64.ofNat_toNat]
    rfl
  exact Read.map_eq hread

theorem readsBack_key128 (k : Vector UInt8 16) : ZclType.key128.ReadsBack (.key128 k) k.toList := by
  intro rest pos _
  have hkey : Vector.ofFn (fun i : Fin 16 => (k.toList[i.val]?).getD 0) = k := by
    ext i hi
    simp
  have hvalue := Read.map_eq (f := fun b : Bytes =>
    .key128 (.ofFn fun i : Fin 16 => (b[i.val]?).getD 0))
      (Reader.take_append k.length_toList rest pos)
  rw [hkey] at hvalue
  rw [k.length_toList]
  exact hvalue

end Types

/-- What fits a type is written, and read back as it was. -/
theorem readsBack_fits {ty : ZclType} (hty : ty.Canonical) {v : ZclValue} (h : ty.Fits v) :
    ∃ out, encodeValue v ty = .ok out ∧ ty.ReadsBack v out := by
  cases ty with
  | noData | unk =>
    subst h
    exact ⟨[],rfl,fun rest pos _ => rfl⟩
  | bool =>
    obtain ⟨b,rfl⟩ := h
    cases b with
    | false => exact ⟨[0],rfl,fun rest pos _ => rfl⟩
    | true => exact ⟨[1],rfl,fun rest pos _ => rfl⟩
  | uint n =>
    obtain ⟨x,hx,hvalid,rfl⟩ := h
    have hn := hty.width (.inr (.inr (.inl rfl)))
    exact ⟨writeUint x n,rfl,readsBack_uint hn.2 hx hvalid⟩
  | bitmap n =>
    obtain ⟨x,hx,rfl⟩ := h
    have hn := hty.width (.inr (.inl rfl))
    exact ⟨writeUint x n,rfl,readsBack_bitmap hn.2 hx⟩
  | int n =>
    obtain ⟨x,hlow,hhigh,hvalid,rfl⟩ := h
    have hn := hty.width (.inr (.inr (.inr rfl)))
    exact ⟨writeUint x.toUInt64 n,rfl,readsBack_int hn.1 hn.2 hlow hhigh hvalid⟩
  | enum8 =>
    obtain ⟨x,hx,rfl⟩ := h
    have hsmall : x.toNat < 256 := by omega
    exact ⟨[.ofNat x.toNat],by rw [encodeValue,if_pos hsmall],readsBack_enum8 hx⟩
  | enum16 =>
    obtain ⟨x,hx,rfl⟩ := h
    exact ⟨le16 x,rfl,readsBack_enum16 hx⟩
  | single =>
    obtain ⟨bits,hbits,rfl⟩ := h
    exact ⟨LittleEndian.bytes 4 bits.toNat,rfl,readsBack_single hbits⟩
  | octStr =>
    obtain ⟨b,hb,rfl⟩ := h
    refine ⟨UInt8.ofNat b.length::b,?_,fun rest pos _ => ?_⟩
    · rw [encodeValue,writeOctstr,if_pos hb]
    · rw [List.length_cons,Nat.add_comm b.length,← Nat.add_assoc]
      exact Read.map_eq (octstr_writeOctstr hb rest pos)
  | charStr =>
    obtain ⟨s,hs,hclean,rfl⟩ := h
    refine ⟨UInt8.ofNat s.toUTF8.toList.length::s.toUTF8.toList,?_,readsBack_charStr hs hclean⟩
    rw [encodeValue,writeOctstr,if_pos hs]
  | ieee =>
    obtain ⟨a,rfl⟩ := h
    exact ⟨le64 a.raw,rfl,readsBack_ieee a⟩
  | key128 =>
    obtain ⟨k,rfl⟩ := h
    exact ⟨k.toList,rfl,readsBack_key128 k⟩
  | data n =>
    obtain ⟨b,hb,rfl⟩ := h
    refine ⟨b,rfl,fun rest pos _ => ?_⟩
    have htake := Reader.take_append hb rest pos
    rw [hb]
    exact Read.map_eq htake
  | unknown o =>
    obtain ⟨b,rfl⟩ := h
    refine ⟨b,rfl,fun rest pos hrest => ?_⟩
    rw [hrest o rfl,List.append_nil]
    rfl
  | clusterId | attrId | time => exact absurd h id

theorem readsBack_holds {ty : ZclType} (hty : ty.Canonical) {v : ZclValue} (h : ty.Holds v) :
    ∃ out, encodeValue v ty = .ok out ∧ ty.ReadsBack v out := by
  rcases h with ⟨rfl,hinvalid⟩ | hfits
  · exact ⟨writeInvalid ty,rfl,readsBack_invalid hty hinvalid⟩
  · exact readsBack_fits hty hfits

theorem encodeValue_widened {ty : ZclType} (hty : ty.Widened) (x : UInt64) :
    encodeValue (.uint x) ty = .error (.outputFull 0) := by
  cases ty with
  | clusterId | attrId | time => rfl
  | _ => exact absurd hty id

theorem holds_uint {n : UInt8} {raw : UInt64} (hlt : raw.toNat < 256 ^ n.toNat) :
    (ZclType.uint n).Holds (if isInvalidUint raw n then .invalid (.uint n) else .uint raw) := by
  cases hinvalid : isInvalidUint raw n with
  | false => exact .inr ⟨raw,hlt,hinvalid,by simp⟩
  | true =>
    refine .inl ⟨by simp,?_⟩
    simp only [isInvalidUint,Bool.or_eq_true,Bool.and_eq_true,decide_eq_true_iff] at hinvalid
    rcases hinvalid with ((⟨rfl,-⟩ | ⟨rfl,-⟩) | ⟨rfl,-⟩) | ⟨rfl,-⟩ <;>
      exact show _ ≤ 4 by decide

/-- A number that is not the sentinel of its width is in range and not the most negative. -/
theorem holds_int {n : UInt8} (hpos : 1 ≤ n.toNat) (hn : n.toNat ≤ 8) {raw : UInt64}
    (hlt : raw.toNat < 256 ^ n.toNat) : (ZclType.int n).Holds
      (if isInvalidInt raw n then .invalid (.int n) else .int (signExtend raw n)) := by
  have hint := toInt_signExtend hpos hn hlt
  cases hinvalid : isInvalidInt raw n with
  | true => exact .inl ⟨by simp,(isInvalidInt_iff.mp hinvalid).1⟩
  | false =>
    refine .inr ⟨signExtend raw n,?_,?_,?_,by simp⟩
    · rw [hint]
      split <;> omega
    · rw [hint]
      split <;> omega
    · rintro ⟨hwidth,hhalf⟩
      have hsentinel : isInvalidInt raw n = true := by
        refine isInvalidInt_iff.mpr ⟨hwidth,?_⟩
        rw [hint] at hhalf
        split at hhalf <;> omega
      rw [hinvalid] at hsentinel
      cases hsentinel

/-- What is read is something the type's bytes can say, numbers that are read as such apart. -/
theorem holds_of_decode {ty : ZclType} (hty : ty.Canonical) {r r' : Reader} {v : ZclValue}
    (h : decodeValue ty r = .ok (v,r')) : ty.Holds v ∨ ty.Widened ∧ ∃ x, v = .uint x := by
  cases ty with
  | noData | unk =>
    cases h
    exact .inl (.inr rfl)
  | bool =>
    obtain ⟨b,-,rfl⟩ := Read.map_ok h
    left
    by_cases h0 : b = 0x00
    · exact .inr ⟨false,if_pos h0⟩
    · by_cases hff : b = 0xff
      · exact .inl ⟨by rw [if_neg h0,if_pos hff],trivial⟩
      · exact .inr ⟨true,by rw [if_neg h0,if_neg hff]⟩
  | uint n =>
    obtain ⟨raw,hraw,rfl⟩ := Read.map_ok h
    exact .inl (holds_uint (readUint_lt hraw))
  | bitmap n =>
    obtain ⟨raw,hraw,rfl⟩ := Read.map_ok h
    exact .inl (.inr ⟨raw,readUint_lt hraw,rfl⟩)
  | int n =>
    obtain ⟨raw,hraw,rfl⟩ := Read.map_ok h
    have hn := hty.width (.inr (.inr (.inr rfl)))
    exact .inl (holds_int hn.1 hn.2 (readUint_lt hraw))
  | enum8 =>
    obtain ⟨b,-,rfl⟩ := Read.map_ok h
    left
    by_cases hff : b = 0xff
    · exact .inl ⟨if_pos hff,trivial⟩
    · refine .inr ⟨b.toUInt16,?_,if_neg hff⟩
      have hne : b.toNat ≠ 255 := fun h => hff (UInt8.toNat_inj.mp h)
      have hlt := b.toNat_lt
      rw [UInt8.toNat_toUInt16]
      omega
  | enum16 =>
    obtain ⟨x,-,rfl⟩ := Read.map_ok h
    left
    by_cases hff : x = 0xffff
    · exact .inl ⟨if_pos hff,trivial⟩
    · exact .inr ⟨x,hff,if_neg hff⟩
  | single =>
    obtain ⟨bits,-,rfl⟩ := Read.map_ok h
    left
    cases hbits : isNan bits with
    | true => exact .inl ⟨by simp,trivial⟩
    | false => exact .inr ⟨bits,hbits,by simp⟩
  | octStr =>
    obtain ⟨b,hb,rfl⟩ := Read.map_ok h
    left
    cases b with
    | none => exact .inl ⟨rfl,trivial⟩
    | some b => exact .inr ⟨b,octstr_ok hb,rfl⟩
  | charStr =>
    obtain ⟨s,hs,rfl⟩ := Read.map_ok h
    left
    cases s with
    | none => exact .inl ⟨rfl,trivial⟩
    | some s =>
      have hlen := Utf8.length_filter_le (fun c => !isControl c) s
      have hlt := string_ok hs
      exact .inr ⟨sanitise s,lt_of_le_of_lt hlen hlt,clean_sanitise s,rfl⟩
  | ieee | key128 | unknown =>
    obtain ⟨x,-,rfl⟩ := Read.map_ok h
    exact .inl (.inr ⟨_,rfl⟩)
  | clusterId | attrId | time =>
    obtain ⟨x,-,rfl⟩ := Read.map_ok h
    exact .inr ⟨trivial,_,rfl⟩
  | data n =>
    obtain ⟨b,hb,rfl⟩ := Read.map_ok h
    refine .inl (.inr ⟨b,?_,rfl⟩)
    rw [Reader.take] at hb
    split at hb
    · cases hb
      simp_all [Reader.remaining]
    · cases hb

theorem take_pos {n : ℕ} {r r' : Reader} {b : Bytes} (h : Reader.take n r = .ok (b,r')) :
    r'.pos = r.pos + n := by
  rw [Reader.take] at h
  split at h
  · cases h
    rfl
  · cases h

/-- A type of fixed size takes that many bytes. -/
theorem fixedSize_of_decode {ty : ZclType} {n : ℕ} (hsize : ty.fixedSize = some n) {r r' : Reader}
    {v : ZclValue} (h : decodeValue ty r = .ok (v,r')) : r'.pos = r.pos + n := by
  cases ty with
  | noData | unk =>
    cases h
    cases hsize
    rfl
  | bool | enum8 =>
    obtain ⟨b,hb,-⟩ := Read.map_ok h
    cases hsize
    exact (Read.u8_ok_iff.mp hb).2
  | enum16 | clusterId | attrId =>
    obtain ⟨x,hx,-⟩ := Read.map_ok h
    cases hsize
    exact (Read.u16Le_ok_iff.mp hx).2
  | single =>
    obtain ⟨bits,hbits,-⟩ := Read.map_ok h
    obtain ⟨b,r₁,hb,hpure⟩ := (Read.bind_ok_iff ..).mp hbits
    cases hsize
    cases hpure
    exact take_pos hb
  | time w =>
    obtain ⟨x,hx,-⟩ := Read.map_ok h
    obtain ⟨b,r₁,hb,hpure⟩ := (Read.bind_ok_iff ..).mp hx
    have hn : n = 4 := by
      rw [ZclType.fixedSize] at hsize
      split at hsize
      · exact (Option.some.inj hsize).symm
      · cases hsize
    cases hpure
    rw [hn]
    exact take_pos hb
  | uint w | bitmap w | int w =>
    obtain ⟨raw,hraw,-⟩ := Read.map_ok h
    obtain ⟨b,r₁,hb,hpure⟩ := (Read.bind_ok_iff ..).mp hraw
    cases hsize
    cases hpure
    exact take_pos hb
  | data w | key128 =>
    obtain ⟨b,hb,-⟩ := Read.map_ok h
    cases hsize
    exact take_pos hb
  | ieee =>
    obtain ⟨a,ha,-⟩ := Read.map_ok h
    obtain ⟨raw,r₁,hraw,hpure⟩ := (Read.bind_ok_iff ..).mp ha
    obtain ⟨b,r₂,hb,hpure'⟩ := (Read.bind_ok_iff ..).mp hraw
    cases hsize
    cases hpure
    cases hpure'
    exact take_pos hb
  | octStr | charStr | unknown => cases hsize

end Reading

section Faithfulness

/-- A value is encoded, and the bytes are read back as it, to the last one. -/
def ZclType.Reencodes (ty : ZclType) (v : ZclValue) : Prop :=
  ∃ out, encodeValue v ty = .ok out ∧
    ∀ suffix : Bytes, (∀ o, ty = .unknown o → suffix = []) →
      decodeValue ty (.new (out ++ suffix)) = .ok (v,⟨suffix,out.length⟩)

theorem reencodes_of_holds {ty : ZclType} (hty : ty.Canonical) {v : ZclValue} (h : ty.Holds v) :
    ty.Reencodes v := by
  obtain ⟨out,hout,hback⟩ := readsBack_holds hty h
  refine ⟨out,hout,fun suffix hsuffix => ?_⟩
  have hread := hback suffix 0 hsuffix
  rwa [Nat.zero_add] at hread

/-- What is read is encoded again and read back, unless its type is an identifier or a time. -/
theorem reencodes_iff (tag : UInt8) {bytes : Bytes} {v : ZclValue} {r : Reader}
    (h : decodeValue (.fromU8 tag) (.new bytes) = .ok (v,r)) :
    (ZclType.fromU8 tag).Reencodes v ↔ ¬(ZclType.fromU8 tag).Widened := by
  have hty : (ZclType.fromU8 tag).Canonical := ZclType.canonical_iff.mpr ⟨tag,rfl⟩
  constructor
  · rintro ⟨out,hout,-⟩ hwidened
    obtain ⟨x,rfl⟩ : ∃ x, v = .uint x := by
      rcases holds_of_decode hty h with hholds | ⟨-,hx⟩
      · exact absurd hholds (hwidened.not_holds v)
      · exact hx
    rw [encodeValue_widened hwidened] at hout
    cases hout
  · intro hwidened
    rcases holds_of_decode hty h with hholds | ⟨hwide,-⟩
    · exact reencodes_of_holds hty hholds
    · exact absurd hwide hwidened

theorem reencodes_iff_level :
    (ZclType.fromU8 0x20).Reencodes (.uint 0x2a) ↔ ¬(ZclType.fromU8 0x20).Widened := by
  have hread : decodeValue (.fromU8 0x20) (.new [0x2a]) = .ok (.uint 0x2a,⟨[],1⟩) := by decide
  exact reencodes_iff 0x20 hread

/-- A cluster id is read as a number, and the number is refused. -/
theorem clusterId_not_reencoded : ¬∀ (tag : UInt8) (bytes : Bytes) (v : ZclValue) (r : Reader),
    decodeValue (.fromU8 tag) (.new bytes) = .ok (v,r) → (ZclType.fromU8 tag).Reencodes v := by
  intro h
  obtain ⟨out,hout,-⟩ := h 0xe8 [0x06,0x00] (.uint 6) ⟨[],2⟩ (by decide)
  cases hout

/-- An accepted value is read back from exactly its bytes when the type's bytes can say it, and
then a type of fixed size has that size. -/
theorem written_faithfully_iff (tag : UInt8) {v : ZclValue} {out : Bytes}
    (hout : encodeValue v (.fromU8 tag) = .ok out) :
    (decodeValue (.fromU8 tag) (.new out) = .ok (v,⟨[],out.length⟩) ↔
        (ZclType.fromU8 tag).Holds v) ∧
      ((ZclType.fromU8 tag).Holds v →
        ∀ n, (ZclType.fromU8 tag).fixedSize = some n → out.length = n) := by
  have hty : (ZclType.fromU8 tag).Canonical := ZclType.canonical_iff.mpr ⟨tag,rfl⟩
  have hback : (ZclType.fromU8 tag).Holds v →
      decodeValue (.fromU8 tag) (.new out) = .ok (v,⟨[],out.length⟩) := by
    intro hholds
    obtain ⟨out',hout',hread⟩ := reencodes_of_holds hty hholds
    rw [hout] at hout'
    cases hout'
    have hread := hread [] fun _ _ => rfl
    rwa [List.append_nil] at hread
  refine ⟨⟨fun hread => ?_,hback⟩,fun hholds n hsize => ?_⟩
  · rcases holds_of_decode hty hread with hholds | ⟨hwidened,x,rfl⟩
    · exact hholds
    · rw [encodeValue_widened hwidened] at hout
      cases hout
  · have hpos := fixedSize_of_decode hsize (hback hholds)
    simpa [Reader.new] using hpos

theorem written_faithfully_iff_temperature :
    (decodeValue (.fromU8 0x29) (.new [0x18,0xfc]) = .ok (.int (-1000),⟨[],2⟩) ↔
        (ZclType.fromU8 0x29).Holds (.int (-1000))) ∧
      ((ZclType.fromU8 0x29).Holds (.int (-1000)) →
        ∀ n, (ZclType.fromU8 0x29).fixedSize = some n → [0x18,0xfc].length = n) :=
  written_faithfully_iff 0x29 (by decide)

/-- A number past one byte is accepted, and its lowest byte written. -/
theorem truncated_uint : encodeValue (.uint 0x100) (.fromU8 0x20) = .ok [0x00] ∧
    decodeValue (.fromU8 0x20) (.new [0x00]) ≠ .ok (.uint 0x100,⟨[],1⟩) := by
  decide

end Faithfulness
end Rszigbee
