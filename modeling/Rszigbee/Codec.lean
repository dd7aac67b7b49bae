import Rszigbee.Ids
import Rszigbee.LittleEndian

/-! A cursor over bytes that never panics: every read may fail. -/
namespace Rszigbee

/-- Why a read or write failed. -/
inductive CodecError
  | eof (wanted offset available : ℕ)
  | badLength (claimed available offset : ℕ)
  | badUtf8 (offset : ℕ)
  | outputFull (wanted : ℕ)
  deriving DecidableEq

section Results
variable {ε : Type*} {α β : Type} {f : α → β} {r : Except ε α}

theorem map_eq_ok {b : β} : r.map f = .ok b ↔ ∃ a, r = .ok a ∧ f a = b := by
  cases r <;> simp [Except.map]

theorem map_eq_error {e : ε} : r.map f = .error e ↔ r = .error e := by
  cases r <;> simp [Except.map]

theorem bind_eq_ok {k : α → Except ε β} {b : β} :
    (r >>= k) = .ok b ↔ ∃ a, r = .ok a ∧ k a = .ok b := by
  cases r <;> simp [bind,Except.bind]

theorem map_inj {r' : Except ε α} (hf : Function.Injective f) (h : r.map f = r'.map f) :
    r = r' := by
  cases r with
  | error e => exact (map_eq_error.mp h.symm).symm
  | ok a =>
    obtain ⟨a',hr',heq⟩ := map_eq_ok.mp h.symm
    rw [hr',hf heq]

theorem mapError_eq_ok {ε' : Type*} {g : ε → ε'} {a : α} : r.mapError g = .ok a ↔ r = .ok a := by
  cases r <;> simp [Except.mapError]

end Results

/-- The unconsumed bytes and the offset at which they start. -/
structure Reader where
  rest : Bytes
  pos : ℕ
  deriving DecidableEq

/-- A computation that reads. -/
abbrev Read (α : Type) := StateT Reader (Except CodecError) α

namespace Read

theorem bind_ok_iff {ε α β : Type} (m : StateT Reader (Except ε) α)
    (f : α → StateT Reader (Except ε) β) (r : Reader) (x : β × Reader) :
    (m >>= f) r = .ok x ↔ ∃ a r', m r = .ok (a,r') ∧ f a r' = .ok x := by
  show (m r >>= fun p => f p.1 p.2) = .ok x ↔ _
  cases hm : m r with
  | error e => simp [bind,Except.bind]
  | ok p =>
    constructor
    · intro h
      exact ⟨p.1,p.2,rfl,h⟩
    · rintro ⟨a,r',hp,h⟩
      cases hp
      exact h

theorem pure_ok_iff {α : Type} (a : α) (r : Reader) (x : α × Reader) :
    (pure a : Read α) r = .ok x ↔ x = (a,r) := by
  show Except.ok (a,r) = .ok x ↔ _
  simp [eq_comm]

end Read

namespace Reader

def new (buf : Bytes) : Reader := ⟨buf,0⟩

def remaining (r : Reader) : ℕ := r.rest.length

def take (n : ℕ) : Read Bytes := fun r =>
  if n ≤ r.remaining then .ok (r.rest.take n,⟨r.rest.drop n,r.pos + n⟩)
  else .error (.eof n r.pos r.remaining)

/-- As many bytes as were put in front are taken off. -/
theorem take_append {b : Bytes} {n : ℕ} (hn : b.length = n) (rest : Bytes) (pos : ℕ) :
    take n ⟨b ++ rest,pos⟩ = .ok (b,⟨rest,pos + n⟩) := by
  have hroom : n ≤ (Reader.mk (b ++ rest) pos).remaining := by
    rw [remaining,List.length_append]
    omega
  rw [take,if_pos hroom,← hn]
  simp

/-- Consumes everything left. -/
def takeRest : Read Bytes := fun r => .ok (r.rest,⟨[],r.pos + r.remaining⟩)

def u8 : Read UInt8 := fun r =>
  match r.rest with
  | b::rest => .ok (b,⟨rest,r.pos + 1⟩)
  | [] => .error (.eof 1 r.pos 0)

/-- The 16-bit value of a low and a high byte. -/
def ofLe16 (lo hi : UInt8) : UInt16 := lo.toUInt16 ||| (hi.toUInt16 <<< 8)

def u16Le : Read UInt16 := fun r =>
  match r.rest with
  | lo::hi::rest => .ok (ofLe16 lo hi,⟨rest,r.pos + 2⟩)
  | _ => .error (.eof 2 r.pos r.remaining)

def u32Le : Read UInt32 := do
  let b ← take 4
  pure (.ofNat (LittleEndian.value b))

def u64Le : Read UInt64 := do
  let b ← take 8
  pure (.ofNat (LittleEndian.value b))

def ieeeLe : Read Ieee := do
  let raw ← u64Le
  pure ⟨raw⟩

/-- A length-prefixed byte string; a prefix of `0xff` means "no value". -/
def octstr : Read (Option Bytes) := fun r => do
  let (len,r') ← u8 r
  if len = 0xff then pure (none,r')
  else if r'.remaining < len.toNat then throw (.badLength len.toNat r'.remaining r.pos)
  else
    let (b,r'') ← take len.toNat r'
    pure (some b,r'')

/-- A length-prefixed UTF-8 string. -/
def string : Read (Option String) := fun r => do
  let (raw,r') ← octstr r
  match raw with
  | none => pure (none,r')
  | some b =>
    match String.fromUTF8? ⟨b.toArray⟩ with
    | some s => pure (some s,r')
    | none => throw (.badUtf8 r.pos)

end Reader

/-- A length-prefixed byte string, written; 255 bytes would read as "no value". -/
def writeOctstr (raw : Bytes) : Except CodecError Bytes :=
  if raw.length < 255 then .ok (UInt8.ofNat raw.length::raw) else .error (.outputFull raw.length)

/-- Little-endian bytes of a 16-bit value. -/
def le16 (v : UInt16) : Bytes := [v.toUInt8,(v >>> 8).toUInt8]

/-- The bytes of a 16-bit value denote it. -/
@[simp] theorem Reader.ofLe16_bytes (v : UInt16) : Reader.ofLe16 v.toUInt8 (v >>> 8).toUInt8 = v := by
  have hv : v.toNat < 2 ^ 16 := v.toNat_lt
  have hshift : ((8 : UInt16).toNat % 16) = 8 := by decide
  apply UInt16.toNat_inj.mp
  apply Nat.eq_of_testBit_eq
  intro i
  simp only [Reader.ofLe16,UInt16.toNat_or,UInt16.toNat_shiftLeft,UInt8.toNat_toUInt16,
    UInt16.toNat_toUInt8,UInt16.toNat_shiftRight,Nat.testBit_or,Nat.testBit_shiftLeft,
    Nat.testBit_mod_two_pow,Nat.testBit_shiftRight,hshift]
  by_cases hi : i < 8
  · simp [hi]
  by_cases hi' : i < 16
  · have hback : 8 + (i - 8) = i := by omega
    have hlow : i - 8 < 8 := by omega
    simp [hi,hi',hback,hlow]
    omega
  · have hbit : v.toNat.testBit i = false :=
      Nat.testBit_lt_two_pow (lt_of_lt_of_le hv (Nat.pow_le_pow_right (by decide) (by omega)))
    simp [hi,hi',hbit]

/-- Two bytes are the bytes of the value they denote. -/
@[simp] theorem le16_ofLe16 (lo hi : UInt8) : le16 (Reader.ofLe16 lo hi) = [lo,hi] := by
  have hlo : lo.toNat < 2 ^ 8 := lo.toNat_lt
  have hhi : hi.toNat < 2 ^ 8 := hi.toNat_lt
  have hshift : ((8 : UInt16).toNat % 16) = 8 := by decide
  have hsmall : ∀ {n : ℕ}, n < 2 ^ 8 → ∀ {i}, ¬i < 8 → n.testBit i = false := by
    intro n hn i hi
    exact Nat.testBit_lt_two_pow (lt_of_lt_of_le hn (Nat.pow_le_pow_right (by decide) (by omega)))
  have hfirst : (Reader.ofLe16 lo hi).toUInt8 = lo := by
    apply UInt8.toNat_inj.mp
    apply Nat.eq_of_testBit_eq
    intro i
    simp only [Reader.ofLe16,UInt16.toNat_or,UInt16.toNat_shiftLeft,UInt8.toNat_toUInt16,
      UInt16.toNat_toUInt8,Nat.testBit_or,Nat.testBit_shiftLeft,Nat.testBit_mod_two_pow,hshift]
    by_cases hi : i < 8
    · simp [hi]
    · simp [hi,hsmall hlo hi]
  have hsecond : (Reader.ofLe16 lo hi >>> 8).toUInt8 = hi := by
    apply UInt8.toNat_inj.mp
    apply Nat.eq_of_testBit_eq
    intro i
    simp only [Reader.ofLe16,UInt16.toNat_or,UInt16.toNat_shiftLeft,UInt8.toNat_toUInt16,
      UInt16.toNat_toUInt8,UInt16.toNat_shiftRight,Nat.testBit_or,Nat.testBit_shiftLeft,
      Nat.testBit_mod_two_pow,Nat.testBit_shiftRight,hshift]
    by_cases hi : i < 8
    · have hin : 8 + i < 16 := by omega
      have hout : ¬8 + i < 8 := by omega
      simp [hi,hin,hsmall hlo hout]
    · simp [hi,hsmall hhi hi]
  rw [le16,hfirst,hsecond]

theorem Read.u8_ok_iff {r r' : Reader} {b : UInt8} :
    Reader.u8 r = .ok (b,r') ↔ r.rest = b::r'.rest ∧ r'.pos = r.pos + 1 := by
  obtain ⟨rest,pos⟩ := r
  obtain ⟨rest',pos'⟩ := r'
  cases rest with
  | nil => simp [Reader.u8]
  | cons c rest => simp [Reader.u8,and_assoc,eq_comm]

theorem Read.u16Le_ok_iff {r r' : Reader} {v : UInt16} :
    Reader.u16Le r = .ok (v,r') ↔ r.rest = le16 v ++ r'.rest ∧ r'.pos = r.pos + 2 := by
  obtain ⟨rest,pos⟩ := r
  obtain ⟨rest',pos'⟩ := r'
  match rest with
  | [] => simp [Reader.u16Le,le16]
  | [_] => simp [Reader.u16Le,le16]
  | lo::hi::rest =>
    simp only [Reader.u16Le,Except.ok.injEq,Prod.mk.injEq,Reader.mk.injEq]
    constructor
    · rintro ⟨rfl,rfl,rfl⟩
      simp
    · rintro ⟨hrest,hpos⟩
      simp only [le16,List.cons_append,List.nil_append,List.cons.injEq] at hrest
      obtain ⟨hlo,hhi,htail⟩ := hrest
      refine ⟨?_,htail,hpos.symm⟩
      rw [hlo,hhi,Reader.ofLe16_bytes]

/-- Little-endian bytes of a 64-bit value. -/
def le64 (v : UInt64) : Bytes :=
  [v.toUInt8,(v >>> 8).toUInt8,(v >>> 16).toUInt8,(v >>> 24).toUInt8,
    (v >>> 32).toUInt8,(v >>> 40).toUInt8,(v >>> 48).toUInt8,(v >>> 56).toUInt8]

end Rszigbee
