import Rszigbee.Messages

/-! Decoding and encoding values by their wire type. -/
namespace Rszigbee

namespace ZclType

/-- A wire discriminator's type. -/
def fromU8 (id : UInt8) : ZclType :=
  if id = 0x00 then noData
  else if 0x08 ≤ id ∧ id ≤ 0x0f then data (id - 0x08 + 1)
  else if id = 0x10 then bool
  else if 0x18 ≤ id ∧ id ≤ 0x1f then bitmap (id - 0x18 + 1)
  else if 0x20 ≤ id ∧ id ≤ 0x27 then uint (id - 0x20 + 1)
  else if 0x28 ≤ id ∧ id ≤ 0x2f then int (id - 0x28 + 1)
  else if id = 0x30 then enum8
  else if id = 0x31 then enum16
  else if id = 0x39 then single
  else if id = 0x41 then octStr
  else if id = 0x42 then charStr
  else if 0xe0 ≤ id ∧ id ≤ 0xe2 then time (id - 0xe0)
  else if id = 0xe8 then clusterId
  else if id = 0xe9 then attrId
  else if id = 0xf0 then ieee
  else if id = 0xf1 then key128
  else if id = 0xff then unk
  else unknown id

/-- The wire discriminator. A width no discriminator has may overflow here: the source
panics there, and this wraps. -/
def toU8 : ZclType → UInt8
  | noData => 0x00
  | data n => 0x08 + n - 1
  | bool => 0x10
  | bitmap n => 0x18 + n - 1
  | uint n => 0x20 + n - 1
  | int n => 0x28 + n - 1
  | enum8 => 0x30
  | enum16 => 0x31
  | single => 0x39
  | octStr => 0x41
  | charStr => 0x42
  | time n => 0xe0 + n
  | clusterId => 0xe8
  | attrId => 0xe9
  | ieee => 0xf0
  | key128 => 0xf1
  | unk => 0xff
  | unknown o => o

theorem toU8_fromU8 (id : UInt8) : (fromU8 id).toU8 = id := by
  apply forall_byte (P := fun id => (fromU8 id).toU8 = id)
  decide +kernel

/-- A type some tag denotes. -/
def Canonical (ty : ZclType) : Prop := fromU8 ty.toU8 = ty

theorem canonical_iff {ty : ZclType} : ty.Canonical ↔ ∃ tag, fromU8 tag = ty := by
  constructor
  · intro h
    exact ⟨ty.toU8,h⟩
  · rintro ⟨tag,rfl⟩
    rw [Canonical,toU8_fromU8]

/-- A width of its own is one to eight bytes. -/
def Sized : ZclType → Bool
  | data n | bitmap n | uint n | int n => 1 ≤ n ∧ n ≤ 8
  | _ => true

theorem sized_fromU8 (id : UInt8) : (fromU8 id).Sized := by
  apply forall_byte (P := fun id => (fromU8 id).Sized)
  decide +kernel

theorem Canonical.width {ty : ZclType} {n : UInt8} (h : ty.Canonical)
    (hty : ty = .data n ∨ ty = .bitmap n ∨ ty = .uint n ∨ ty = .int n) :
    1 ≤ n.toNat ∧ n.toNat ≤ 8 := by
  have hsized := sized_fromU8 ty.toU8
  rw [h] at hsized
  rcases hty with rfl | rfl | rfl | rfl
  all_goals simpa [Sized,UInt8.le_iff_toNat_le] using hsized

theorem Canonical.int_le {n : UInt8} (h : Canonical (.int n)) : n.toNat ≤ 8 :=
  (h.width (.inr (.inr (.inr rfl)))).2

/-- The size of a value, or none when it varies. -/
def fixedSize : ZclType → Option ℕ
  | noData | unk => some 0
  | bool | enum8 => some 1
  | enum16 | clusterId | attrId => some 2
  | single => some 4
  | data n | bitmap n | uint n | int n => some n.toNat
  | time n => if n ≤ 2 then some 4 else none
  | ieee => some 8
  | key128 => some 16
  | octStr | charStr | unknown _ => none

end ZclType

namespace ZclValue

def asUint : ZclValue → Option UInt64
  | uint v | bitmap v => some v
  | enum v => some v.toUInt64
  | bool b => some (if b then 1 else 0)
  | _ => Option.none

def asInt : ZclValue → Option Int64
  | int v => some v
  | uint v => some v.toInt64
  | _ => Option.none

def isInvalid : ZclValue → Bool
  | invalid _ => true
  | _ => false

end ZclValue

section Numbers

/-- An integer of some bytes; those past the eighth do not count. -/
def readUint (n : UInt8) : Read UInt64 := do
  let b ← Reader.take n.toNat
  pure (.ofNat (LittleEndian.value (b.take 8)))

def writeUint (v : UInt64) (n : UInt8) : Bytes := LittleEndian.bytes n.toNat v.toNat

def isInvalidUint (raw : UInt64) (n : UInt8) : Bool :=
  (n = 1 && raw = 0xff) || (n = 2 && raw = 0xffff) || (n = 3 && raw = 0x00ffffff) ||
    (n = 4 && raw = 0xffffffff)

def isInvalidInt (raw : UInt64) (n : UInt8) : Bool :=
  (n = 1 && raw = 0x80) || (n = 2 && raw = 0x8000) || (n = 4 && raw = 0x80000000)

def signExtend (raw : UInt64) (n : UInt8) : Int64 :=
  let bits := n.toNat * 8
  if bits = 0 ∨ 64 ≤ bits then raw.toInt64
  else
    let shift := 64 - bits
    (raw <<< UInt64.ofNat shift).toInt64 >>> Int64.ofNat shift

/-- `f32::is_nan`, on the bits. -/
def isNan (bits : UInt32) : Bool :=
  bits &&& 0x7f800000 = 0x7f800000 && bits &&& 0x007fffff ≠ 0

/-- `f32::NAN`. -/
def nanBits : UInt32 := 0x7fc00000

end Numbers

/-- `char::is_control`. -/
def isControl (c : Char) : Bool := c.toNat < 0x20 || (0x7f ≤ c.toNat && c.toNat ≤ 0x9f)

/-- Strips control characters from what a device supplied. -/
def sanitise (s : String) : String := String.ofList (s.toList.filter fun c => !isControl c)

/-- One value of the type. -/
def decodeValue (ty : ZclType) : Read ZclValue :=
  match ty with
  | .noData | .unk => pure .none
  | .bool => do
    let b ← Reader.u8
    pure (if b = 0x00 then .bool false else if b = 0xff then .invalid ty else .bool true)
  | .uint n => do
    let raw ← readUint n
    pure (if isInvalidUint raw n then .invalid ty else .uint raw)
  -- Bitmaps have no invalid encoding: all bits set is a legitimate value.
  | .bitmap n => do
    let raw ← readUint n
    pure (.bitmap raw)
  | .int n => do
    let raw ← readUint n
    pure (if isInvalidInt raw n then .invalid ty else .int (signExtend raw n))
  | .enum8 => do
    let v ← Reader.u8
    pure (if v = 0xff then .invalid ty else .enum v.toUInt16)
  | .enum16 => do
    let v ← Reader.u16Le
    pure (if v = 0xffff then .invalid ty else .enum v)
  | .single => do
    let bits ← Reader.u32Le
    pure (if isNan bits then .invalid ty else .single bits)
  | .octStr => do
    let b ← Reader.octstr
    pure (match b with
      | none => .invalid ty
      | some b => .octets b)
  | .charStr => do
    let s ← Reader.string
    pure (match s with
      | none => .invalid ty
      | some s => .str (sanitise s))
  | .clusterId | .attrId => do
    let v ← Reader.u16Le
    pure (.uint v.toUInt64)
  | .time _ => do
    let v ← Reader.u32Le
    pure (.uint v.toUInt64)
  | .ieee => do
    let a ← Reader.ieeeLe
    pure (.ieee a)
  | .key128 => do
    let b ← Reader.take 16
    pure (.key128 (.ofFn fun i => (b[i.val]?).getD 0))
  | .data n => do
    let b ← Reader.take n.toNat
    pure (.raw ty.toU8 b)
  -- An unmodelled type has unknown length, so what is left is handed over.
  | .unknown o => do
    let b ← Reader.takeRest
    pure (.raw o b)

namespace ZclType

/-- The values a type carries, "no reading" apart. -/
def Carries : ZclType → ZclValue → Prop
  | .noData, v | .unk, v => v = .none
  | .bool, v => ∃ b, v = .bool b
  | .uint n, v => ∃ x, isInvalidUint x n = false ∧ v = .uint x
  | .bitmap n, v => ∃ x, x.toNat < 256 ^ n.toNat ∧ v = .bitmap x
  | .int n, v => ∃ raw, isInvalidInt raw n = false ∧ v = .int (signExtend raw n)
  | .enum8, v => ∃ x : UInt8, x ≠ 0xff ∧ v = .enum x.toUInt16
  | .enum16, v => ∃ x, x ≠ 0xffff ∧ v = .enum x
  | .single, v => ∃ bits, isNan bits = false ∧ v = .single bits
  | .octStr, v => ∃ b, v = .octets b
  | .charStr, v => ∃ s, v = .str (sanitise s)
  | .clusterId, v | .attrId, v => ∃ x : UInt16, v = .uint x.toUInt64
  | .time _, v => ∃ x : UInt32, v = .uint x.toUInt64
  | .ieee, v => ∃ a, v = .ieee a
  | .key128, v => ∃ k, v = .key128 k
  | .data n, v => ∃ b : Bytes, b.length = n.toNat ∧ v = .raw (toU8 (.data n)) b
  | .unknown o, v => ∃ b, v = .raw o b

end ZclType

theorem readUint_lt {n : UInt8} {r r' : Reader} {x : UInt64} (h : readUint n r = .ok (x,r')) :
    x.toNat < 256 ^ n.toNat := by
  rw [readUint,Read.bind_ok_iff] at h
  obtain ⟨b,r₁,hb,h⟩ := h
  rw [Read.pure_ok_iff] at h
  rw [Reader.take] at hb
  split at hb
  · rename_i hle
    cases hb
    cases h
    have hval := LittleEndian.value_lt ((r.rest.take n.toNat).take 8)
    have hlen : ((r.rest.take n.toNat).take 8).length ≤ n.toNat := by simp
    have hmod := UInt64.toNat_ofNat' (n := LittleEndian.value ((r.rest.take n.toNat).take 8))
    have hpow : 256 ^ ((r.rest.take n.toNat).take 8).length ≤ 256 ^ n.toNat :=
      Nat.pow_le_pow_right (by decide) hlen
    have hle := Nat.mod_le (LittleEndian.value ((r.rest.take n.toNat).take 8)) (2 ^ 64)
    omega
  · cases hb

/-- What is read and then turned into a value without a further read. -/
theorem Read.map_ok {α : Type} {m : Read α} {f : α → ZclValue} {r r' : Reader} {v : ZclValue}
    (h : (m >>= fun a => pure (f a)) r = .ok (v,r')) : ∃ a, m r = .ok (a,r') ∧ v = f a := by
  obtain ⟨a,r₁,ha,h⟩ := (Read.bind_ok_iff ..).mp h
  rw [Read.pure_ok_iff] at h
  cases h
  exact ⟨a,ha,rfl⟩

/-- A value the decoder can yield for a type. -/
def ZclType.Yields (ty : ZclType) (v : ZclValue) : Prop :=
  ∃ r r' : Reader, decodeValue ty r = .ok (v,r')

theorem decodeValue_carries {ty : ZclType} {r r' : Reader} {v : ZclValue}
    (h : decodeValue ty r = .ok (v,r')) : v = .invalid ty ∨ ty.Carries v := by
  cases ty with
  | noData | unk =>
    cases h
    exact .inr rfl
  | bool | octStr | charStr =>
    obtain ⟨b,-,rfl⟩ := Read.map_ok h
    grind [ZclType.Carries]
  | uint n | int n =>
    obtain ⟨raw,-,rfl⟩ := Read.map_ok h
    grind [ZclType.Carries]
  | bitmap n =>
    obtain ⟨raw,hraw,rfl⟩ := Read.map_ok h
    exact .inr ⟨raw,readUint_lt hraw,rfl⟩
  | enum8 | enum16 | single =>
    obtain ⟨b,-,rfl⟩ := Read.map_ok h
    grind [ZclType.Carries]
  | clusterId | attrId | time | ieee | key128 | unknown =>
    obtain ⟨x,-,rfl⟩ := Read.map_ok h
    exact .inr ⟨_,rfl⟩
  | data n =>
    obtain ⟨b,hb,rfl⟩ := Read.map_ok h
    refine .inr ⟨b,?_,rfl⟩
    rw [Reader.take] at hb
    split at hb
    · cases hb
      simp_all [Reader.remaining]
    · cases hb
/-- A type's "no reading", written. -/
def writeInvalid : ZclType → Bytes
  | .int n => (List.range n.toNat).map fun i => if i + 1 = n.toNat then 0x80 else 0x00
  | .single => LittleEndian.bytes 4 nanBits.toNat
  | .octStr | .charStr => [0xff]
  | ty => List.replicate (ty.fixedSize.getD 1) 0xff

/-- One value as the type; a mismatch is refused. -/
def encodeValue (v : ZclValue) (ty : ZclType) : Except CodecError Bytes :=
  match v,ty with
  | .none, _ => .ok []
  | .bool b, _ => .ok [if b then 1 else 0]
  | .uint x, .uint n | .uint x, .bitmap n | .bitmap x, .uint n | .bitmap x, .bitmap n =>
    .ok (writeUint x n)
  | .int x, .int n => .ok (writeUint x.toUInt64 n)
  | .enum x, .enum8 => .ok [if x.toNat < 256 then .ofNat x.toNat else 0xfe]
  | .enum x, .enum16 => .ok (le16 x)
  | .single bits, _ => .ok (LittleEndian.bytes 4 bits.toNat)
  | .octets b, _ => writeOctstr b
  | .str s, _ => writeOctstr s.toUTF8.toList
  | .ieee a, _ => .ok (le64 a.raw)
  | .key128 k, _ => .ok k.toList
  | .raw _ b, _ => .ok b
  | .invalid t, _ => .ok (writeInvalid t)
  | _, _ => .error (.outputFull 0)

/-- A sub-zero temperature, and a string with a stray NUL. -/
example : decodeValue (.int 2) (.new [0x18,0xfc]) = .ok (.int (-1000),⟨[],2⟩) ∧
    decodeValue .charStr (.new [0x03,0x4c,0x00,0x55]) = .ok (.str "LU",⟨[],4⟩) := by
  decide

end Rszigbee
