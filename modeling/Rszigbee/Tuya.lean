import Rszigbee.Codec
import Rszigbee.Utf8

/-! Tuya's datapoint protocol. A payload is a little-endian sequence number and datapoints,
each a number, a type, a big-endian length and as many bytes. -/
namespace Rszigbee
namespace Tuya

/-- How a datapoint's bytes are to be read. -/
inductive DataType
  | raw | bool | number | str | enum | bitmap
  | unknown (id : UInt8)
  deriving DecidableEq

namespace DataType

def fromU8 (value : UInt8) : DataType :=
  if value = 0 then raw
  else if value = 1 then bool
  else if value = 2 then number
  else if value = 3 then str
  else if value = 4 then enum
  else if value = 5 then bitmap
  else unknown value

def toU8 : DataType → UInt8
  | raw => 0
  | bool => 1
  | number => 2
  | str => 3
  | enum => 4
  | bitmap => 5
  | unknown other => other

end DataType

/-- A datapoint's value; a number is one before any scaling. -/
inductive Value
  | raw (bytes : Bytes)
  | bool (on : Bool)
  | number (n : Int32)
  | str (s : String)
  | enum (v : UInt8)
  | bitmap (bits : UInt32)
  deriving DecidableEq

structure Datapoint where
  dp : UInt8
  value : Value
  deriving DecidableEq

/-- Why a payload could not be read. -/
inductive TuyaError
  | truncated
  | badLength (dp : UInt8) (claimed available : ℕ)
  | wrongLength (dp : UInt8) (ty : DataType) (length : ℕ)
  | codec (e : CodecError)
  deriving DecidableEq

/-- Big-endian bytes of a 16-bit value. -/
def be16 (v : UInt16) : Bytes := (le16 v).reverse

/-- Big-endian bytes of a 32-bit value. -/
def be32 (v : UInt32) : Bytes := (LittleEndian.bytes 4 v.toNat).reverse

/-- The 32-bit value of big-endian bytes. -/
def ofBe (b : Bytes) : UInt32 := .ofNat (LittleEndian.value b.reverse)

@[simp] theorem ofBe_be32 (v : UInt32) : ofBe (be32 v) = v := by
  rw [ofBe,be32,List.reverse_reverse,LittleEndian.value_bytes_of_lt v.toNat_lt,UInt32.ofNat_toNat]

@[simp] theorem length_be32 (v : UInt32) : (be32 v).length = 4 := by
  rw [be32,List.length_reverse,LittleEndian.length_bytes]

def u16Be : Read UInt16 := fun r =>
  match r.rest with
  | hi::lo::rest => .ok (Reader.ofLe16 lo hi,⟨rest,r.pos + 2⟩)
  | _ => .error (.eof 2 r.pos r.remaining)

section Reading

/-- One datapoint's bytes; a type that is not modelled keeps them. -/
def readValue (dp : UInt8) (ty : DataType) (bytes : Bytes) : Except TuyaError Value :=
  let wrong := Except.error (.wrongLength dp ty bytes.length)
  match ty with
  | .raw | .unknown _ => .ok (.raw bytes)
  | .bool =>
    match bytes with
    | [b] => .ok (.bool (b ≠ 0))
    | _ => wrong
  -- Signed: below zero, read without a sign, becomes about four billion.
  | .number => if bytes.length = 4 then .ok (.number (ofBe bytes).toInt32) else wrong
  | .str => .ok (.str (Utf8.fromUtf8Lossy bytes))
  | .enum =>
    match bytes with
    | [b] => .ok (.enum b)
    | _ => wrong
  | .bitmap =>
    if bytes.length = 1 ∨ bytes.length = 2 ∨ bytes.length = 4 then .ok (.bitmap (ofBe bytes))
    else wrong

/-- A read, with its error as one of the payload. -/
def lift {α : Type} (read : Read α) (r : Reader) : Except TuyaError (α × Reader) :=
  (read r).mapError .codec

/-- One datapoint of a payload. -/
def point (r : Reader) : Except TuyaError (Datapoint × Reader) := do
  let (dp,r) ← lift Reader.u8 r
  let (tag,r) ← lift Reader.u8 r
  let (length,r) ← lift u16Be r
  if r.remaining < length.toNat then throw (.badLength dp length.toNat r.remaining)
  let (bytes,r) ← lift (Reader.take length.toNat) r
  let value ← readValue dp (.fromU8 tag) bytes
  pure (⟨dp,value⟩,r)

/-- Datapoints while there is room for the start of one; fewer bytes are left alone. Each takes
four bytes at least, so as many rounds as there are bytes are enough. -/
def points : ℕ → Reader → Except TuyaError (List Datapoint)
  | 0, _ => pure []
  | n+1, r =>
    if r.remaining < 4 then pure []
    else do
      let (p,r) ← point r
      let rest ← points n r
      pure (p::rest)

def decode (payload : Bytes) : Except TuyaError (UInt16 × List Datapoint) := do
  let (seq,r) ← lift Reader.u16Le (.new payload)
  let datapoints ← points r.remaining r
  pure (seq,datapoints)

end Reading

section Writing

/-- The type and the bytes of a value; a bitmap always takes four. -/
def writeValue : Value → DataType × Bytes
  | .raw bytes => (.raw,bytes)
  | .bool on => (.bool,[if on then 1 else 0])
  | .number n => (.number,be32 n.toUInt32)
  | .str s => (.str,s.toUTF8.toList)
  | .enum v => (.enum,[v])
  | .bitmap bits => (.bitmap,be32 bits)

def record (p : Datapoint) : Bytes :=
  let (ty,bytes) := writeValue p.value
  [p.dp,ty.toU8] ++ be16 (.ofNat (min bytes.length 65535)) ++ bytes

def encode (seq : UInt16) (datapoints : List Datapoint) : Bytes :=
  le16 seq ++ datapoints.flatMap record

end Writing

section RoundTrip

/-- The length fits its field. -/
def Value.Fits (v : Value) : Prop := (writeValue v).2.length ≤ 65535

instance (v : Value) : Decidable v.Fits := by
  unfold Value.Fits
  infer_instance

theorem readValue_writeValue (dp : UInt8) (v : Value) :
    readValue dp (.fromU8 (writeValue v).1.toU8) (writeValue v).2 = .ok v := by
  cases v with
  | raw bytes => rfl
  | bool on => cases on <;> rfl
  | number n =>
    have hread : readValue dp .number (be32 n.toUInt32) =
        .ok (.number (ofBe (be32 n.toUInt32)).toInt32) := by
      simp [readValue]
    rwa [ofBe_be32,Int32.toInt32_toUInt32] at hread
  | str s =>
    have hread : readValue dp .str s.toUTF8.toList =
        .ok (.str (Utf8.fromUtf8Lossy s.toUTF8.toList)) := rfl
    rwa [Utf8.fromUtf8Lossy_toUTF8] at hread
  | enum v => rfl
  | bitmap bits =>
    have hread : readValue dp .bitmap (be32 bits) = .ok (.bitmap (ofBe (be32 bits))) := by
      simp [readValue]
    rwa [ofBe_be32] at hread

theorem u16Be_be16 (v : UInt16) (rest : Bytes) (pos : ℕ) :
    u16Be ⟨be16 v ++ rest,pos⟩ = .ok (v,⟨rest,pos + 2⟩) := by
  have hread : u16Be ⟨be16 v ++ rest,pos⟩ =
      .ok (Reader.ofLe16 v.toUInt8 (v >>> 8).toUInt8,⟨rest,pos + 2⟩) := rfl
  rwa [Reader.ofLe16_bytes] at hread

/-- A record is read as its datapoint, whatever follows. -/
theorem point_record {p : Datapoint} (hfits : p.value.Fits) (rest : Bytes) (pos : ℕ) :
    point ⟨record p ++ rest,pos⟩ = .ok (p,⟨rest,pos + (record p).length⟩) := by
  obtain ⟨dp,value⟩ := p
  have hvalue := readValue_writeValue dp value
  have hlength : (UInt16.ofNat (min (writeValue value).2.length 65535)).toNat =
      (writeValue value).2.length := by
    rw [min_eq_left hfits]
    exact UInt16.toNat_ofNat_of_lt' (Nat.lt_succ_of_le hfits)
  have hrecord : record ⟨dp,value⟩ = dp::(writeValue value).1.toU8::
      (be16 (.ofNat (min (writeValue value).2.length 65535)) ++ (writeValue value).2) := rfl
  generalize (writeValue value).2 = bytes at hvalue hlength hrecord
  generalize (writeValue value).1.toU8 = tag at hvalue hrecord
  generalize UInt16.ofNat (min bytes.length 65535) = length at hlength hrecord
  have hleading := u16Be_be16 length (bytes ++ rest) (pos + 1 + 1)
  have hroom : ¬(bytes ++ rest).length < length.toNat := by
    rw [hlength,List.length_append]
    omega
  have htake := Reader.take_append hlength.symm rest (pos + 1 + 1 + 2)
  have hsize : pos + 1 + 1 + 2 + length.toNat = pos + (record ⟨dp,value⟩).length := by
    simp only [hlength,hrecord,be16,le16,List.length_cons,List.length_append,List.length_reverse,
      List.length_nil]
    omega
  have hbytes : record ⟨dp,value⟩ ++ rest = dp::tag::(be16 length ++ (bytes ++ rest)) := by
    rw [hrecord]
    simp
  rw [← hsize,hbytes]
  simp only [point,lift,Reader.u8,bind,Except.bind,Except.mapError,hleading,Reader.remaining,
    if_neg hroom,htake,hvalue,pure,Except.pure]

/-- Records are read back in their order, with as many rounds as the bytes allow. -/
theorem points_records {ps : List Datapoint} (hfits : ∀ p ∈ ps, p.value.Fits) (pos n : ℕ)
    (hn : (ps.flatMap record).length ≤ n) : points n ⟨ps.flatMap record,pos⟩ = .ok ps := by
  induction ps generalizing pos n with
  | nil =>
    cases n with
    | zero => rfl
    | succ n => rfl
  | cons p ps ih =>
    have hlong : 4 ≤ (record p).length := by
      rw [record]
      simp [be16,le16]
    rw [List.flatMap_cons,List.length_append] at hn
    cases n with
    | zero => omega
    | succ n =>
      have hroom : ¬(Reader.mk (record p ++ ps.flatMap record) pos).remaining < 4 := by
        simp only [Reader.remaining,List.length_append]
        omega
      have hhead := point_record (hfits p List.mem_cons_self) (ps.flatMap record) pos
      have htail := ih (fun q hq => hfits q (List.mem_cons_of_mem _ hq))
        (pos + (record p).length) n (by omega)
      rw [List.flatMap_cons,points,if_neg hroom,hhead]
      simp only [bind,Except.bind,htail,pure,Except.pure]

/-- A payload gives its sequence number and its datapoints, in their order. -/
theorem decode_encode_datapoints (seq : UInt16) (datapoints : List Datapoint)
    (hfits : ∀ p ∈ datapoints, p.value.Fits) :
    decode (encode seq datapoints) = .ok (seq,datapoints) := by
  have hseq : Reader.u16Le (.new (encode seq datapoints)) =
      .ok (seq,⟨datapoints.flatMap record,2⟩) := by
    rw [Read.u16Le_ok_iff]
    exact ⟨rfl,rfl⟩
  have hpoints := points_records hfits 2 _ le_rfl
  simp only [decode,lift,hseq,Except.mapError,bind,Except.bind,Reader.remaining,hpoints,pure,
    Except.pure]

theorem decode_encode_switch :
    decode (encode 0x0102 [⟨1,.bool true⟩,⟨2,.number (-4200)⟩,⟨9,.bitmap 0x81⟩]) =
      .ok (0x0102,[⟨1,.bool true⟩,⟨2,.number (-4200)⟩,⟨9,.bitmap 0x81⟩]) :=
  decode_encode_datapoints _ _ (by decide)

/-- A number of three bytes is refused, and a stray byte at the end is not. -/
example : decode [0x00,0x00,0x07,0x02,0x00,0x03,0x01,0x02,0x03] =
      .error (.wrongLength 7 .number 3) ∧
    decode [0x00,0x00,0x01,0x01,0x00,0x01,0x01,0xff] = .ok (0,[⟨1,.bool true⟩]) := by
  decide

end RoundTrip
end Tuya
end Rszigbee
