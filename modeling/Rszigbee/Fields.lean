import Rszigbee.Grammar
import Rszigbee.Tables
import Rszigbee.Widths

/-! Records of fields: written one after the other, and read back one after the other. What is read
is what was written and nothing else, and a read that fails tells where the bytes ran out. -/
namespace Rszigbee

namespace Reader

def i8 : Read Int8 := do
  let b ← u8
  pure b.toInt8

/-- A little-endian 24-bit value, widened. -/
def u24Le : Read UInt32 := do
  let b ← take 3
  pure (.ofNat (LittleEndian.value b))

def u32Be : Read UInt32 := do
  let b ← take 4
  pure (Tuya.ofBe b)

end Reader

/-- A growable byte writer. -/
structure Writer where
  buf : Bytes

namespace Writer

variable (w : Writer)

def new : Writer := ⟨[]⟩

def bytes (v : Bytes) : Writer := ⟨w.buf ++ v⟩
def u8 (v : UInt8) : Writer := w.bytes [v]
def i8 (v : Int8) : Writer := w.bytes [v.toUInt8]
def u16Le (v : UInt16) : Writer := w.bytes (le16 v)
def u16Be (v : UInt16) : Writer := w.bytes (Tuya.be16 v)
/-- Only the low three bytes are written. -/
def u24Le (v : UInt32) : Writer := w.bytes ((LittleEndian.bytes 4 v.toNat).take 3)
def u32Le (v : UInt32) : Writer := w.bytes (LittleEndian.bytes 4 v.toNat)
def u32Be (v : UInt32) : Writer := w.bytes (Tuya.be32 v)
def u64Le (v : UInt64) : Writer := w.bytes (le64 v)
def ieeeLe (v : Ieee) : Writer := w.bytes (le64 v.raw)

def octstr : Option Bytes → Except CodecError Writer
  | none => .ok (w.bytes [0xff])
  | some raw => (writeOctstr raw).map w.bytes

end Writer

/-- What a computation reads and nothing else: the bytes a value is written as, wherever they are
and whatever follows them. -/
def ReadsExactly {α : Type} (m : Read α) (encode : α → Bytes) (ok : α → Prop) : Prop :=
  ∀ r a r', m r = .ok (a,r') ↔
    ok a ∧ r.rest = encode a ++ r'.rest ∧ r'.pos = r.pos + (encode a).length

/-- The error tells what was wanted, where, and how much there was. -/
def CodecError.Tells (r : Reader) : CodecError → Prop
  | .eof wanted offset available =>
    r.pos ≤ offset ∧ offset + available = r.pos + r.remaining ∧ available < wanted
  | .badLength claimed available offset =>
    r.pos ≤ offset ∧ offset + 1 + available = r.pos + r.remaining ∧ available < claimed
  | _ => False

/-- It fails for want of bytes only. -/
def WantsBytes {α : Type} (m : Read α) : Prop := ∀ r e, m r = .error e → e.Tells r

section Library

variable {α β : Type} {m : Read α} {encode : α → Bytes} {ok : α → Prop}

/-- Values that stand for each other are written as the same bytes. -/
theorem ReadsExactly.map (h : ReadsExactly m encode ok) {f : α → β} {g : β → α} {ok' : β → Prop}
    (hto : ∀ a, ok a → g (f a) = a ∧ ok' (f a)) (hof : ∀ b, ok' b → f (g b) = b ∧ ok (g b)) :
    ReadsExactly (m >>= fun a => pure (f a)) (fun b => encode (g b)) ok' := by
  intro r b r'
  rw [Read.bind_ok_iff]
  constructor
  · rintro ⟨a,r₁,ha,hb⟩
    obtain ⟨rfl,rfl⟩ := Prod.mk.inj ((Read.pure_ok_iff _ _ _).mp hb)
    obtain ⟨hok,hbytes,hpos⟩ := (h r a r').mp ha
    obtain ⟨hback,hok'⟩ := hto a hok
    dsimp only
    rw [hback]
    exact ⟨hok',hbytes,hpos⟩
  · rintro ⟨hok',hbytes,hpos⟩
    obtain ⟨hback,hok⟩ := hof b hok'
    refine ⟨g b,r',(h r (g b) r').mpr ⟨hok,hbytes,hpos⟩,?_⟩
    rw [Read.pure_ok_iff,hback]

theorem WantsBytes.map (h : WantsBytes m) (f : α → β) :
    WantsBytes (m >>= fun a => pure (f a)) := by
  intro r e he
  rcases (bind_error_iff _ _ _ _).mp he with he | ⟨a,r',-,he⟩
  · exact h r e he
  · cases he

/-- What was read is behind, and no more than that. -/
theorem ReadsExactly.forward (h : ReadsExactly m encode ok) {r r' : Reader} {a : α}
    (ha : m r = .ok (a,r')) : r.pos ≤ r'.pos ∧ r'.pos + r'.remaining = r.pos + r.remaining := by
  obtain ⟨-,hbytes,hpos⟩ := (h r a r').mp ha
  rw [Reader.remaining,Reader.remaining,hbytes,hpos,List.length_append]
  omega

theorem CodecError.Tells.earlier {r r' : Reader} {e : CodecError} (h : e.Tells r')
    (hpos : r.pos ≤ r'.pos) (htotal : r'.pos + r'.remaining = r.pos + r.remaining) :
    e.Tells r := by
  cases e with
  | eof wanted offset available => exact ⟨hpos.trans h.1,h.2.1.trans htotal,h.2.2⟩
  | badLength claimed available offset => exact ⟨hpos.trans h.1,h.2.1.trans htotal,h.2.2⟩
  | badUtf8 offset => cases h
  | outputFull wanted => cases h

theorem WantsBytes.bind {f : α → Read β} (hm : WantsBytes m) (hexact : ReadsExactly m encode ok)
    (hf : ∀ a, WantsBytes (f a)) : WantsBytes (m >>= f) := by
  intro r e he
  rcases (bind_error_iff _ _ _ _).mp he with he | ⟨a,r',ha,he⟩
  · exact hm r e he
  · obtain ⟨hpos,htotal⟩ := hexact.forward ha
    exact (hf a r' e he).earlier hpos htotal

/-- One after the other. -/
theorem ReadsExactly.cons {n : Read (List α)} {all : List α → Prop}
    (hm : ReadsExactly m encode ok) (hn : ReadsExactly n (List.flatMap encode) all) :
    ReadsExactly (m >>= fun a => n >>= fun as => pure (a::as)) (List.flatMap encode) fun as =>
      ∃ a rest, as = a::rest ∧ ok a ∧ all rest := by
  intro r as r'
  simp only [Read.bind_ok_iff,Read.pure_ok_iff,Prod.mk.injEq]
  constructor
  · rintro ⟨a,r₁,ha,rest,r₂,hrest,rfl,rfl⟩
    obtain ⟨hok,hbytes,hpos⟩ := (hm r a r₁).mp ha
    obtain ⟨hall,hbytes',hpos'⟩ := (hn r₁ rest r').mp hrest
    refine ⟨⟨a,rest,rfl,hok,hall⟩,?_,?_⟩
    · rw [hbytes,hbytes',List.flatMap_cons,List.append_assoc]
    · rw [hpos',hpos,List.flatMap_cons,List.length_append,Nat.add_assoc]
  · rintro ⟨⟨a,rest,rfl,hok,hall⟩,hbytes,hpos⟩
    rw [List.flatMap_cons,List.append_assoc] at hbytes
    rw [List.flatMap_cons,List.length_append,← Nat.add_assoc] at hpos
    let mid : Reader := ⟨rest.flatMap encode ++ r'.rest,r.pos + (encode a).length⟩
    exact ⟨a,mid,(hm r a mid).mpr ⟨hok,hbytes,rfl⟩,rest,r',
      (hn mid rest r').mpr ⟨hall,rfl,hpos⟩,rfl,rfl⟩

end Library

section Readers

theorem exact_take (n : ℕ) : ReadsExactly (Reader.take n) id fun b => b.length = n := by
  intro r b r'
  constructor
  · intro h
    rw [Reader.take] at h
    split at h
    · rename_i hroom
      cases h
      have hlength : (r.rest.take n).length = n := by simpa [Reader.remaining] using hroom
      exact ⟨hlength,(List.take_append_drop n r.rest).symm,congrArg (r.pos + ·) hlength.symm⟩
    · cases h
  · rintro ⟨hlength,hbytes,hpos⟩
    obtain ⟨rest,pos⟩ := r
    obtain ⟨rest',pos'⟩ := r'
    dsimp only [id] at hbytes hpos
    rw [hbytes,hpos,hlength]
    exact Reader.take_append hlength rest' pos

theorem wants_take (n : ℕ) : WantsBytes (Reader.take n) := by
  intro r e he
  rw [Reader.take] at he
  split at he
  · cases he
  · rename_i hroom
    cases he
    exact ⟨le_rfl,rfl,not_le.mp hroom⟩

theorem exact_u8 : ReadsExactly Reader.u8 (fun b => [b]) fun _ => True := by
  intro r b r'
  rw [Read.u8_ok_iff]
  simp

theorem wants_u8 : WantsBytes Reader.u8 := by
  intro r e he
  obtain ⟨rest,pos⟩ := r
  cases rest with
  | nil =>
    cases he
    exact ⟨le_rfl,rfl,Nat.zero_lt_one⟩
  | cons b rest => cases he

theorem exact_u16Le : ReadsExactly Reader.u16Le le16 fun _ => True := by
  intro r v r'
  rw [Read.u16Le_ok_iff]
  simp [le16]

theorem wants_u16Le : WantsBytes Reader.u16Le := by
  intro r e he
  obtain ⟨rest,pos⟩ := r
  match rest with
  | [] =>
    cases he
    exact ⟨le_rfl,rfl,Nat.zero_lt_two⟩
  | [b] =>
    cases he
    exact ⟨le_rfl,rfl,Nat.one_lt_two⟩
  | lo::hi::rest => cases he

/-- The bytes swapped, it is the little-endian reader. -/
theorem exact_u16Be : ReadsExactly Tuya.u16Be Tuya.be16 fun _ => True := by
  intro r v r'
  obtain ⟨rest,pos⟩ := r
  obtain ⟨rest',pos'⟩ := r'
  match rest with
  | [] => simp [Tuya.u16Be,Tuya.be16,le16]
  | [_] => simp [Tuya.u16Be,Tuya.be16,le16]
  | hi::lo::rest =>
    have hswapped := exact_u16Le ⟨lo::hi::rest,pos⟩ v ⟨rest',pos'⟩
    have hsame : Tuya.u16Be ⟨hi::lo::rest,pos⟩ = Reader.u16Le ⟨lo::hi::rest,pos⟩ := rfl
    rw [hsame,hswapped]
    simp [Tuya.be16,le16]
    tauto

theorem wants_u16Be : WantsBytes Tuya.u16Be := by
  intro r e he
  obtain ⟨rest,pos⟩ := r
  match rest with
  | [] =>
    cases he
    exact ⟨le_rfl,rfl,Nat.zero_lt_two⟩
  | [b] =>
    cases he
    exact ⟨le_rfl,rfl,Nat.one_lt_two⟩
  | hi::lo::rest => cases he

/-- Numbers of so many bytes. -/
theorem exact_number {α : Type} {n : ℕ} {ofNat : ℕ → α} {toNat : α → ℕ} {ok : α → Prop}
    (hto : ∀ v < 256 ^ n, toNat (ofNat v) = v ∧ ok (ofNat v))
    (hof : ∀ a, ok a → ofNat (toNat a) = a ∧ toNat a < 256 ^ n) :
    ReadsExactly (Reader.take n >>= fun b => pure (ofNat (LittleEndian.value b)))
      (fun a => LittleEndian.bytes n (toNat a)) ok := by
  refine (exact_take n).map (fun b hb => ?_) fun a ha => ?_
  · have hsmall : LittleEndian.value b < 256 ^ n := hb ▸ LittleEndian.value_lt b
    obtain ⟨hnat,hok⟩ := hto _ hsmall
    refine ⟨?_,hok⟩
    rw [hnat,← LittleEndian.value_inj (by rw [LittleEndian.length_bytes,hb]),
      LittleEndian.value_bytes_of_lt hsmall]
  · obtain ⟨hback,hsmall⟩ := hof a ha
    rw [LittleEndian.value_bytes_of_lt hsmall]
    exact ⟨hback,LittleEndian.length_bytes n _⟩

theorem exact_i8 : ReadsExactly Reader.i8 (fun v => [v.toUInt8]) fun _ => True :=
  exact_u8.map (fun b _ => ⟨by simp,trivial⟩) fun v _ => ⟨by simp,trivial⟩

/-- A 24-bit value is one that three bytes hold. -/
theorem exact_u24Le : ReadsExactly Reader.u24Le (fun v => (LittleEndian.bytes 4 v.toNat).take 3)
    fun v => v.toNat < 2 ^ 24 := by
  show ReadsExactly Reader.u24Le (fun v => LittleEndian.bytes 3 v.toNat) _
  refine exact_number (fun v hv => ?_) fun v hv => ?_
  · have hnat : (UInt32.ofNat v).toNat = v := UInt32.toNat_ofNat_of_lt' (lt_trans hv (by decide))
    exact ⟨hnat,by rw [hnat]; exact hv⟩
  · exact ⟨UInt32.ofNat_toNat,hv⟩

theorem exact_u32Le : ReadsExactly Reader.u32Le (fun v => LittleEndian.bytes 4 v.toNat)
    fun _ => True :=
  exact_number (fun _ hv => ⟨UInt32.toNat_ofNat_of_lt' hv,trivial⟩)
    fun v _ => ⟨UInt32.ofNat_toNat,v.toNat_lt⟩

theorem exact_u32Be : ReadsExactly Reader.u32Be Tuya.be32 fun _ => True := by
  refine (exact_take 4).map (fun b hb => ⟨?_,trivial⟩) fun v _ => ?_
  · exact Tuya.be32_ofBe hb
  · exact ⟨Tuya.ofBe_be32 v,Tuya.length_be32 v⟩

theorem exact_u64Le : ReadsExactly Reader.u64Le le64 fun _ => True := by
  rw [show le64 = fun v => LittleEndian.bytes 8 v.toNat from funext le64_eq]
  exact exact_number (fun _ hv => ⟨UInt64.toNat_ofNat_of_lt' hv,trivial⟩)
    fun v _ => ⟨UInt64.ofNat_toNat,v.toNat_lt⟩

theorem exact_ieeeLe : ReadsExactly Reader.ieeeLe (fun v => le64 v.raw) fun _ => True :=
  exact_u64Le.map (fun _ _ => ⟨rfl,trivial⟩) fun _ _ => ⟨rfl,trivial⟩

/-- What a byte string, or its absence, is written as. -/
def encodeOctstr : Option Bytes → Bytes
  | none => [0xff]
  | some raw => UInt8.ofNat raw.length::raw

theorem exact_octstr : ReadsExactly Reader.octstr encodeOctstr
    fun v => ∀ raw, v = some raw → raw.length < 255 := by
  intro r v r'
  constructor
  · intro h
    obtain ⟨rest,pos⟩ := r
    cases rest with
    | nil => cases h
    | cons length rest =>
      rw [octstr_cons] at h
      split at h
      · rename_i hnone
        cases h
        exact ⟨by simp,by rw [hnone]; rfl,rfl⟩
      · rename_i hsome
        split at h
        · cases h
        · rename_i hroom
          cases h
          have hlength : (rest.take length.toNat).length = length.toNat := by
            rw [List.length_take]
            omega
          have hlen : UInt8.ofNat (rest.take length.toNat).length = length := by
            rw [hlength,UInt8.ofNat_toNat]
          have hshort : length.toNat < 255 := by
            have hlt : length.toNat < 256 := length.toNat_lt
            have hne : length.toNat ≠ 255 := fun h255 => hsome (UInt8.toNat_inj.mp h255)
            omega
          refine ⟨fun raw hraw => ?_,?_,?_⟩
          · rw [← Option.some.inj hraw,hlength]
            exact hshort
          · rw [encodeOctstr,hlen,List.cons_append,List.take_append_drop]
          · rw [encodeOctstr,List.length_cons,hlength]
            show pos + 1 + length.toNat = pos + (length.toNat + 1)
            omega
  · rintro ⟨hok,hbytes,hpos⟩
    obtain ⟨rest,pos⟩ := r
    obtain ⟨rest',pos'⟩ := r'
    dsimp only at hbytes hpos
    subst hbytes hpos
    cases v with
    | none => rfl
    | some raw =>
      have hread := octstr_writeOctstr (hok raw rfl) rest' pos
      rw [show pos + 1 + raw.length = pos + (raw.length + 1) by omega] at hread
      exact hread

theorem wants_octstr : WantsBytes Reader.octstr := by
  intro r e he
  obtain ⟨rest,pos⟩ := r
  cases rest with
  | nil =>
    cases he
    exact ⟨le_rfl,rfl,Nat.zero_lt_one⟩
  | cons length rest =>
    rw [octstr_cons] at he
    split at he
    · cases he
    · split at he
      · rename_i hshort
        cases he
        refine ⟨le_rfl,?_,hshort⟩
        show pos + 1 + rest.length = pos + (rest.length + 1)
        omega
      · cases he

end Readers

/-- A field of a record, with how it is written. -/
inductive Field
  | u8 (v : UInt8)
  | i8 (v : Int8)
  | u16Le (v : UInt16)
  | u16Be (v : UInt16)
  | u24Le (v : UInt32)
  | u32Le (v : UInt32)
  | u32Be (v : UInt32)
  | u64Le (v : UInt64)
  | ieeeLe (v : Ieee)
  | bytes (v : Bytes)
  | octstr (v : Option Bytes)
  deriving DecidableEq

/-- How a field is to be read. -/
inductive FieldKind
  | u8 | i8 | u16Le | u16Be | u24Le | u32Le | u32Be | u64Le | ieeeLe
  | bytes (n : ℕ)
  | octstr
  deriving DecidableEq

namespace Field

def kind : Field → FieldKind
  | u8 _ => .u8
  | i8 _ => .i8
  | u16Le _ => .u16Le
  | u16Be _ => .u16Be
  | u24Le _ => .u24Le
  | u32Le _ => .u32Le
  | u32Be _ => .u32Be
  | u64Le _ => .u64Le
  | ieeeLe _ => .ieeeLe
  | bytes v => .bytes v.length
  | octstr _ => .octstr

def write (w : Writer) : Field → Except CodecError Writer
  | u8 v => .ok (w.u8 v)
  | i8 v => .ok (w.i8 v)
  | u16Le v => .ok (w.u16Le v)
  | u16Be v => .ok (w.u16Be v)
  | u24Le v => .ok (w.u24Le v)
  | u32Le v => .ok (w.u32Le v)
  | u32Be v => .ok (w.u32Be v)
  | u64Le v => .ok (w.u64Le v)
  | ieeeLe v => .ok (w.ieeeLe v)
  | bytes v => .ok (w.bytes v)
  | octstr v => w.octstr v

/-- The value as its kind holds it: a 24-bit field loses the highest byte. -/
def held : Field → Field
  | u24Le v => u24Le (.ofNat (v.toNat % 2 ^ 24))
  | f => f

/-- A string of 255 bytes or more has no length prefix. -/
def tooLong : Field → Option ℕ
  | octstr (some raw) => if raw.length < 255 then none else some raw.length
  | _ => none

def encode : Field → Bytes
  | u8 v => [v]
  | i8 v => [v.toUInt8]
  | u16Le v => le16 v
  | u16Be v => Tuya.be16 v
  | u24Le v => (LittleEndian.bytes 4 v.toNat).take 3
  | u32Le v => LittleEndian.bytes 4 v.toNat
  | u32Be v => Tuya.be32 v
  | u64Le v => le64 v
  | ieeeLe v => le64 v.raw
  | bytes v => v
  | octstr v => encodeOctstr v

theorem write_eq (w : Writer) (f : Field) :
    f.write w = f.tooLong.elim (.ok (w.bytes f.encode)) fun n => .error (.outputFull n) := by
  cases f with
  | octstr v =>
    cases v with
    | none => rfl
    | some raw =>
      show (writeOctstr raw).map w.bytes = _
      rw [writeOctstr,tooLong]
      split <;> rfl
  | _ => rfl

/-- The low three bytes of a value are a value. -/
theorem toNat_low (v : UInt32) : (UInt32.ofNat (v.toNat % 2 ^ 24)).toNat = v.toNat % 2 ^ 24 :=
  UInt32.toNat_ofNat_of_lt' (lt_trans (Nat.mod_lt _ (by decide)) (by decide))

theorem encode_held (f : Field) : f.held.encode = f.encode := by
  cases f with
  | u24Le v =>
    show LittleEndian.bytes 3 (UInt32.ofNat (v.toNat % 2 ^ 24)).toNat = LittleEndian.bytes 3 v.toNat
    rw [toNat_low,← LittleEndian.value_inj (by simp),LittleEndian.value_bytes,
      LittleEndian.value_bytes]
    exact Nat.mod_mod _ _
  | _ => rfl

theorem held_held (f : Field) : f.held.held = f.held := by
  cases f with
  | u24Le v => rw [held,held,toNat_low,Nat.mod_mod]
  | _ => rfl

theorem kind_held (f : Field) : f.held.kind = f.kind := by
  cases f <;> rfl

theorem tooLong_held (f : Field) : f.held.tooLong = f.tooLong := by
  cases f <;> rfl

end Field

namespace FieldKind

def read : FieldKind → Read Field
  | u8 => do pure (.u8 (← Reader.u8))
  | i8 => do pure (.i8 (← Reader.i8))
  | u16Le => do pure (.u16Le (← Reader.u16Le))
  | u16Be => do pure (.u16Be (← Tuya.u16Be))
  | u24Le => do pure (.u24Le (← Reader.u24Le))
  | u32Le => do pure (.u32Le (← Reader.u32Le))
  | u32Be => do pure (.u32Be (← Reader.u32Be))
  | u64Le => do pure (.u64Le (← Reader.u64Le))
  | ieeeLe => do pure (.ieeeLe (← Reader.ieeeLe))
  | bytes n => do pure (.bytes (← Reader.take n))
  | octstr => do pure (.octstr (← Reader.octstr))

/-- A field of the kind, as it is read. -/
def Holds (k : FieldKind) (f : Field) : Prop := f.kind = k ∧ f.held = f ∧ f.tooLong = none

/-- A reader of values makes a reader of fields. -/
theorem exact_field {α : Type} {m : Read α} {encode : α → Bytes} {ok : α → Prop}
    (h : ReadsExactly m encode ok) {k : FieldKind} {f : α → Field}
    (hencode : ∀ a, (f a).encode = encode a) (hholds : ∀ g, k.Holds g ↔ ∃ a, f a = g ∧ ok a) :
    ReadsExactly (m >>= fun a => pure (f a)) Field.encode k.Holds := by
  intro r g r'
  rw [Read.bind_ok_iff,hholds]
  constructor
  · rintro ⟨a,r₁,ha,hb⟩
    obtain ⟨rfl,rfl⟩ := Prod.mk.inj ((Read.pure_ok_iff _ _ _).mp hb)
    obtain ⟨hok,hbytes,hpos⟩ := (h r a r').mp ha
    rw [hencode]
    exact ⟨⟨a,rfl,hok⟩,hbytes,hpos⟩
  · rintro ⟨⟨a,rfl,hok⟩,hbytes,hpos⟩
    rw [hencode] at hbytes hpos
    exact ⟨a,r',(h r a r').mpr ⟨hok,hbytes,hpos⟩,(Read.pure_ok_iff _ _ _).mpr rfl⟩

/-- What a field of a plain kind is made of. -/
def Made (g : Field) : FieldKind → Prop
  | u8 => ∃ v, .u8 v = g
  | i8 => ∃ v, .i8 v = g
  | u16Le => ∃ v, .u16Le v = g
  | u16Be => ∃ v, .u16Be v = g
  | u32Le => ∃ v, .u32Le v = g
  | u32Be => ∃ v, .u32Be v = g
  | u64Le => ∃ v, .u64Le v = g
  | ieeeLe => ∃ v, .ieeeLe v = g
  | u24Le | bytes _ | octstr => True

theorem made {g : Field} {k : FieldKind} (h : g.kind = k) : k.Made g := by
  subst h
  cases g with
  | u24Le v => trivial
  | bytes v => trivial
  | octstr v => trivial
  | _ => exact ⟨_,rfl⟩

/-- Most kinds hold whatever their constructor makes. -/
theorem holds_iff {α : Type} {k : FieldKind} {f : α → Field} (hmade : ∀ a, k.Holds (f a))
    (hall : ∀ g : Field, g.kind = k → ∃ a, f a = g) (g : Field) :
    k.Holds g ↔ ∃ a, f a = g ∧ True := by
  constructor
  · rintro ⟨hk,-,-⟩
    obtain ⟨a,ha⟩ := hall g hk
    exact ⟨a,ha,trivial⟩
  · rintro ⟨a,rfl,-⟩
    exact hmade a

theorem holds_u24Le (g : Field) :
    u24Le.Holds g ↔ ∃ v : UInt32, .u24Le v = g ∧ v.toNat < 2 ^ 24 := by
  constructor
  · rintro ⟨hk,hheld,-⟩
    cases g with
    | u24Le v =>
      refine ⟨v,rfl,?_⟩
      have hsame := congrArg UInt32.toNat (Field.u24Le.inj hheld)
      rw [Field.toNat_low] at hsame
      rw [← hsame]
      exact Nat.mod_lt _ (by decide)
    | _ => cases hk
  · rintro ⟨v,rfl,hv⟩
    refine ⟨rfl,?_,rfl⟩
    rw [Field.held,Nat.mod_eq_of_lt hv,UInt32.ofNat_toNat]

theorem holds_bytes (n : ℕ) (g : Field) :
    (bytes n).Holds g ↔ ∃ v, .bytes v = g ∧ v.length = n := by
  constructor
  · rintro ⟨hk,-,-⟩
    cases g with
    | bytes v => exact ⟨v,rfl,FieldKind.bytes.inj hk⟩
    | _ => cases hk
  · rintro ⟨v,rfl,rfl⟩
    exact ⟨rfl,rfl,rfl⟩

theorem holds_octstr (g : Field) :
    octstr.Holds g ↔ ∃ v, .octstr v = g ∧ ∀ raw, v = some raw → raw.length < 255 := by
  constructor
  · rintro ⟨hk,-,hfits⟩
    cases g with
    | octstr v =>
      refine ⟨v,rfl,?_⟩
      rintro raw rfl
      rw [Field.tooLong] at hfits
      split at hfits
      · assumption
      · cases hfits
    | _ => cases hk
  · rintro ⟨v,rfl,hv⟩
    refine ⟨rfl,rfl,?_⟩
    cases v with
    | none => rfl
    | some raw => exact if_pos (hv raw rfl)

/-- What is read of a kind is what a field of the kind is written as. -/
theorem exact_read (k : FieldKind) : ReadsExactly k.read Field.encode k.Holds := by
  have hplain {α : Type} {m : Read α} {encode : α → Bytes} {k : FieldKind} {f : α → Field}
      (h : ReadsExactly m encode fun _ => True) (hencode : ∀ a, (f a).encode = encode a)
      (hk : ∀ a, k.Holds (f a)) (hall : ∀ g : Field, g.kind = k → ∃ a, f a = g) :
      ReadsExactly (m >>= fun a => pure (f a)) Field.encode k.Holds :=
    exact_field h hencode (holds_iff hk hall)
  cases k with
  | u8 => exact hplain exact_u8 (fun _ => rfl) (fun _ => ⟨rfl,rfl,rfl⟩) fun g => made
  | i8 => exact hplain exact_i8 (fun _ => rfl) (fun _ => ⟨rfl,rfl,rfl⟩) fun g => made
  | u16Le =>
    exact hplain exact_u16Le (fun _ => rfl) (fun _ => ⟨rfl,rfl,rfl⟩) fun g => made
  | u16Be =>
    exact hplain exact_u16Be (fun _ => rfl) (fun _ => ⟨rfl,rfl,rfl⟩) fun g => made
  | u24Le => exact exact_field exact_u24Le (fun _ => rfl) holds_u24Le
  | u32Le =>
    exact hplain exact_u32Le (fun _ => rfl) (fun _ => ⟨rfl,rfl,rfl⟩) fun g => made
  | u32Be =>
    exact hplain exact_u32Be (fun _ => rfl) (fun _ => ⟨rfl,rfl,rfl⟩) fun g => made
  | u64Le =>
    exact hplain exact_u64Le (fun _ => rfl) (fun _ => ⟨rfl,rfl,rfl⟩) fun g => made
  | ieeeLe =>
    exact hplain exact_ieeeLe (fun _ => rfl) (fun _ => ⟨rfl,rfl,rfl⟩) fun g => made
  | bytes n => exact exact_field (exact_take n) (fun _ => rfl) (holds_bytes n)
  | octstr => exact exact_field exact_octstr (fun _ => rfl) holds_octstr

theorem wants_read (k : FieldKind) : WantsBytes k.read := by
  cases k with
  | u8 => exact wants_u8.map _
  | i8 => exact (wants_u8.map _).map _
  | u16Le => exact wants_u16Le.map _
  | u16Be => exact wants_u16Be.map _
  | u24Le => exact ((wants_take 3).map _).map _
  | u32Le => exact ((wants_take 4).map _).map _
  | u32Be => exact ((wants_take 4).map _).map _
  | u64Le => exact ((wants_take 8).map _).map _
  | ieeeLe => exact (((wants_take 8).map _).map _).map _
  | bytes n => exact (wants_take n).map _
  | octstr => exact wants_octstr.map _

end FieldKind

/-- Fields are written one after the other, until one cannot be. -/
def writeFields (w : Writer) (fields : List Field) : Except CodecError Writer :=
  fields.foldlM Field.write w

def readFields : List FieldKind → Read (List Field)
  | [] => pure []
  | kind::kinds => do
    let f ← kind.read
    let fields ← readFields kinds
    pure (f::fields)

section Records

theorem writeFields_eq (w : Writer) (fields : List Field) : writeFields w fields =
    (fields.findSome? Field.tooLong).elim (.ok (w.bytes (fields.flatMap Field.encode)))
      fun n => .error (.outputFull n) := by
  induction fields generalizing w with
  | nil => exact congrArg Except.ok (congrArg Writer.mk (List.append_nil _).symm)
  | cons f fields ih =>
    rw [writeFields,List.foldlM_cons,Field.write_eq,List.findSome?_cons]
    cases hf : f.tooLong with
    | some n => rfl
    | none =>
      refine (ih (w.bytes f.encode)).trans ?_
      rw [List.flatMap_cons,Writer.bytes,Writer.bytes,Writer.bytes,List.append_assoc]

theorem exact_readFields (kinds : List FieldKind) : ReadsExactly (readFields kinds)
    (List.flatMap Field.encode) fun fields => List.Forall₂ FieldKind.Holds kinds fields := by
  induction kinds with
  | nil =>
    intro r fields r'
    rw [readFields,Read.pure_ok_iff]
    constructor
    · rintro ⟨⟩
      exact ⟨.nil,rfl,rfl⟩
    · rintro ⟨hfields,hbytes,hpos⟩
      obtain rfl := List.forall₂_nil_left_iff.mp hfields
      obtain ⟨rest,pos⟩ := r
      obtain ⟨rest',pos'⟩ := r'
      obtain rfl : rest = rest' := hbytes
      obtain rfl : pos' = pos := hpos
      rfl
  | cons kind kinds ih =>
    intro r fields r'
    refine ((FieldKind.exact_read kind).cons ih r fields r').trans ?_
    dsimp only
    rw [List.forall₂_cons_left_iff]
    simp only [and_left_comm,and_comm,and_assoc]

theorem wants_readFields (kinds : List FieldKind) : WantsBytes (readFields kinds) := by
  induction kinds with
  | nil =>
    intro r e he
    cases he
  | cons kind kinds ih =>
    exact (FieldKind.wants_read kind).bind (FieldKind.exact_read kind) fun f => ih.map _

/-- What a record of some kinds is read from is exactly what it is written as, wherever it stands
and whatever follows; a read that fails tells where it ran out of bytes. -/
theorem fields_read (kinds : List FieldKind) (r : Reader) :
    (∀ fields r', readFields kinds r = .ok (fields,r') ↔
      List.Forall₂ FieldKind.Holds kinds fields ∧ ∃ w, writeFields .new fields = .ok w ∧
        r.rest = w.buf ++ r'.rest ∧ r'.pos = r.pos + w.buf.length) ∧
    ∀ e, readFields kinds r = .error e → e.Tells r := by
  refine ⟨fun fields r' => ?_,wants_readFields kinds r⟩
  rw [exact_readFields kinds r fields r']
  refine and_congr_right fun hholds => ?_
  have hfits : fields.findSome? Field.tooLong = none := by
    rw [List.findSome?_eq_none_iff]
    intro f hf
    obtain ⟨k,-,hk⟩ := exists_of_forall₂ hholds.flip hf
    exact hk.2.2
  rw [writeFields_eq,hfits]
  simp [Writer.new,Writer.bytes]

theorem holds_held {fields : List Field} (hfits : fields.findSome? Field.tooLong = none) :
    List.Forall₂ FieldKind.Holds (fields.map Field.kind) (fields.map Field.held) := by
  rw [List.findSome?_eq_none_iff] at hfits
  rw [List.forall₂_map_left_iff,List.forall₂_map_right_iff,List.forall₂_same]
  intro f hf
  exact ⟨f.kind_held,f.held_held,f.tooLong_held.trans (hfits f hf)⟩

/-- Nothing but a string of 255 bytes or more keeps a record from being written. A written record is
read back from wherever it stands, each value as its kind holds it, and no part of it that ends
before it does is read at all. -/
theorem fields_written (fields : List Field) :
    (∀ n, fields.findSome? Field.tooLong = some n →
      writeFields .new fields = .error (.outputFull n)) ∧
    (fields.findSome? Field.tooLong = none → ∃ w, writeFields .new fields = .ok w ∧ ∀ pos,
      (∀ rest, readFields (fields.map Field.kind) ⟨w.buf ++ rest,pos⟩ =
        .ok (fields.map Field.held,⟨rest,pos + w.buf.length⟩)) ∧
      ∀ p, p <+: w.buf → p ≠ w.buf → ∃ e,
        readFields (fields.map Field.kind) ⟨p,pos⟩ = .error e ∧ e.Tells ⟨p,pos⟩) := by
  refine ⟨fun n hlong => ?_,fun hfits => ?_⟩
  · rw [writeFields_eq,hlong]
    rfl
  have hencode : (fields.map Field.held).flatMap Field.encode = fields.flatMap Field.encode := by
    rw [List.flatMap_map]
    exact congrArg (fields.flatMap ·) (funext Field.encode_held)
  have hback (rest : Bytes) (pos : ℕ) :
      readFields (fields.map Field.kind) ⟨fields.flatMap Field.encode ++ rest,pos⟩ =
        .ok (fields.map Field.held,⟨rest,pos + (fields.flatMap Field.encode).length⟩) := by
    refine (exact_readFields _ _ _ _).mpr ⟨holds_held hfits,?_,?_⟩
    · rw [hencode]
    · rw [hencode]
  refine ⟨Writer.new.bytes (fields.flatMap Field.encode),?_,fun pos => ⟨fun rest => ?_,?_⟩⟩
  · rw [writeFields_eq,hfits]
    rfl
  · exact hback rest pos
  · rintro p ⟨q,hp⟩ hne
    cases hread : readFields (fields.map Field.kind) ⟨p,pos⟩ with
    | error e => exact ⟨e,rfl,wants_readFields _ _ e hread⟩
    | ok result =>
      obtain ⟨fields',r'⟩ := result
      obtain ⟨hholds,hbytes,hpos⟩ := (exact_readFields _ _ _ _).mp hread
      -- Read from the whole record, the same fields leave something over.
      have hwhole : readFields (fields.map Field.kind) ⟨p ++ q,pos⟩ =
          .ok (fields',⟨r'.rest ++ q,r'.pos⟩) := by
        refine (exact_readFields _ _ _ _).mpr ⟨hholds,?_,hpos⟩
        rw [← List.append_assoc,← hbytes]
      have hall : fields.flatMap Field.encode = p ++ q := hp.symm
      have hsame := hback [] pos
      rw [List.append_nil,hall,hwhole] at hsame
      obtain ⟨-,hrest⟩ := Prod.mk.inj (Except.ok.inj hsame)
      have hq : q = [] := (List.append_eq_nil_iff.mp (Reader.mk.inj hrest).1).2
      refine absurd ?_ hne
      rw [← hp,hq,List.append_nil]

example : writeFields .new [.u8 0x2a,.u24Le 0x01abcdef,.octstr (some [0x41,0x42])] =
    .ok ⟨[0x2a,0xef,0xcd,0xab,2,0x41,0x42]⟩ := rfl

end Records

end Rszigbee
