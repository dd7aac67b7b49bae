import Rszigbee.Tuya

/-! The grammar of datapoint payloads: what records are, and that these alone are decoded. -/
namespace Rszigbee
namespace Tuya

/-- The lengths a type's bytes may have. -/
def DataType.Legal : DataType → ℕ → Prop
  | .raw,_ | .unknown _,_ | .str,_ => True
  | .bool,n | .enum,n => n = 1
  | .number,n => n = 4
  | .bitmap,n => n = 1 ∨ n = 2 ∨ n = 4

/-- What bytes of a type stand for; numbers and wide bitmaps are big-endian. -/
inductive Denotes : DataType → Bytes → Value → Prop
  | raw (bytes : Bytes) : Denotes .raw bytes (.raw bytes)
  | unknown (id : UInt8) (bytes : Bytes) : Denotes (.unknown id) bytes (.raw bytes)
  | bool (b : UInt8) : Denotes .bool [b] (.bool (b ≠ 0))
  | number (n : Int32) : Denotes .number (be32 n.toUInt32) (.number n)
  | str (bytes : Bytes) : Denotes .str bytes (.str (Utf8.fromUtf8Lossy bytes))
  | enum (v : UInt8) : Denotes .enum [v] (.enum v)
  | flags8 (bits : UInt8) : Denotes .bitmap [bits] (.bitmap bits.toUInt32)
  | flags16 (bits : UInt16) : Denotes .bitmap (be16 bits) (.bitmap bits.toUInt32)
  | flags32 (bits : UInt32) : Denotes .bitmap (be32 bits) (.bitmap bits)

/-- A datapoint's number, a type, a big-endian length and as many bytes that stand for its value. -/
def IsRecord (p : Datapoint) (b : Bytes) : Prop :=
  ∃ (tag : UInt8) (length : UInt16) (bytes : Bytes), bytes.length = length.toNat ∧
    Denotes (.fromU8 tag) bytes p.value ∧ b = p.dp::tag::(be16 length ++ bytes)

/-- Records one after the other, of these datapoints. -/
def AreRecords (ps : List Datapoint) (b : Bytes) : Prop :=
  ∃ records, List.Forall₂ IsRecord ps records ∧ b = records.flatten

/-- Bytes that begin a record and are none, and what is said of them. -/
inductive Breaks : Bytes → TuyaError → Prop
  | claim (dp tag : UInt8) (length : UInt16) (left : Bytes) (h : left.length < length.toNat) :
    Breaks (dp::tag::(be16 length ++ left)) (.badLength dp length.toNat left.length)
  | width (dp tag : UInt8) (length : UInt16) (bytes after : Bytes)
    (h : bytes.length = length.toNat) (hwidth : ¬ (DataType.fromU8 tag).Legal bytes.length) :
    Breaks (dp::tag::(be16 length ++ (bytes ++ after)))
      (.wrongLength dp (.fromU8 tag) bytes.length)

/-- A payload that is well formed. -/
def IsPayload (seq : UInt16) (ps : List Datapoint) (payload : Bytes) : Prop :=
  ∃ b padding : Bytes, AreRecords ps b ∧ padding.length ≤ 3 ∧ payload = le16 seq ++ (b ++ padding)

/-- One that is not: too short for its sequence number, or broken after so many records. -/
def IsMalformed (payload : Bytes) (e : TuyaError) : Prop :=
  (payload.length < 2 ∧ e = .codec (.eof 2 0 payload.length)) ∨
    ∃ seq ps b after, AreRecords ps b ∧ Breaks after e ∧ payload = le16 seq ++ (b ++ after)

section Values
variable {dp : UInt8} {ty : DataType} {bytes : Bytes} {v : Value}

theorem be32_ofBe (hbytes : bytes.length = 4) : be32 (ofBe bytes) = bytes := by
  have hsmall : LittleEndian.value bytes.reverse < 2 ^ 32 := by
    have hlt := LittleEndian.value_lt bytes.reverse
    rwa [List.length_reverse,hbytes] at hlt
  have hlength : (LittleEndian.bytes 4 (LittleEndian.value bytes.reverse)).length =
      bytes.reverse.length := by
    rw [LittleEndian.length_bytes,List.length_reverse,hbytes]
  rw [be32,ofBe,UInt32.toNat_ofNat_of_lt' hsmall,List.reverse_eq_iff]
  exact (LittleEndian.value_inj hlength).mp (LittleEndian.value_bytes_of_lt hsmall)

theorem be16_ofLe16 (hi lo : UInt8) : be16 (Reader.ofLe16 lo hi) = [hi,lo] := by
  rw [be16,le16_ofLe16]
  rfl

/-- One byte, or two, read as four would be. -/
theorem ofBe_singleton (b : UInt8) : ofBe [b] = b.toUInt32 := by
  rw [← UInt32.toNat_inj,ofBe,UInt8.toNat_toUInt32]
  simp

theorem ofBe_be16 (n : UInt16) : ofBe (be16 n) = n.toUInt32 := by
  rw [← UInt32.toNat_inj,ofBe,UInt16.toNat_toUInt32,be16,List.reverse_reverse,le16]
  have hn : n.toNat < 65536 := n.toNat_lt
  simp [Nat.shiftRight_eq_div_pow]
  omega

theorem readValue_of_denotes (dp : UInt8) (h : Denotes ty bytes v) :
    readValue dp ty bytes = .ok v := by
  cases h with
  | raw => rfl
  | unknown => rfl
  | bool b => rfl
  | number n =>
    have hread : readValue dp .number (be32 n.toUInt32) =
        .ok (.number (ofBe (be32 n.toUInt32)).toInt32) := by
      simp [readValue]
    rwa [ofBe_be32,Int32.toInt32_toUInt32] at hread
  | str => rfl
  | enum v => rfl
  | flags8 bits => rw [← ofBe_singleton]; rfl
  | flags16 bits => rw [← ofBe_be16]; rfl
  | flags32 bits =>
    have hread : readValue dp .bitmap (be32 bits) = .ok (.bitmap (ofBe (be32 bits))) := by
      simp [readValue]
    rwa [ofBe_be32] at hread

/-- Bytes of a legal length stand for something. -/
theorem exists_denotes (h : ty.Legal bytes.length) : ∃ v, Denotes ty bytes v := by
  cases ty with
  | raw => exact ⟨_,.raw bytes⟩
  | unknown id => exact ⟨_,.unknown id bytes⟩
  | str => exact ⟨_,.str bytes⟩
  | bool =>
    obtain ⟨b,rfl⟩ := List.length_eq_one_iff.mp h
    exact ⟨_,.bool b⟩
  | enum =>
    obtain ⟨b,rfl⟩ := List.length_eq_one_iff.mp h
    exact ⟨_,.enum b⟩
  | number =>
    have hnumber := Denotes.number (ofBe bytes).toInt32
    rw [UInt32.toUInt32_toInt32,be32_ofBe h] at hnumber
    exact ⟨_,hnumber⟩
  | bitmap =>
    obtain h | h | h := h
    · obtain ⟨b,rfl⟩ := List.length_eq_one_iff.mp h
      exact ⟨_,.flags8 b⟩
    · obtain ⟨hi,lo,rfl⟩ := List.length_eq_two.mp h
      rw [← be16_ofLe16]
      exact ⟨_,.flags16 _⟩
    · rw [← be32_ofBe h]
      exact ⟨_,.flags32 _⟩

theorem readValue_of_not_legal (dp : UInt8) (h : ¬ ty.Legal bytes.length) :
    readValue dp ty bytes = .error (.wrongLength dp ty bytes.length) := by
  cases ty with
  | raw => exact absurd trivial h
  | unknown id => exact absurd trivial h
  | str => exact absurd trivial h
  | bool =>
    match bytes,h with
    | [],_ => rfl
    | _::_::_,_ => rfl
  | enum =>
    match bytes,h with
    | [],_ => rfl
    | _::_::_,_ => rfl
  | number => exact if_neg h
  | bitmap => exact if_neg h

end Values

section Loop

/-- Four bytes are there for the start of a record. -/
theorem exists_header {before : Bytes} (h : ¬ before.length < 4) :
    ∃ dp tag length left, before = dp::tag::(be16 length ++ left) := by
  obtain ⟨dp,tag,hi,lo,left,rfl⟩ : ∃ dp tag hi lo left, before = dp::tag::hi::lo::left := by
    match before,h with
    | dp::tag::hi::lo::left,_ => exact ⟨dp,tag,hi,lo,left,rfl⟩
    | [],h => simp at h
    | [_],h => simp at h
    | [_,_],h => simp at h
    | [_,_,_],h => simp at h
  exact ⟨dp,tag,Reader.ofLe16 lo hi,left,by rw [be16_ofLe16]; rfl⟩

theorem point_of_short {dp tag : UInt8} {length : UInt16} {left : Bytes}
    (h : left.length < length.toNat) (pos : ℕ) :
    point ⟨dp::tag::(be16 length ++ left),pos⟩ =
      .error (.badLength dp length.toNat left.length) := by
  have hlength := u16Be_be16 length left (pos + 1 + 1)
  have hshort : (Reader.mk left (pos + 1 + 1 + 2)).remaining < length.toNat := h
  simp only [point,lift,Reader.u8,bind,Except.bind,Except.mapError,hlength,if_pos hshort]
  rfl

theorem point_of_room {tag : UInt8} {length : UInt16} {bytes : Bytes} (dp : UInt8)
    (h : bytes.length = length.toNat) (after : Bytes) (pos : ℕ) :
    point ⟨dp::tag::(be16 length ++ (bytes ++ after)),pos⟩ =
      (readValue dp (.fromU8 tag) bytes).map fun v =>
        (⟨dp,v⟩,⟨after,pos + (4 + bytes.length)⟩) := by
  have hlength := u16Be_be16 length (bytes ++ after) (pos + 1 + 1)
  have hroom : ¬ (bytes ++ after).length < length.toNat := by
    rw [List.length_append]
    omega
  have htake := Reader.take_append h after (pos + 1 + 1 + 2)
  have hpos : pos + 1 + 1 + 2 + length.toNat = pos + (4 + bytes.length) := by omega
  simp only [point,lift,Reader.u8,bind,Except.bind,Except.mapError,hlength,Reader.remaining,
    if_neg hroom,htake,hpos,pure,Except.pure,Except.map]

/-- What a round makes of its bytes: a record, read to its end and no further, or none. -/
theorem point_cases {before : Bytes} (hbefore : ¬ before.length < 4) (pos : ℕ) :
    (∃ p b after, IsRecord p b ∧ before = b ++ after ∧
      point ⟨before,pos⟩ = .ok (p,⟨after,pos + b.length⟩)) ∨
    ∃ e, Breaks before e ∧ point ⟨before,pos⟩ = .error e := by
  obtain ⟨dp,tag,length,left,rfl⟩ := exists_header hbefore
  by_cases hshort : left.length < length.toNat
  · exact .inr ⟨_,.claim dp tag length left hshort,point_of_short hshort pos⟩
  · obtain ⟨bytes,after,hbytes,rfl⟩ : ∃ bytes after : Bytes,
        bytes.length = length.toNat ∧ left = bytes ++ after :=
      ⟨_,_,List.length_take_of_le (not_lt.mp hshort),(List.take_append_drop _ _).symm⟩
    rw [point_of_room dp hbytes]
    by_cases hlegal : (DataType.fromU8 tag).Legal bytes.length
    · obtain ⟨v,hv⟩ := exists_denotes hlegal
      left
      refine ⟨⟨dp,v⟩,_,after,⟨tag,length,bytes,hbytes,hv,rfl⟩,by simp,?_⟩
      rw [readValue_of_denotes dp hv]
      have hlength : (dp::tag::(be16 length ++ bytes)).length = 4 + bytes.length := by
        simp [be16,le16]
        omega
      rw [hlength]
      rfl
    · right
      exact ⟨_,.width dp tag length bytes after hbytes hlegal,
        by rw [readValue_of_not_legal dp hlegal]; rfl⟩

/-- A record is read as what it is of. -/
theorem point_isRecord {p : Datapoint} {b : Bytes} (h : IsRecord p b) (after : Bytes) (pos : ℕ) :
    point ⟨b ++ after,pos⟩ = .ok (p,⟨after,pos + b.length⟩) := by
  obtain ⟨tag,length,bytes,hbytes,hv,rfl⟩ := h
  have happend : p.dp::tag::(be16 length ++ bytes) ++ after =
      p.dp::tag::(be16 length ++ (bytes ++ after)) := by
    simp
  have hlength : (p.dp::tag::(be16 length ++ bytes)).length = 4 + bytes.length := by
    simp [be16,le16]
    omega
  rw [happend,hlength,point_of_room p.dp hbytes,readValue_of_denotes p.dp hv]
  rfl

/-- A record has a start, and so every round takes bytes. -/
theorem IsRecord.length_le {p : Datapoint} {b : Bytes} (h : IsRecord p b) : 4 ≤ b.length := by
  obtain ⟨tag,length,bytes,-,-,rfl⟩ := h
  simp [be16,le16]

theorem Breaks.length_le {before : Bytes} {e : TuyaError} (h : Breaks before e) :
    4 ≤ before.length := by
  cases h with
  | claim => simp [be16,le16]
  | width => simp [be16,le16]

/-- A broken record is refused for what is wrong with it. -/
theorem point_breaks {before : Bytes} {e : TuyaError} (h : Breaks before e) (pos : ℕ) :
    point ⟨before,pos⟩ = .error e := by
  cases h with
  | claim dp tag length left hshort => exact point_of_short hshort pos
  | width dp tag length bytes after hbytes hwidth =>
    rw [point_of_room dp hbytes,readValue_of_not_legal dp hwidth]
    rfl

theorem areRecords_nil {b : Bytes} : AreRecords [] b ↔ b = [] := by
  simp [AreRecords]

theorem areRecords_cons {p : Datapoint} {ps : List Datapoint} {b : Bytes} :
    AreRecords (p::ps) b ↔ ∃ head rest, IsRecord p head ∧ AreRecords ps rest ∧ b = head ++ rest := by
  constructor
  · rintro ⟨records,hrecords,rfl⟩
    cases hrecords with
    | cons hp hps => exact ⟨_,_,hp,⟨_,hps,rfl⟩,rfl⟩
  · rintro ⟨head,rest,hp,⟨records,hps,rfl⟩,rfl⟩
    exact ⟨head::records,.cons hp hps,rfl⟩

/-- The round that there is room for, and those after it. -/
theorem points_succ {before : Bytes} (n pos : ℕ) (hroom : ¬ before.length < 4) :
    points (n + 1) ⟨before,pos⟩ =
      point ⟨before,pos⟩ >>= fun x => points n x.2 >>= fun rest => pure (x.1::rest) :=
  if_neg hroom

/-- Rounds enough for the bytes end where there is no room for a record, or at a broken one. -/
theorem points_cases (n : ℕ) {before : Bytes} (hn : before.length ≤ n) (pos : ℕ) :
    (∃ ps b padding, AreRecords ps b ∧ padding.length ≤ 3 ∧ before = b ++ padding ∧
      points n ⟨before,pos⟩ = .ok ps) ∨
    ∃ e ps b after, AreRecords ps b ∧ Breaks after e ∧ before = b ++ after ∧
      points n ⟨before,pos⟩ = .error e := by
  induction n generalizing before pos with
  | zero =>
    obtain rfl := List.length_eq_zero_iff.mp (Nat.le_zero.mp hn)
    exact .inl ⟨[],[],[],areRecords_nil.mpr rfl,by simp,rfl,rfl⟩
  | succ n ih =>
    by_cases hroom : before.length < 4
    · left
      exact ⟨[],[],before,areRecords_nil.mpr rfl,Nat.lt_succ_iff.mp hroom,rfl,if_pos hroom⟩
    · obtain ⟨p,b,after,hp,rfl,hpoint⟩ | ⟨e,hbreaks,hpoint⟩ := point_cases hroom pos
      · have hlong := hp.length_le
        have hafter : after.length ≤ n := by
          rw [List.length_append] at hn
          omega
        rw [points_succ n pos hroom,hpoint]
        obtain ⟨ps,rest,padding,hps,hpadding,rfl,hrest⟩ | ⟨e,ps,rest,broken,hps,he,rfl,hrest⟩ :=
          ih hafter (pos + b.length)
        · left
          refine ⟨p::ps,b ++ rest,padding,areRecords_cons.mpr ⟨b,rest,hp,hps,rfl⟩,hpadding,
            by simp,?_⟩
          simp only [bind,Except.bind,hrest]
          rfl
        · right
          refine ⟨e,p::ps,b ++ rest,broken,areRecords_cons.mpr ⟨b,rest,hp,hps,rfl⟩,he,
            by simp,?_⟩
          simp only [bind,Except.bind,hrest]
      · right
        refine ⟨e,[],[],before,areRecords_nil.mpr rfl,hbreaks,rfl,?_⟩
        rw [points_succ n pos hroom,hpoint]
        rfl

/-- Records and what has no room for another are read as such, whatever the rounds left over. -/
theorem points_areRecords {ps : List Datapoint} {b padding : Bytes} (hps : AreRecords ps b)
    (hpadding : padding.length ≤ 3) (pos : ℕ) {n : ℕ} (hn : (b ++ padding).length ≤ n) :
    points n ⟨b ++ padding,pos⟩ = .ok ps := by
  induction ps generalizing b pos n with
  | nil =>
    obtain rfl := areRecords_nil.mp hps
    cases n with
    | zero => rfl
    | succ n => exact if_pos (Nat.lt_succ_of_le hpadding)
  | cons p ps ih =>
    obtain ⟨head,rest,hp,hrest,rfl⟩ := areRecords_cons.mp hps
    have hlong := hp.length_le
    rw [List.append_assoc] at hn ⊢
    rw [List.length_append] at hn
    cases n with
    | zero => omega
    | succ n =>
      have hroom : ¬ (head ++ (rest ++ padding)).length < 4 := by
        rw [List.length_append]
        omega
      have hread := ih hrest (pos + head.length) (n := n) (by omega)
      rw [points_succ n pos hroom,point_isRecord hp]
      simp only [bind,Except.bind,hread]
      rfl

/-- After any records a broken one ends the reading. -/
theorem points_breaks {ps : List Datapoint} {b after : Bytes} {e : TuyaError}
    (hps : AreRecords ps b) (hbreaks : Breaks after e) (pos : ℕ) {n : ℕ}
    (hn : (b ++ after).length ≤ n) : points n ⟨b ++ after,pos⟩ = .error e := by
  have hlong := hbreaks.length_le
  induction ps generalizing b pos n with
  | nil =>
    obtain rfl := areRecords_nil.mp hps
    rw [List.nil_append] at hn ⊢
    cases n with
    | zero => omega
    | succ n =>
      rw [points_succ n pos (not_lt.mpr hlong),point_breaks hbreaks]
      rfl
  | cons p ps ih =>
    obtain ⟨head,rest,hp,hrest,rfl⟩ := areRecords_cons.mp hps
    have hhead := hp.length_le
    rw [List.append_assoc] at hn ⊢
    rw [List.length_append] at hn
    cases n with
    | zero => omega
    | succ n =>
      have hroom : ¬ (head ++ (rest ++ after)).length < 4 := by
        rw [List.length_append]
        omega
      have hread := ih hrest (pos + head.length) (n := n) (by omega)
      rw [points_succ n pos hroom,point_isRecord hp]
      simp only [bind,Except.bind,hread]

/-- Rounds beyond as many as there are bytes change nothing: the loop has ended. -/
theorem points_enough (r : Reader) {n : ℕ} (hn : r.remaining ≤ n) :
    points n r = points r.remaining r := by
  obtain ⟨before,pos⟩ := r
  obtain ⟨ps,b,padding,hps,hpadding,rfl,hread⟩ | ⟨e,ps,b,after,hps,hbreaks,rfl,hread⟩ :=
    points_cases n hn pos
  · rw [hread]
    exact (points_areRecords hps hpadding pos le_rfl).symm
  · rw [hread]
    exact (points_breaks hps hbreaks pos le_rfl).symm

end Loop

section Decode
variable {payload : Bytes}

theorem decode_of_short (h : payload.length < 2) :
    decode payload = .error (.codec (.eof 2 0 payload.length)) := by
  match payload,h with
  | [],_ => rfl
  | [_],_ => rfl

theorem exists_seq (h : ¬ payload.length < 2) : ∃ seq rest, payload = le16 seq ++ rest := by
  match payload with
  | lo::hi::rest => exact ⟨Reader.ofLe16 lo hi,rest,by rw [le16_ofLe16]; rfl⟩
  | [] => simp at h
  | [_] => simp at h

theorem decode_le16 (seq : UInt16) (rest : Bytes) : decode (le16 seq ++ rest) =
    points rest.length ⟨rest,2⟩ >>= fun ps => pure (seq,ps) := by
  have hseq : Reader.u16Le (.new (le16 seq ++ rest)) = .ok (seq,⟨rest,2⟩) := by
    rw [Read.u16Le_ok_iff]
    exact ⟨rfl,rfl⟩
  simp only [decode,lift,hseq,Except.mapError,bind,Except.bind,Reader.remaining]

theorem decode_of_isPayload {seq : UInt16} {ps : List Datapoint} (h : IsPayload seq ps payload) :
    decode payload = .ok (seq,ps) := by
  obtain ⟨b,padding,hps,hpadding,rfl⟩ := h
  rw [decode_le16,points_areRecords hps hpadding 2 le_rfl]
  rfl

theorem decode_of_isMalformed {e : TuyaError} (h : IsMalformed payload e) :
    decode payload = .error e := by
  obtain ⟨hshort,rfl⟩ | ⟨seq,ps,b,after,hps,hbreaks,rfl⟩ := h
  · exact decode_of_short hshort
  · rw [decode_le16,points_breaks hps hbreaks 2 le_rfl]
    rfl

/-- Well formed, or not. -/
theorem isPayload_or_isMalformed (payload : Bytes) :
    (∃ seq ps, IsPayload seq ps payload) ∨ ∃ e, IsMalformed payload e := by
  by_cases hshort : payload.length < 2
  · exact .inr ⟨_,.inl ⟨hshort,rfl⟩⟩
  · obtain ⟨seq,rest,rfl⟩ := exists_seq hshort
    obtain ⟨ps,b,padding,hps,hpadding,rfl,-⟩ | ⟨e,ps,b,after,hps,hbreaks,rfl,-⟩ :=
      points_cases rest.length le_rfl 2
    · exact .inl ⟨seq,ps,b,padding,hps,hpadding,rfl⟩
    · exact .inr ⟨e,.inr ⟨seq,ps,b,after,hps,hbreaks,rfl⟩⟩

/-- A payload is decoded as the records it is made of, and one that is not made so is refused for
what breaks it; the loop ends within as many rounds as there are bytes. -/
theorem decode_accepts_grammar (payload : Bytes) :
    (∀ seq ps, decode payload = .ok (seq,ps) ↔ IsPayload seq ps payload) ∧
    (∀ e, decode payload = .error e ↔ IsMalformed payload e) ∧
    ∀ (r : Reader) n, r.remaining ≤ n → points n r = points r.remaining r := by
  refine ⟨fun seq ps => ⟨fun h => ?_,decode_of_isPayload⟩,
    fun e => ⟨fun h => ?_,decode_of_isMalformed⟩,fun r n => points_enough r⟩
  · obtain ⟨seq',ps',h'⟩ | ⟨e,h'⟩ := isPayload_or_isMalformed payload
    · rw [decode_of_isPayload h'] at h
      cases h
      exact h'
    · rw [decode_of_isMalformed h'] at h
      cases h
  · obtain ⟨seq,ps,h'⟩ | ⟨e',h'⟩ := isPayload_or_isMalformed payload
    · rw [decode_of_isPayload h'] at h
      cases h
    · rw [decode_of_isMalformed h'] at h
      cases h
      exact h'

end Decode
end Tuya
end Rszigbee
