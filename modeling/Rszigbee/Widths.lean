import Rszigbee.Layouts
import Rszigbee.Fidelity

/-! How many bytes a value takes. The width is known from the type, or from the first byte, unless
the type's length is not known at all. -/
namespace Rszigbee

section Strings

/-- The bytes of a string, from the first: it tells how many follow, or that there is none. -/
def stringNeed : Option UInt8 → ℕ
  | none => 1
  | some length => if length = 0xff then 1 else 1 + length.toNat

theorem octstr_cons (length : UInt8) (rest : Bytes) (pos : ℕ) :
    Reader.octstr ⟨length::rest,pos⟩ =
      if length = 0xff then .ok (none,⟨rest,pos + 1⟩)
      else if rest.length < length.toNat then
        .error (.badLength length.toNat rest.length pos)
      else .ok (some (rest.take length.toNat),⟨rest.drop length.toNat,pos + 1 + length.toNat⟩) := by
  simp only [Reader.octstr,Reader.u8,bind,Except.bind]
  by_cases hnone : length = 0xff
  · rw [if_pos hnone,if_pos hnone]
    rfl
  rw [if_neg hnone,if_neg hnone]
  by_cases hshort : (Reader.mk rest (pos + 1)).remaining < length.toNat
  · rw [if_pos hshort,if_pos (show rest.length < _ from hshort)]
    rfl
  · rw [if_neg hshort,if_neg (show ¬ rest.length < _ from hshort),Reader.take,
      if_pos (not_lt.mp hshort)]
    rfl

theorem spans_octstr : Spans Reader.octstr (fun b => b.length = stringNeed b.head?) fun b =>
    some (if b.head? = some 0xff then none else some b.tail) := by
  intro before pos a after
  cases before with
  | nil =>
    constructor
    · rintro ⟨pos',h⟩
      cases h
    · rintro ⟨b,hb,-,hbytes⟩
      obtain ⟨rfl,rfl⟩ := List.append_eq_nil_iff.mp hbytes.symm
      simp [stringNeed] at hb
  | cons length rest =>
    rw [octstr_cons]
    constructor
    · rintro ⟨pos',h⟩
      by_cases hnone : length = 0xff
      · rw [if_pos hnone] at h
        cases h
        exact ⟨[length],by simp [stringNeed,hnone],by simp [hnone],rfl⟩
      · rw [if_neg hnone] at h
        split at h
        · cases h
        · rename_i hroom
          cases h
          refine ⟨length::rest.take length.toNat,?_,by simp [hnone],by simp⟩
          simp [stringNeed,hnone]
          omega
    · rintro ⟨b,hb,ha,hbytes⟩
      cases b with
      | nil => simp [stringNeed] at hb
      | cons first body =>
        simp only [List.cons_append,List.cons.injEq] at hbytes
        obtain ⟨rfl,rfl⟩ := hbytes
        by_cases hnone : length = 0xff
        · have hbody : body = [] := by simpa [stringNeed,hnone] using hb
          simp_all
        · have hbody : body.length = length.toNat := by
            simp [stringNeed,hnone] at hb
            omega
          have hroom : ¬ (body ++ after).length < length.toNat := by simp [hbody]
          rw [if_neg hnone,if_neg hroom,← hbody]
          simp_all

/-- What is read as text is UTF-8. -/
def IsText (b : Bytes) : Prop := ∃ s : String, b.tail = s.toUTF8.toList

theorem isText_iff {b : Bytes} : IsText b ↔ (String.fromUTF8? ⟨b.tail.toArray⟩).isSome := by
  constructor
  · rintro ⟨s,hs⟩
    rw [hs,Utf8.fromUTF8?_toUTF8]
    rfl
  · intro h
    obtain ⟨s,hs⟩ := Option.isSome_iff_exists.mp h
    exact ⟨s,(Utf8.eq_of_fromUTF8? hs).symm⟩

/-- The text in a string's bytes, if it is one. -/
def textOf (b : Bytes) : Option (Option String) :=
  if b.head? = some 0xff then some none else (String.fromUTF8? ⟨b.tail.toArray⟩).map some

/-- A string is its bytes as text, or there is none. -/
theorem string_eq_ok {r r' : Reader} {a : Option String} : Reader.string r = .ok (a,r') ↔
    ∃ raw, Reader.octstr r = .ok (raw,r') ∧
      (raw = none ∧ a = none ∨ ∃ b s, raw = some b ∧ String.fromUTF8? ⟨b.toArray⟩ = some s ∧
        a = some s) := by
  unfold Reader.string
  rw [bind_eq_ok]
  constructor
  · rintro ⟨⟨raw,rest⟩,hraw,h⟩
    dsimp only at h
    split at h
    · cases h
      exact ⟨none,hraw,.inl ⟨rfl,rfl⟩⟩
    · rename_i b
      split at h
      · rename_i s hs
        cases h
        exact ⟨some b,hraw,.inr ⟨b,s,rfl,hs,rfl⟩⟩
      · cases h
  · rintro ⟨raw,hraw,⟨rfl,rfl⟩ | ⟨b,s,rfl,hs,rfl⟩⟩
    · exact ⟨_,hraw,rfl⟩
    · refine ⟨_,hraw,?_⟩
      dsimp only
      rw [hs]
      rfl

theorem spans_string : Spans Reader.string (fun b => b.length = stringNeed b.head?) textOf := by
  intro before pos a after
  simp only [string_eq_ok]
  constructor
  · rintro ⟨pos',raw,hraw,h⟩
    obtain ⟨b,hb,hsome,rfl⟩ := (spans_octstr before pos raw after).mp ⟨pos',hraw⟩
    dsimp only at hsome
    refine ⟨b,hb,?_,rfl⟩
    rw [textOf]
    by_cases hnone : b.head? = some 0xff
    · rw [if_pos hnone] at hsome ⊢
      cases hsome
      rcases h with ⟨-,rfl⟩ | ⟨_,_,hraw,-⟩
      · rfl
      · cases hraw
    · rw [if_neg hnone] at hsome ⊢
      cases hsome
      rcases h with ⟨hraw,-⟩ | ⟨_,s,hraw,hs,rfl⟩
      · cases hraw
      · cases hraw
        rw [hs]
        rfl
  · rintro ⟨b,hb,htext,rfl⟩
    obtain ⟨pos₁,hraw⟩ := (spans_octstr (b ++ after) pos _ after).mpr ⟨b,hb,rfl,rfl⟩
    refine ⟨pos₁,_,hraw,?_⟩
    rw [textOf] at htext
    by_cases hnone : b.head? = some 0xff
    · rw [if_pos hnone] at htext ⊢
      exact .inl ⟨rfl,(Option.some.inj htext).symm⟩
    · rw [if_neg hnone] at htext ⊢
      obtain ⟨s,hs,rfl⟩ := Option.map_eq_some_iff.mp htext
      exact .inr ⟨_,s,rfl,hs,rfl⟩

end Strings

namespace ZclType

/-- A value of the type is as long as what is left. -/
def Open (ty : ZclType) : Prop := ∃ o, ty = .unknown o

/-- The bytes of a value, from the first. -/
def need (ty : ZclType) (first : Option UInt8) : ℕ :=
  match ty with
  | octStr | charStr => stringNeed first
  | noData | unk | unknown _ => 0
  | bool | enum8 => 1
  | enum16 | clusterId | attrId => 2
  | single | time _ => 4
  | data n | bitmap n | uint n | int n => n.toNat
  | ieee => 8
  | key128 => 16

/-- The bytes are as many as their first asks for. -/
def Fills (ty : ZclType) (b : Bytes) : Prop := b.length = ty.need b.head?

/-- The bytes of one value, none missing and none left. -/
def Whole (ty : ZclType) (b : Bytes) : Prop := ty.Open ∨ ty.Fills b

/-- What the bytes are read as, alone. -/
def meaning (ty : ZclType) (b : Bytes) : Option ZclValue :=
  ((decodeValue ty (.new b)).map Prod.fst).toOption

variable {ty : ZclType}

/-- An empty value is one of a type without bytes. -/
theorem need_eq_zero (h : ty.need none = 0) (first : Option UInt8) : ty.need first = 0 := by
  cases ty with
  | octStr | charStr => cases h
  | _ => exact h

/-- No value's bytes begin another's. -/
theorem Fills.prefix_free {b b' x y : Bytes} (hb : ty.Fills b) (hb' : ty.Fills b')
    (h : b ++ x = b' ++ y) : b = b' ∧ x = y := by
  have hlength : b.length = b'.length := by
    rw [Fills] at hb hb'
    cases b with
    | nil => rw [hb',need_eq_zero hb.symm]; rfl
    | cons first rest =>
      cases b' with
      | nil => rw [hb,need_eq_zero hb'.symm]; rfl
      | cons first' rest' =>
        have hfirst : first = first' := List.head_eq_of_cons_eq h
        rw [hb,hb',hfirst]
        rfl
  exact List.append_inj h hlength

/-- Bytes that are not enough can be filled up. -/
theorem exists_fills_append (ty : ZclType) {b : Bytes} (h : b.length < ty.need b.head?) :
    ∃ extra, extra ≠ [] ∧ ty.Fills (b ++ extra) := by
  refine ⟨List.replicate (ty.need b.head? - b.length) 0,?_,?_⟩
  · simp
    omega
  · rw [Fills,List.length_append,List.length_replicate]
    cases b with
    | nil =>
      cases ty with
      | octStr | charStr => rfl
      | _ => simp [need]
    | cons first rest =>
      simp at h ⊢
      omega

/-- Enough bytes begin with those of a value. -/
theorem exists_fills_of_le (ty : ZclType) {b : Bytes} (h : ty.need b.head? ≤ b.length) :
    ∃ value after, ty.Fills value ∧ b = value ++ after := by
  refine ⟨b.take (ty.need b.head?),b.drop (ty.need b.head?),?_,(List.take_append_drop ..).symm⟩
  rw [Fills,List.length_take,min_eq_left h]
  cases b with
  | nil => simp
  | cons first rest =>
    cases hneed : ty.need (first::rest).head? with
    | zero =>
      cases ty with
      | octStr | charStr =>
        simp [need,stringNeed] at hneed
        split at hneed <;> omega
      | _ => exact hneed.symm
    | succ n => exact hneed.symm

/-- A value of known length is read from its bytes, and is none only of a text that is not UTF-8. -/
theorem exists_spans (hclosed : ¬ ty.Open) : ∃ g, Spans (decodeValue ty) ty.Fills g ∧
    ∀ b, g b = none ↔ ty = .charStr ∧ textOf b = none := by
  cases ty with
  | unknown o => exact absurd ⟨o,rfl⟩ hclosed
  | noData | unk => exact ⟨_,Spans.pure _,by simp⟩
  | bool | enum8 => exact ⟨_,Spans.u8.map _,by simp⟩
  | enum16 | clusterId | attrId => exact ⟨_,Spans.u16Le.map _,by simp⟩
  | uint n | bitmap n | int n => exact ⟨_,((Spans.take _).map _).map _,by simp⟩
  | single | time => exact ⟨_,((Spans.take 4).map _).map _,by simp⟩
  | data n => exact ⟨_,(Spans.take _).map _,by simp⟩
  | key128 => exact ⟨_,(Spans.take 16).map _,by simp⟩
  | ieee => exact ⟨_,(((Spans.take 8).map _).map _).map _,by simp⟩
  | octStr => exact ⟨_,spans_octstr.map _,by simp⟩
  | charStr => exact ⟨_,spans_string.map _,by simp⟩

theorem meaning_eq_some {b : Bytes} {v : ZclValue} : ty.meaning b = some v ↔
    ∃ after pos', decodeValue ty ⟨b,0⟩ = .ok (v,⟨after,pos'⟩) := by
  rw [meaning,Reader.new]
  cases decodeValue ty ⟨b,0⟩ with
  | error e => simp [Except.map,Except.toOption]
  | ok x =>
    obtain ⟨v',after,pos'⟩ := x
    simp [Except.map,Except.toOption]

theorem meaning_of_spans {g : Bytes → Option ZclValue} (hspans : Spans (decodeValue ty) ty.Fills g)
    {b : Bytes} (hb : ty.Fills b) : ty.meaning b = g b := by
  have hsame : ∀ v, ty.meaning b = some v ↔ g b = some v := by
    intro v
    rw [meaning_eq_some]
    constructor
    · rintro ⟨rest,pos',hread⟩
      obtain ⟨b',hb',hv,hbytes⟩ := (hspans b 0 v rest).mp ⟨pos',hread⟩
      obtain ⟨rfl,-⟩ := hb.prefix_free hb' ((List.append_nil b).trans hbytes)
      exact hv
    · intro hv
      obtain ⟨pos',hread⟩ := (hspans b 0 v []).mpr ⟨b,hb,hv,(List.append_nil b).symm⟩
      exact ⟨[],pos',hread⟩
  exact Option.ext hsame

/-- A value is read in the midst of others as it is alone. -/
theorem spans_value (hclosed : ¬ ty.Open) : Spans (decodeValue ty) ty.Fills ty.meaning := by
  obtain ⟨g,hspans,-⟩ := exists_spans hclosed
  refine Reads.congr hspans fun v before after => ?_
  exact exists_congr fun b => and_congr_right fun hb => by rw [meaning_of_spans hspans hb]

theorem textOf_eq_none {b : Bytes} (hb : Fills .charStr b) : textOf b = none ↔ ¬ IsText b := by
  rw [isText_iff,textOf]
  by_cases hnone : b.head? = some 0xff
  · have htail : b.tail = [] := by
      rw [Fills,hnone] at hb
      exact List.eq_nil_of_length_eq_zero (by rw [List.length_tail,hb]; rfl)
    have hempty : (String.fromUTF8? ⟨([] : Bytes).toArray⟩).isSome = true := rfl
    rw [if_pos hnone,htail]
    simp [hempty]
  · rw [if_neg hnone]
    simp

theorem meaning_eq_none (hclosed : ¬ ty.Open) {b : Bytes} (hb : ty.Fills b) :
    ty.meaning b = none ↔ ty = .charStr ∧ ¬ IsText b := by
  obtain ⟨g,hspans,hnone⟩ := exists_spans hclosed
  rw [meaning_of_spans hspans hb,hnone]
  refine and_congr_right ?_
  rintro rfl
  exact textOf_eq_none hb

/-- What is read next is a value's bytes, up to the end where their number is not known. -/
theorem reads_value (ty : ZclType) : Reads (decodeValue ty) fun v before after =>
    ∃ b, ty.Whole b ∧ ty.meaning b = some v ∧ before = b ++ after ∧ (ty.Open → after = []) := by
  by_cases hopen : ty.Open
  · obtain ⟨o,rfl⟩ := hopen
    have hmeaning : ∀ b, meaning (.unknown o) b = some (.raw o b) := fun b => rfl
    refine (Reads.takeRest.map).congr fun v before after => ?_
    constructor
    · rintro ⟨b,⟨rfl,rfl⟩,rfl⟩
      exact ⟨b,.inl ⟨o,rfl⟩,hmeaning b,(List.append_nil b).symm,fun _ => rfl⟩
    · rintro ⟨b,-,hv,rfl,hend⟩
      obtain rfl := hend ⟨o,rfl⟩
      rw [hmeaning] at hv
      exact ⟨b,⟨(List.append_nil b).symm,rfl⟩,(Option.some.inj hv).symm⟩
  · refine Reads.congr (spans_value hopen) fun v before after => ?_
    simp [Whole,hopen]

end ZclType
end Rszigbee
