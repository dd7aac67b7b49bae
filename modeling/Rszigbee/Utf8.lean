import Mathlib.Data.List.Basic
import Mathlib.Data.UInt

/-! Text as UTF-8 bytes: what a string's bytes are, and reading any bytes as text. -/
namespace Rszigbee
namespace Utf8

theorem loop_eq (b : ByteArray) (i : ℕ) (r : List UInt8) :
    ByteArray.toList.loop b i r = r.reverse ++ b.data.toList.drop i := by
  induction h : b.size - i generalizing i r with
  | zero =>
    have hend : ¬i < b.size := by omega
    have hlen : b.data.toList.length ≤ i := by
      rw [Array.length_toList]
      exact not_lt.mp hend
    rw [ByteArray.toList.loop.eq_def,if_neg hend,List.drop_eq_nil_of_le hlen,List.append_nil]
  | succ n ih =>
    have hlt : i < b.size := by omega
    have hlen : i < b.data.toList.length := by
      rw [Array.length_toList]
      exact hlt
    have hget : b.get! i = b.data.toList[i] := by
      rw [Array.getElem_toList]
      exact getElem!_pos b.data i hlt
    rw [ByteArray.toList.loop.eq_def,if_pos hlt,ih (i + 1) _ (by omega),hget,
      List.drop_eq_getElem_cons hlen]
    simp

theorem toList_eq (b : ByteArray) : b.toList = b.data.toList := by
  simpa [ByteArray.toList] using loop_eq b 0 []

/-- The bytes of a text are the ones of its characters in turn. -/
theorem toList_toUTF8 (s : String) : s.toUTF8.toList = s.toList.flatMap String.utf8EncodeChar := by
  rw [toList_eq,String.toUTF8_eq_toByteArray,← String.utf8Encode_toList,List.utf8Encode,
    List.data_toByteArray]

theorem fromUTF8?_toUTF8 (s : String) : String.fromUTF8? ⟨s.toUTF8.toList.toArray⟩ = some s := by
  have hbytes : (⟨s.toUTF8.toList.toArray⟩ : ByteArray) = s.toByteArray := by
    rw [toList_eq,String.toUTF8_eq_toByteArray]
  have hvalid : s.toByteArray.IsValidUTF8 := s.isValidUTF8
  rw [hbytes,String.fromUTF8?]
  simp [hvalid,String.fromUTF8]

theorem eq_of_fromUTF8? {b : List UInt8} {s : String} (h : String.fromUTF8? ⟨b.toArray⟩ = some s) :
    s.toUTF8.toList = b := by
  rw [String.fromUTF8?] at h
  split at h
  · cases h
    rw [toList_eq]
    simp [String.fromUTF8]
  · cases h

/-- Leaving characters out makes a text no longer. -/
theorem length_filter_le (p : Char → Bool) (s : String) :
    (String.ofList (s.toList.filter p)).toUTF8.toList.length ≤ s.toUTF8.toList.length := by
  rw [toList_toUTF8,toList_toUTF8,String.toList_ofList]
  induction s.toList with
  | nil => simp
  | cons c cs ih =>
    by_cases hc : p c = true
    · simp only [List.filter_cons,hc,if_true,List.flatMap_cons,List.length_append]
      omega
    · simp only [List.filter_cons,hc,List.flatMap_cons,List.length_append]
      simp only [Bool.false_eq_true,if_false]
      omega

section Lossy

/-- Whether a byte may follow the lead byte of a sequence of three or four. -/
def follows (lead second : UInt8) : Bool :=
  if lead = 0xe0 then 0xa0 ≤ second && second ≤ 0xbf
  else if lead = 0xed then 0x80 ≤ second && second ≤ 0x9f
  else if lead = 0xf0 then 0x90 ≤ second && second ≤ 0xbf
  else if lead = 0xf4 then 0x80 ≤ second && second ≤ 0x8f
  else 0xe1 ≤ lead && lead ≤ 0xf3 && 0x80 ≤ second && second ≤ 0xbf

def isContinuation (b : UInt8) : Bool := b &&& 0xc0 = 0x80

/-- How many bytes one broken sequence takes: as far as it could have been a character. -/
def brokenLen : List UInt8 → ℕ
  | lead::second::third::_ =>
    if follows lead second then if 0xf0 ≤ lead && isContinuation third then 3 else 2 else 1
  | [lead,second] => if follows lead second then 2 else 1
  | _ => 1

/-- The characters of some bytes, a broken sequence as `U+FFFD`. Every round takes a byte, so as
many rounds as there are bytes are enough. -/
def lossyChars : ℕ → List UInt8 → List Char
  | 0, _ => []
  | _+1, [] => []
  | n+1, b::bs =>
    match (b::bs).toByteArray.utf8DecodeChar? 0 with
    | some c => c::lossyChars n ((b::bs).drop c.utf8Size)
    | none => Char.ofNat 0xfffd::lossyChars n ((b::bs).drop (brokenLen (b::bs)))

/-- `String::from_utf8_lossy`. -/
def fromUtf8Lossy (b : List UInt8) : String := String.ofList (lossyChars b.length b)

theorem lossyChars_encoded (cs : List Char) {n : ℕ}
    (hn : (cs.flatMap String.utf8EncodeChar).length ≤ n) :
    lossyChars n (cs.flatMap String.utf8EncodeChar) = cs := by
  induction cs generalizing n with
  | nil => cases n <;> rfl
  | cons c cs ih =>
    have hsize : (String.utf8EncodeChar c).length = c.utf8Size := String.length_utf8EncodeChar c
    have hpos : 0 < c.utf8Size := Char.utf8Size_pos c
    rw [List.flatMap_cons,List.length_append,hsize] at hn
    rw [List.flatMap_cons]
    cases n with
    | zero => omega
    | succ n =>
      obtain ⟨b,bs,hbytes⟩ : ∃ b bs,
          String.utf8EncodeChar c ++ cs.flatMap String.utf8EncodeChar = b::bs := by
        cases hcase : String.utf8EncodeChar c with
        | nil =>
          rw [hcase,List.length_nil] at hsize
          omega
        | cons b bs => exact ⟨b,_,List.cons_append⟩
      have hchar : (b::bs).toByteArray.utf8DecodeChar? 0 = some c := by
        rw [← hbytes,List.toByteArray_append]
        exact ByteArray.utf8DecodeChar?_utf8EncodeChar_append
      have hdrop : (b::bs).drop c.utf8Size = cs.flatMap String.utf8EncodeChar := by
        rw [← hbytes,← hsize,List.drop_left]
      rw [hbytes,lossyChars,hchar]
      simp only
      rw [hdrop,ih (by omega)]

/-- Bytes that are text are read as that text. -/
theorem fromUtf8Lossy_toUTF8 (s : String) : fromUtf8Lossy s.toUTF8.toList = s := by
  rw [fromUtf8Lossy,toList_toUTF8,lossyChars_encoded _ le_rfl,String.ofList_toList]

/-- Two letters around a sequence cut short. -/
example : fromUtf8Lossy [0x61,0xe2,0x82,0x62] = "a\uFFFDb" := by
  decide

end Lossy
end Utf8
end Rszigbee
