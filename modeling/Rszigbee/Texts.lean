import Mathlib.Data.List.Basic
import Mathlib.Data.Nat.Digits.Defs

/-! Text that is put together and taken apart again: the last separator of a name, and numbers
in a radix, padded on the left. -/
namespace Rszigbee.Texts

section SplitLast
variable {α : Type} [DecidableEq α]

/-- What stands before and after the last separator. -/
def splitLast (sep : α) : List α → Option (List α × List α)
  | [] => none
  | x::xs =>
    match splitLast sep xs with
    | some (before,after) => some (x::before,after)
    | none => if x = sep then some ([],xs) else none

theorem splitLast_eq_none {sep : α} {xs : List α} (h : sep ∉ xs) : splitLast sep xs = none := by
  induction xs with
  | nil => rfl
  | cons x xs ih =>
    have hx : x ≠ sep := fun hx => h (by simp [hx])
    have hxs : sep ∉ xs := fun hxs => h (List.mem_cons_of_mem _ hxs)
    simp [splitLast,ih hxs,hx]

theorem splitLast_append {sep : α} (before : List α) {after : List α} (h : sep ∉ after) :
    splitLast sep (before ++ sep::after) = some (before,after) := by
  induction before with
  | nil => simp [splitLast,splitLast_eq_none h]
  | cons x before ih => simp [splitLast,ih]

/-- Where there is a separator there is a last one. -/
theorem exists_last {sep : α} {xs : List α} (h : sep ∈ xs) :
    ∃ before after, xs = before ++ sep::after ∧ sep ∉ after := by
  induction xs with
  | nil => cases h
  | cons x xs ih =>
    by_cases hxs : sep ∈ xs
    · obtain ⟨before,after,rfl,hafter⟩ := ih hxs
      exact ⟨x::before,after,rfl,hafter⟩
    · have hx : sep = x := by simpa [hxs] using h
      exact ⟨[],xs,by rw [hx,List.nil_append],hxs⟩

end SplitLast

section Pairs
variable {α : Type} {d : α} {xs ys : List α}

/-- Two in a row are not across what has none. -/
theorem pair_infix_append_left (h : d ∉ xs) : [d,d] <:+: xs ++ ys ↔ [d,d] <:+: ys := by
  induction xs with
  | nil => rfl
  | cons x xs ih =>
    have hx : d ≠ x := fun hx => h (by simp [hx])
    have hxs : d ∉ xs := fun hxs => h (List.mem_cons_of_mem _ hxs)
    rw [List.cons_append,List.infix_cons_iff,ih hxs]
    simp [hx]

theorem pair_infix_append_right (h : d ∉ ys) : [d,d] <:+: xs ++ ys ↔ [d,d] <:+: xs := by
  have hreverse : [d,d] = [d,d].reverse := rfl
  have hys : d ∉ ys.reverse := by simpa using h
  rw [hreverse,← List.reverse_infix,List.reverse_reverse,List.reverse_append,
    pair_infix_append_left hys,hreverse,List.reverse_infix]
  rfl

end Pairs

section Words

/-- `char::is_whitespace`. -/
def isWhitespace (c : Char) : Bool :=
  (0x09 ≤ c.toNat && c.toNat ≤ 0x0d) || (0x2000 ≤ c.toNat && c.toNat ≤ 0x200a) ||
    c.toNat ∈ [0x20,0x85,0xa0,0x1680,0x2028,0x2029,0x202f,0x205f,0x3000]

/-- `str::trim`. -/
def trim (cs : List Char) : List Char :=
  ((cs.dropWhile isWhitespace).reverse.dropWhile isWhitespace).reverse

end Words

section Numbers

/-- `char::to_digit`. -/
def digitValue (radix : ℕ) (c : Char) : Option ℕ :=
  let v :=
    if '0' ≤ c ∧ c ≤ '9' then c.toNat - '0'.toNat
    else if 'a' ≤ c ∧ c ≤ 'z' then c.toNat - 'a'.toNat + 10
    else if 'A' ≤ c ∧ c ≤ 'Z' then c.toNat - 'A'.toNat + 10
    else radix
  if v < radix then some v else none

def isDigit (radix : ℕ) (c : Char) : Bool := (digitValue radix c).isSome

/-- What digits come to, after what stood before them. -/
def value (radix : ℕ) : List Char → ℕ → Option ℕ
  | [],acc => some acc
  | c::cs,acc => (digitValue radix c).bind fun d => value radix cs (radix * acc + d)

/-- What is left after a plus sign in front. -/
def unsigned (cs : List Char) : List Char := if cs.head? = some '+' then cs.tail else cs

/-- `from_str_radix` of an unsigned type with values below the bound; a minus sign is no
digit. -/
def fromStrRadix (radix bound : ℕ) (cs : List Char) : Option ℕ :=
  if unsigned cs = [] then none
  else (value radix (unsigned cs) 0).filter fun n => n < bound

/-- A number of at least so many digits. -/
def padded (radix width n : ℕ) : List Char :=
  let digits := Nat.toDigits radix n
  List.replicate (width - digits.length) '0' ++ digits

theorem digitValue_digitChar {radix d : ℕ} (hradix : radix ≤ 16) (hd : d < radix) :
    digitValue radix (Nat.digitChar d) = some d := by
  have hall : ∀ r ∈ List.range 17, ∀ e ∈ List.range r,
      digitValue r (Nat.digitChar e) = some e := by decide +kernel
  exact hall radix (by simp; omega) d (List.mem_range.mpr hd)

theorem value_append (radix : ℕ) (cs ds : List Char) (acc : ℕ) :
    value radix (cs ++ ds) acc = (value radix cs acc).bind (value radix ds) := by
  induction cs generalizing acc with
  | nil => rfl
  | cons c cs ih => cases hc : digitValue radix c <;> simp [value,hc,ih]

theorem value_toDigits {radix : ℕ} (hone : 1 < radix) (hradix : radix ≤ 16) (n : ℕ) :
    value radix (Nat.toDigits radix n) 0 = some n := by
  induction n using Nat.strong_induction_on with
  | _ n ih =>
    by_cases hn : n < radix
    · rw [Nat.toDigits_of_lt_base hn]
      simp [value,digitValue_digitChar hradix hn]
    · have hsmaller : n / radix < n := Nat.div_lt_self (by omega) hone
      have hlast : n % radix < radix := Nat.mod_lt n (by omega)
      have hsplit : radix * (n / radix) + n % radix = n := Nat.div_add_mod n radix
      rw [Nat.toDigits_of_base_le hone (by omega),value_append,ih _ hsmaller]
      simp [value,digitValue_digitChar hradix hlast,hsplit]

theorem value_zeros {radix : ℕ} (hone : 1 < radix) (k : ℕ) :
    value radix (List.replicate k '0') 0 = some 0 := by
  have hzero : digitValue radix '0' = some 0 := by simp [digitValue]; omega
  induction k with
  | zero => rfl
  | succ k ih => simpa [List.replicate_succ,value,hzero] using ih

theorem value_padded {radix : ℕ} (hone : 1 < radix) (hradix : radix ≤ 16) (width n : ℕ) :
    value radix (padded radix width n) 0 = some n := by
  rw [padded,value_append,value_zeros hone]
  exact value_toDigits hone hradix n

/-- Only digits have a value. -/
theorem digit_of_value {radix : ℕ} {cs : List Char} {acc n : ℕ}
    (h : value radix cs acc = some n) {c : Char} (hc : c ∈ cs) : digitValue radix c ≠ none := by
  induction cs generalizing acc with
  | nil => cases hc
  | cons d cs ih =>
    simp only [value,Option.bind_eq_some_iff] at h
    obtain ⟨v,hv,hrest⟩ := h
    rcases List.mem_cons.mp hc with rfl | hmem
    · simp [hv]
    · exact ih hrest hmem

theorem not_mem_padded {radix : ℕ} (hone : 1 < radix) (hradix : radix ≤ 16) (width n : ℕ)
    {c : Char} (hc : digitValue radix c = none) : c ∉ padded radix width n :=
  fun hmem => digit_of_value (value_padded hone hradix width n) hmem hc

theorem padded_ne_nil (radix width n : ℕ) : padded radix width n ≠ [] := by
  simp [padded]

theorem padded_inj {radix : ℕ} (hone : 1 < radix) (hradix : radix ≤ 16) {width n m : ℕ} :
    padded radix width n = padded radix width m ↔ n = m := by
  constructor
  · intro h
    have hn := value_padded hone hradix width n
    rw [h,value_padded hone hradix width m] at hn
    exact (Option.some.inj hn).symm
  · rintro rfl
    rfl

theorem length_padded {radix width n : ℕ} (hone : 1 < radix) (hwidth : 0 < width)
    (hn : n < radix ^ width) : (padded radix width n).length = width := by
  have hle := (Nat.length_toDigits_le_iff hone hwidth).mpr hn
  simp [padded]
  omega

/-- Digits are one byte each. -/
theorem utf8Size_of_digit {radix : ℕ} {c : Char} (h : digitValue radix c ≠ none) :
    c.utf8Size = 1 := by
  have hle : c ≤ 'z' := by
    by_contra hgt
    have hnine : ¬c ≤ '9' := fun hc => hgt (Char.le_trans hc (by decide))
    have hz : ¬c ≤ 'Z' := fun hc => hgt (Char.le_trans hc (by decide))
    simp [digitValue,hnine,hgt,hz] at h
  have hval : c.val ≤ 0x7f := UInt32.le_trans hle (by decide)
  exact if_pos hval

theorem size_padded {radix : ℕ} (hone : 1 < radix) (hradix : radix ≤ 16) (width n : ℕ) :
    ((padded radix width n).map Char.utf8Size).sum = (padded radix width n).length := by
  have hsizes : (padded radix width n).map Char.utf8Size =
      (padded radix width n).map fun _ => 1 := by
    apply List.map_congr_left
    intro c hc
    exact utf8Size_of_digit (digit_of_value (value_padded hone hradix width n) hc)
  rw [hsizes]
  simp

theorem unsigned_of_not_mem {cs : List Char} (h : '+' ∉ cs) : unsigned cs = cs := by
  have hhead : cs.head? ≠ some '+' := fun hhead => h (List.mem_of_head? hhead)
  rw [unsigned,if_neg hhead]

theorem mem_unsigned {cs : List Char} {c : Char} (hplus : c ≠ '+') (hc : c ∈ cs) :
    c ∈ unsigned cs := by
  rw [unsigned]
  split
  · rename_i hhead
    cases cs with
    | nil => cases hc
    | cons x xs =>
      cases hhead
      simpa [hplus] using hc
  · exact hc

/-- A number is read back, whatever it was padded to. -/
theorem fromStrRadix_padded {radix : ℕ} (hone : 1 < radix) (hradix : radix ≤ 16) (width : ℕ)
    {n bound : ℕ} (hn : n < bound) : fromStrRadix radix bound (padded radix width n) = some n := by
  have hplus : '+' ∉ padded radix width n :=
    not_mem_padded hone hradix width n (by simp [digitValue])
  rw [fromStrRadix,unsigned_of_not_mem hplus]
  simp [padded_ne_nil,value_padded hone hradix,hn]

/-- What is neither a digit nor a plus sign makes it no number. -/
theorem fromStrRadix_eq_none {radix bound : ℕ} {c : Char} (hc : digitValue radix c = none)
    (hplus : c ≠ '+') {cs : List Char} (hmem : c ∈ cs) : fromStrRadix radix bound cs = none := by
  have hvalue : value radix (unsigned cs) 0 = none := by
    cases hv : value radix (unsigned cs) 0 with
    | none => rfl
    | some n => exact absurd hc (digit_of_value hv (mem_unsigned hplus hmem))
  rw [fromStrRadix,hvalue]
  split <;> rfl

end Numbers
end Rszigbee.Texts
