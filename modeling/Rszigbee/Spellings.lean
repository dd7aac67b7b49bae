import Rszigbee.Names

/-! How an address can be spelled. The digits are read by the integer parser, whose numbers may
start with a plus sign. -/
namespace Rszigbee
namespace Texts

/-- A decimal digit, or a letter to `f` in either case. -/
def IsHexDigit (c : Char) : Prop :=
  ('0' ≤ c ∧ c ≤ '9') ∨ ('a' ≤ c ∧ c ≤ 'f') ∨ 'A' ≤ c ∧ c ≤ 'F'

theorem digitValue_ne_none_iff (c : Char) : digitValue 16 c ≠ none ↔ IsHexDigit c := by
  simp only [digitValue,IsHexDigit,Char.le_def,UInt32.le_iff_toNat_le]
  have hnat : c.toNat = c.val.toNat := rfl
  rw [hnat]
  simp
  split <;> (try split) <;> (try split) <;> omega

theorem digitValue_lt {radix : ℕ} {c : Char} {v : ℕ} (h : digitValue radix c = some v) :
    v < radix := by
  obtain ⟨hlt,hv⟩ := Option.ite_none_right_eq_some.mp h
  exact Option.some.inj hv ▸ hlt

/-- Digits are worth less than their weight. -/
theorem value_lt {radix : ℕ} {cs : List Char} {acc n : ℕ} (h : value radix cs acc = some n) :
    n < radix ^ cs.length * (acc + 1) := by
  induction cs generalizing acc with
  | nil =>
    have hn : acc = n := Option.some.inj h
    simp [hn]
  | cons c cs ih =>
    obtain ⟨v,hv,hrest⟩ := Option.bind_eq_some_iff.mp h
    have hlt : v + 1 ≤ radix := digitValue_lt hv
    calc n < radix ^ cs.length * (radix * acc + v + 1) := ih hrest
      _ ≤ radix ^ cs.length * (radix * (acc + 1)) := by
        refine Nat.mul_le_mul_left _ ?_
        rw [Nat.mul_add]
        omega
      _ = radix ^ (c::cs).length * (acc + 1) := by rw [List.length_cons,Nat.pow_succ,Nat.mul_assoc]

/-- Digits alone have a value. -/
theorem value_isSome_iff {radix : ℕ} {cs : List Char} {acc : ℕ} :
    (value radix cs acc).isSome ↔ ∀ c ∈ cs, digitValue radix c ≠ none := by
  induction cs generalizing acc with
  | nil => simp [value]
  | cons c cs ih => cases hc : digitValue radix c <;> simp [value,hc,ih]

theorem size_of_value {radix : ℕ} {cs : List Char} {acc n : ℕ} (h : value radix cs acc = some n) :
    (cs.map Char.utf8Size).sum = cs.length := by
  have hsizes : cs.map Char.utf8Size = cs.map fun _ => 1 :=
    List.map_congr_left fun c hc => utf8Size_of_digit (digit_of_value h hc)
  rw [hsizes]
  simp

/-- A number is what the digits are worth, after a plus sign or none. -/
theorem fromStrRadix_eq_some {radix bound : ℕ} {cs : List Char} {n : ℕ} :
    fromStrRadix radix bound cs = some n ↔ ∃ ds, (cs = ds ∧ ds.head? ≠ some '+' ∨ cs = '+'::ds) ∧
      ds ≠ [] ∧ value radix ds 0 = some n ∧ n < bound := by
  have hread : ∀ ds, (if ds = [] then none else (value radix ds 0).filter fun n => n < bound) =
      some n ↔ ds ≠ [] ∧ value radix ds 0 = some n ∧ n < bound := by
    intro ds
    by_cases hds : ds = [] <;> simp [hds,Option.filter_eq_some_iff]
  rw [fromStrRadix,hread,unsigned]
  by_cases hplus : cs.head? = some '+'
  · obtain ⟨ds,rfl⟩ : ∃ ds, cs = '+'::ds := ⟨_,List.eq_cons_of_mem_head? hplus⟩
    simp
  · have hne : ∀ ds, cs ≠ '+'::ds := by
      rintro ds rfl
      exact hplus rfl
    simp [hplus,hne]

end Texts

namespace Ieee
open Texts

/-- What is left after the prefix, if it is there. -/
def body : List Char → List Char
  | '0' :: 'x' :: rest | '0' :: 'X' :: rest => rest
  | cs => cs

/-- The text stands there, after a prefix or none. -/
def Prefixed (s : String) (cs : List Char) : Prop :=
  s.toList = cs ∨ s.toList = '0' :: 'x' :: cs ∨ s.toList = '0' :: 'X' :: cs

/-- Sixteen hexadecimal digits that denote the address, after a prefix or none. -/
def Spells (s : String) (ieee : Ieee) : Prop :=
  ∃ ds, Prefixed s ds ∧ ds.length = 16 ∧ (∀ c ∈ ds, IsHexDigit c) ∧
    value 16 ds 0 = some ieee.raw.toNat

/-- A plus sign and fifteen hexadecimal digits, after a prefix or none. -/
def Signed (s : String) : Prop :=
  ∃ ds, Prefixed s ('+'::ds) ∧ ds.length = 15 ∧ ∀ c ∈ ds, IsHexDigit c

/-- A text is read as what it spells, and what is shown is read back. -/
def ReadsExactly (s : String) : Prop :=
  (∀ ieee, parse s = .ok ieee ↔ Spells s ieee) ∧ ∀ ieee : Ieee, parse ieee.show = .ok ieee

theorem body_eq_iff {s : String} {cs : List Char} (hcs : 'x' ∉ cs ∧ 'X' ∉ cs) :
    body s.toList = cs ↔ Prefixed s cs := by
  rw [Prefixed]
  generalize s.toList = text
  rw [body.eq_def]
  split
  · rename_i rest
    have hne : '0' :: 'x' :: rest ≠ cs := by
      rintro rfl
      simp at hcs
    simp [hne]
  · rename_i rest
    have hne : '0' :: 'X' :: rest ≠ cs := by
      rintro rfl
      simp at hcs
    simp [hne]
  · rename_i hlower hupper
    have hl : text ≠ '0' :: 'x' :: cs := hlower cs
    have hu : text ≠ '0' :: 'X' :: cs := hupper cs
    simp [hl,hu]

theorem parse_eq (s : String) : parse s =
    if ((body s.toList).map Char.utf8Size).sum ≠ 16 then
      .error (.length ((body s.toList).map Char.utf8Size).sum)
    else match fromStrRadix 16 (2 ^ 64) (body s.toList) with
      | some raw => .ok ⟨.ofNat raw⟩
      | none => .error .notHex := rfl

theorem hex_ne {c : Char} (h : IsHexDigit c) : c ≠ 'x' ∧ c ≠ 'X' ∧ c ≠ '+' := by
  refine ⟨?_,?_,?_⟩ <;> rintro rfl <;> revert h <;> simp [IsHexDigit]

/-- What is read: sixteen digits, or fifteen after a plus sign. -/
theorem parse_eq_ok {s : String} {ieee : Ieee} : parse s = .ok ieee ↔
    ∃ ds, (body s.toList = ds ∧ ds.length = 16 ∨ body s.toList = '+'::ds ∧ ds.length = 15) ∧
      value 16 ds 0 = some ieee.raw.toNat := by
  have hplus : ('+' : Char).utf8Size = 1 := rfl
  rw [parse_eq]
  constructor
  · intro h
    split at h
    · cases h
    · rename_i hsize
      split at h
      · rename_i raw hraw
        obtain ⟨ds,hds,-,hvalue,hlt⟩ := fromStrRadix_eq_some.mp hraw
        have hlength := size_of_value hvalue
        refine ⟨ds,?_,?_⟩
        · rcases hds with ⟨hds,-⟩ | hds
          · rw [hds] at hsize
            exact .inl ⟨hds,by omega⟩
          · rw [hds,List.map_cons,List.sum_cons] at hsize
            exact .inr ⟨hds,by omega⟩
        · rw [← Except.ok.inj h,hvalue,UInt64.toNat_ofNat_of_lt' hlt]
      · cases h
  · rintro ⟨ds,hds,hvalue⟩
    have hlength := size_of_value hvalue
    have hread : fromStrRadix 16 (2 ^ 64) (body s.toList) = some ieee.raw.toNat := by
      refine fromStrRadix_eq_some.mpr ⟨ds,?_,?_,hvalue,ieee.raw.toNat_lt⟩
      · rcases hds with ⟨hds,-⟩ | ⟨hds,-⟩
        · refine .inl ⟨hds,fun hhead => ?_⟩
          exact digit_of_value hvalue (List.mem_of_mem_head? hhead) (by decide)
        · exact .inr hds
      · rintro rfl
        simp at hds
    have hsize : ((body s.toList).map Char.utf8Size).sum = 16 := by
      rcases hds with ⟨hds,hlen⟩ | ⟨hds,hlen⟩
      · rw [hds,hlength,hlen]
      · rw [hds,List.map_cons,List.sum_cons,hlength,hlen,hplus]
    rw [if_neg (not_not_intro hsize),hread]
    simp

theorem value_isSome_iff_hex {ds : List Char} :
    (∃ n, value 16 ds 0 = some n) ↔ ∀ c ∈ ds, IsHexDigit c := by
  rw [← Option.isSome_iff_exists,value_isSome_iff]
  exact forall₂_congr fun c _ => digitValue_ne_none_iff c

/-- An address is read exactly as it is spelled unless a plus sign stands for its first digit; what
is shown is always read back. -/
theorem readsExactly_iff (s : String) : ReadsExactly s ↔ ¬ Signed s := by
  have hletters {ds : List Char} (h : ∀ c ∈ ds, IsHexDigit c) : 'x' ∉ ds ∧ 'X' ∉ ds :=
    ⟨fun hx => (hex_ne (h _ hx)).1 rfl,fun hx => (hex_ne (h _ hx)).2.1 rfl⟩
  have hsigned {ds : List Char} (h : ∀ c ∈ ds, IsHexDigit c) :
      'x' ∉ '+'::ds ∧ 'X' ∉ '+'::ds := by simpa using hletters h
  constructor
  · rintro ⟨hreads,-⟩ ⟨ds,hds,hlength,hhex⟩
    obtain ⟨n,hn⟩ := value_isSome_iff_hex.mpr hhex
    have hlt : n < 2 ^ 64 := by
      have hvalue := value_lt hn
      rw [hlength] at hvalue
      omega
    let ieee : Ieee := ⟨.ofNat n⟩
    have hraw : value 16 ds 0 = some ieee.raw.toNat := by rw [UInt64.toNat_ofNat_of_lt' hlt,hn]
    have hbody := (body_eq_iff (hsigned hhex)).mpr hds
    obtain ⟨sign,hsign,-,hhexSign,-⟩ := (hreads ieee).mp (parse_eq_ok.mpr ⟨ds,.inr ⟨hbody,hlength⟩,hraw⟩)
    rw [← body_eq_iff (hletters hhexSign),hbody] at hsign
    exact (hex_ne (hhexSign '+' (hsign ▸ List.mem_cons_self))).2.2 rfl
  · intro hnone
    refine ⟨fun ieee => ?_,parse_show⟩
    rw [parse_eq_ok]
    constructor
    · rintro ⟨ds,hds,hvalue⟩
      have hhex := value_isSome_iff_hex.mp ⟨_,hvalue⟩
      rcases hds with ⟨hbody,hlength⟩ | ⟨hbody,hlength⟩
      · exact ⟨ds,(body_eq_iff (hletters hhex)).mp hbody,hlength,hhex,hvalue⟩
      · exact absurd ⟨ds,(body_eq_iff (hsigned hhex)).mp hbody,hlength,hhex⟩ hnone
    · rintro ⟨ds,hds,hlength,hhex,hvalue⟩
      exact ⟨ds,.inl ⟨(body_eq_iff (hletters hhex)).mpr hds,hlength⟩,hvalue⟩

/-- A sign and fifteen digits are an address. -/
theorem parse_signed : ¬ ∀ (s : String) (ieee : Ieee), parse s = .ok ieee ↔ Spells s ieee := by
  intro h
  have hparse : parse "+123456789abcdef" = .ok ⟨0x0123456789abcdef⟩ := by decide
  obtain ⟨ds,hds,-,hhex,-⟩ := (h _ _).mp hparse
  have hplus : ds.head? = some '+' := by
    rcases hds with hds | hds | hds
    · rw [← hds]
      decide
    · cases congrArg List.head? hds
    · cases congrArg List.head? hds
  exact (hex_ne (hhex '+' (List.mem_of_mem_head? hplus))).2.2 rfl

end Ieee
end Rszigbee
