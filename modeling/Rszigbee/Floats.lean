import Mathlib.Data.Rat.Lemmas
import Mathlib.Algebra.Order.Field.Power
import Mathlib.Algebra.Order.Field.Rat
import Mathlib.Tactic.FieldSimp

/-! The numbers that double-precision floats are. -/
namespace Rszigbee
namespace Floats

/-- What is finite is a number: a whole one times a power of two. -/
def number (x : Float) : Option ℚ :=
  match x.toModel.unpack with
  | .zero _ => some 0
  | .finite sign mantissa exponent _ => some (match sign with
    | .positive => mantissa * 2 ^ exponent
    | .negative => -(mantissa * 2 ^ exponent))
  | _ => none

/-- `mantissa * 2 ^ exponent` as an integer; half-way cases go up. -/
def rounded (mantissa : ℕ) (exponent : ℤ) : ℕ :=
  if 0 ≤ exponent then mantissa <<< exponent.toNat
  else (mantissa + 1 <<< ((-exponent).toNat - 1)) >>> (-exponent).toNat

/-- The same where there is nothing to round. -/
def exactly (mantissa : ℕ) (exponent : ℤ) : Option ℕ :=
  if 0 ≤ exponent ∨ mantissa % 2 ^ (-exponent).toNat = 0 then some (rounded mantissa exponent)
  else none

theorem rounded_of_exactly {mantissa n : ℕ} {exponent : ℤ} (h : exactly mantissa exponent = some n) :
    rounded mantissa exponent = n := (Option.ite_none_right_eq_some.mp h).2 |> Option.some.inj

/-- Rounding does nothing to a multiple. -/
theorem rounded_of_dvd {mantissa k : ℕ} (h : mantissa % 2 ^ k = 0) :
    rounded mantissa (-k) = mantissa / 2 ^ k := by
  cases k with
  | zero => simp [rounded]
  | succ k =>
    have hneg : ¬ 0 ≤ -((k + 1 : ℕ) : ℤ) := by omega
    have hpos : 0 < 2 ^ (k + 1) := Nat.two_pow_pos _
    have hhalf : 2 ^ k < 2 ^ (k + 1) := Nat.pow_lt_pow_right (by decide) (Nat.lt_succ_self k)
    obtain ⟨q,rfl⟩ := Nat.dvd_of_mod_eq_zero h
    rw [rounded,if_neg hneg,neg_neg,Int.toNat_natCast,Nat.add_sub_cancel,
      Nat.shiftRight_eq_div_pow,Nat.one_shiftLeft,Nat.mul_add_div hpos,Nat.div_eq_of_lt hhalf,
      Nat.add_zero,Nat.mul_div_cancel_left q hpos]

/-- A number as an integer, when it is one. -/
def whole (q : ℚ) : Option ℤ := if q.den = 1 then some q.num else none

theorem whole_eq_some {q : ℚ} {n : ℤ} : whole q = some n ↔ q = n := by
  rw [whole]
  constructor
  · intro h
    obtain ⟨hden,hnum⟩ := Option.ite_none_right_eq_some.mp h
    rw [← Option.some.inj hnum]
    exact ((Rat.den_eq_one_iff q).mp hden).symm
  · rintro rfl
    simp

theorem whole_neg (q : ℚ) : whole (-q) = (whole q).map fun n => -n := by
  rw [whole,whole,Rat.neg_den,Rat.neg_num]
  split
  · rfl
  · rfl

/-- A multiple of a power of two is whole when the power is, or the multiple has it as a factor. -/
theorem whole_mul_zpow (mantissa : ℕ) (exponent : ℤ) :
    whole (mantissa * 2 ^ exponent) = (exactly mantissa exponent).map Int.ofNat := by
  rw [exactly]
  by_cases hexponent : 0 ≤ exponent
  · rw [if_pos (.inl hexponent),Option.map_some,rounded,if_pos hexponent]
    obtain ⟨k,rfl⟩ := Int.eq_ofNat_of_zero_le hexponent
    rw [whole_eq_some,Int.toNat_natCast,Nat.shiftLeft_eq]
    simp
  · obtain ⟨k,rfl⟩ : ∃ k : ℕ, exponent = -k := ⟨(-exponent).toNat,by omega⟩
    have hpos : (2 : ℚ) ^ k ≠ 0 := pow_ne_zero k (by decide)
    rw [neg_neg,Int.toNat_natCast,zpow_neg,zpow_natCast]
    by_cases hdvd : mantissa % 2 ^ k = 0
    · rw [if_pos (.inr hdvd),Option.map_some,whole_eq_some,rounded_of_dvd hdvd]
      have hmantissa : mantissa = mantissa / 2 ^ k * 2 ^ k :=
        (Nat.div_mul_cancel (Nat.dvd_of_mod_eq_zero hdvd)).symm
      have hcast : (mantissa : ℚ) = (mantissa / 2 ^ k : ℕ) * 2 ^ k := by exact_mod_cast hmantissa
      rw [hcast,mul_assoc,mul_inv_cancel₀ hpos,mul_one]
      rfl
    · rw [if_neg (not_or.mpr ⟨hexponent,hdvd⟩),Option.map_none,Option.eq_none_iff_forall_ne_some]
      intro n hn
      have heq : (mantissa : ℚ) * (2 ^ k)⁻¹ = n := whole_eq_some.mp hn
      have hmul : (mantissa : ℚ) = n * 2 ^ k := by
        rw [← heq,mul_assoc,inv_mul_cancel₀ hpos,mul_one]
      have hint : (mantissa : ℤ) = n * 2 ^ k := by exact_mod_cast hmul
      have hzero : (mantissa : ℤ) % (2 ^ k : ℕ) = 0 := by
        rw [hint]
        simp
      exact hdvd (by exact_mod_cast hzero)

end Floats
end Rszigbee
