import Mathlib.Data.Nat.Digits.Defs
import Mathlib.Data.UInt

/-! Numbers as bytes, least significant byte first. -/
namespace Rszigbee
namespace LittleEndian

/-- The number some bytes denote. -/
def value (bytes : List UInt8) : ℕ := Nat.ofDigits 256 (bytes.map UInt8.toNat)

/-- The lowest bytes of a number. -/
def bytes : ℕ → ℕ → List UInt8
  | 0, _ => []
  | n+1, v => UInt8.ofNat v::bytes n (v / 256)

@[simp] theorem value_nil : value [] = 0 := rfl

@[simp] theorem value_cons (b : UInt8) (bs : List UInt8) :
    value (b::bs) = b.toNat + 256 * value bs := Nat.ofDigits_cons ..

@[simp] theorem length_bytes (n v : ℕ) : (bytes n v).length = n := by
  induction n generalizing v with
  | zero => rfl
  | succ n ih => rw [bytes,List.length_cons,ih]

theorem value_lt (bs : List UInt8) : value bs < 256 ^ bs.length := by
  induction bs with
  | nil => decide
  | cons b bs ih =>
    have hb : b.toNat < 256 := b.toNat_lt
    rw [value_cons,List.length_cons,pow_succ]
    omega

theorem value_bytes (n v : ℕ) : value (bytes n v) = v % 256 ^ n := by
  induction n generalizing v with
  | zero => rw [bytes,value_nil,pow_zero,Nat.mod_one]
  | succ n ih =>
    have hlow : (UInt8.ofNat v).toNat = v % 256 := UInt8.toNat_ofNat'
    rw [bytes,value_cons,ih,hlow,pow_succ,mul_comm (256 ^ n),Nat.mod_mul]

/-- What fits is read back. -/
theorem value_bytes_of_lt {n v : ℕ} (h : v < 256 ^ n) : value (bytes n v) = v := by
  rw [value_bytes,Nat.mod_eq_of_lt h]

/-- As many bytes denote a number in one way only. -/
theorem value_inj {as bs : List UInt8} (hlength : as.length = bs.length) :
    value as = value bs ↔ as = bs := by
  constructor
  · intro h
    have hsmall : ∀ cs : List UInt8, ∀ d ∈ cs.map UInt8.toNat, d < 256 := by
      intro cs d hd
      obtain ⟨b,-,rfl⟩ := List.mem_map.mp hd
      exact b.toNat_lt
    have hmap := Nat.ofDigits_inj_of_len_eq (by decide) (by simpa using hlength) (hsmall as)
      (hsmall bs) h
    exact List.map_injective_iff.mpr (fun _ _ => UInt8.toNat_inj.mp) hmap
  · intro h
    rw [h]

end LittleEndian
end Rszigbee
