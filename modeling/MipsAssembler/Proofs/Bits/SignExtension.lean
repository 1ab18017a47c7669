import Mathlib
import MipsAssembler.Bits

/-!
# Reading a field with a sign

`Bits.signExtend` flips the top bit of a field and takes the weight of that bit
away again.  Here it is shown to be what its name says: among the integers that
fit the field with a sign, it picks the one that agrees with the given integer
modulo the weight of the field.

Flipping the top bit is the only step that is not arithmetic.  `xor_weight` turns
it into arithmetic: below the top bit the flip adds its weight, and from there on
it subtracts it.
-/

namespace MipsAssembler
namespace Bits

theorem weight_eq (n : Nat) : weight n = 2 ^ n := rfl

theorem weight_succ (n : Nat) : weight (n + 1) = 2 * weight n := by
  rw [weight_eq, weight_eq, pow_succ, mul_comm]

theorem weight_pos (n : Nat) : 0 < weight n := by
  rw [weight_eq]
  exact Nat.two_pow_pos n

theorem fitsUnsigned_iff {x : Int} {n : Nat} :
    fitsUnsigned x n = true ↔ 0 ≤ x ∧ x < (weight n : Int) := by
  rw [fitsUnsigned, decide_eq_true_iff]

theorem fitsSigned_iff {x : Int} {n : Nat} :
    fitsSigned x n = true ↔ -(weight (n - 1) : Int) ≤ x ∧ x < (weight (n - 1) : Int) := by
  rw [fitsSigned, decide_eq_true_iff]

/-! ## The low bits of an integer -/

theorem low_cast (x : Int) (n : Nat) : (low x n : Int) = x % (weight n : Int) := by
  have hpos : (0 : Int) < weight n := by exact_mod_cast weight_pos n
  rw [low, Int.toNat_of_nonneg (Int.emod_nonneg x hpos.ne')]

theorem low_lt (x : Int) (n : Nat) : low x n < weight n := by
  have hpos : (0 : Int) < weight n := by exact_mod_cast weight_pos n
  have h := Int.emod_lt_of_pos x hpos
  rw [← low_cast] at h
  exact_mod_cast h

/-! ## Flipping the top bit -/

/-- Below the weight of bit `n`, flipping that bit adds the weight. -/
theorem xor_weight_of_lt {m n : Nat} (h : m < weight n) : m ^^^ weight n = m + weight n := by
  rw [weight_eq] at h ⊢
  have hdiv : (m ^^^ 2 ^ n) / 2 ^ n = 1 := by
    rw [Nat.xor_div_two_pow, Nat.div_eq_of_lt h, Nat.div_self (Nat.two_pow_pos n)]
    rfl
  have hmod : (m ^^^ 2 ^ n) % 2 ^ n = m := by
    rw [Nat.xor_mod_two_pow, Nat.mod_self, Nat.mod_eq_of_lt h, Nat.xor_zero]
  have hsplit := Nat.div_add_mod (m ^^^ 2 ^ n) (2 ^ n)
  rw [hdiv, hmod] at hsplit
  omega

/-- From the weight of bit `n` up to twice that weight, flipping the bit subtracts
the weight. -/
theorem xor_weight_of_ge {m n : Nat} (hlow : weight n ≤ m) (hhigh : m < 2 * weight n) :
    m ^^^ weight n = m - weight n := by
  obtain ⟨r, rfl⟩ := Nat.exists_eq_add_of_le hlow
  have hr : r < weight n := by omega
  have hflip : weight n + r = r ^^^ weight n := by
    rw [xor_weight_of_lt hr]
    exact Nat.add_comm _ _
  rw [Nat.add_sub_cancel_left]
  conv_lhs => rw [hflip]
  rw [Nat.xor_assoc, Nat.xor_self, Nat.xor_zero]

/-! ## Sign extension -/

/-- Sign extension keeps the low bits if the top one is clear, and otherwise takes
the weight of the field away. -/
theorem signExtend_succ (x : Int) (n : Nat) :
    signExtend x (n + 1) =
      if low x (n + 1) < weight n then (low x (n + 1) : Int)
      else (low x (n + 1) : Int) - weight (n + 1) := by
  have hlt := low_lt x (n + 1)
  rw [weight_succ] at hlt
  rw [signExtend, Nat.add_sub_cancel]
  split
  · next h =>
    rw [xor_weight_of_lt h]
    push_cast
    omega
  · next h =>
    rw [xor_weight_of_ge (by omega) hlt, weight_succ]
    push_cast
    omega

/-- The result of sign extension fits the field. -/
theorem fitsSigned_signExtend (x : Int) (n : Nat) :
    fitsSigned (signExtend x (n + 1)) (n + 1) = true := by
  have hlt := low_lt x (n + 1)
  rw [fitsSigned_iff, signExtend_succ, Nat.add_sub_cancel]
  rw [weight_succ] at hlt ⊢
  split <;> constructor <;> push_cast <;> omega

/-- Sign extension changes an integer by a multiple of the weight of the field. -/
theorem signExtend_emod (x : Int) (n : Nat) :
    signExtend x (n + 1) % (weight (n + 1) : Int) = x % (weight (n + 1) : Int) := by
  have hcast := low_cast x (n + 1)
  rw [signExtend_succ]
  split
  · rw [hcast, Int.emod_emod_of_dvd _ (dvd_refl _)]
  · rw [hcast, Int.sub_emod_right, Int.emod_emod_of_dvd _ (dvd_refl _)]

/-- Two integers that fit the field with a sign and agree modulo its weight are
equal. -/
theorem eq_of_fitsSigned_of_emod_eq {u v : Int} {n : Nat} (hu : fitsSigned u (n + 1) = true)
    (hv : fitsSigned v (n + 1) = true)
    (h : u % (weight (n + 1) : Int) = v % (weight (n + 1) : Int)) : u = v := by
  rw [fitsSigned_iff, Nat.add_sub_cancel] at hu hv
  rw [weight_succ] at h
  push_cast at h
  have hdvd : 2 * (weight n : Int) ∣ v - u := Int.ModEq.dvd h
  have hsmall : |v - u| < 2 * (weight n : Int) := by
    rw [abs_lt]
    constructor <;> omega
  have hzero := Int.eq_zero_of_abs_lt_dvd hdvd hsmall
  omega

/-- A field that holds a signed integer modulo its weight is read back as that
integer. -/
theorem signExtend_eq_of_emod_eq {x v : Int} {n : Nat} (hv : fitsSigned v (n + 1) = true)
    (h : x % (weight (n + 1) : Int) = v % (weight (n + 1) : Int)) :
    signExtend x (n + 1) = v :=
  eq_of_fitsSigned_of_emod_eq (fitsSigned_signExtend x n) hv ((signExtend_emod x n).trans h)

end Bits
end MipsAssembler
