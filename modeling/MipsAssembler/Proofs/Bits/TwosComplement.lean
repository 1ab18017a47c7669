import Mathlib
import MipsAssembler.Bits.Width
import MipsAssembler.Proofs.Bits.SignExtension

/-!
# Two's complement and sign extension are inverse

A field of `n` bits has two readings: as an integer with a sign, from minus the weight of its
top bit up to that weight, and as one without, from zero up to the weight of bit `n`.
`twosComplement` goes from the first reading to the second and `signExtend` back, and here
they are shown to be inverse bijections between the two ranges, at every positive width.

## Why the two agree

The two functions have nothing in common as programs: one adds a weight if the integer is
negative, the other masks, flips a bit and subtracts.  What they share is that neither changes
an integer modulo `2 ^ n` (`twosComplement_modEq`, `signExtend_modEq`), and that each range has
one integer for every residue.  So neither has to be looked at again: the integer that comes
back is in the right range and has the right residue.

Outside the ranges the functions are not symmetric.  `signExtend` always ends in the signed
range, whatever it is given.  `twosComplement` checks nothing, and far enough from zero its
result is no field at all; but sign extension undoes it exactly on the signed range, since
nothing else can come back.
-/

namespace MipsAssembler
namespace Bits

/-! ## The two ranges -/

theorem weight_natCast (n : Nat) : (weight n : Int) = 2 ^ n := by
  rw [weight_eq]
  push_cast
  rfl

theorem fitsSigned_iff_mem {x : Int} {n : Nat} :
    fitsSigned x n = true ↔ x ∈ Set.Ico (-(2 : Int) ^ (n - 1)) (2 ^ (n - 1)) := by
  rw [fitsSigned_iff, weight_natCast, Set.mem_Ico]

theorem fitsUnsigned_iff_mem {x : Int} {n : Nat} :
    fitsUnsigned x n = true ↔ x ∈ Set.Ico (0 : Int) (2 ^ n) := by
  rw [fitsUnsigned_iff, weight_natCast, Set.mem_Ico]

/-! ## Residues -/

section Residues

variable {x r : Int} {n : Nat}

theorem twosComplement_modEq (x : Int) (n : Nat) : twosComplement x n ≡ x [ZMOD 2 ^ n] := by
  rw [twosComplement, weight_natCast]
  split
  · exact Int.add_modEq_right
  · exact Int.ModEq.refl x

theorem signExtend_modEq (hn : 1 ≤ n) (x : Int) : signExtend x n ≡ x [ZMOD 2 ^ n] := by
  obtain ⟨m, rfl⟩ := Nat.exists_eq_add_of_le' hn
  have hmod := signExtend_emod x m
  rwa [weight_natCast] at hmod

theorem fitsSigned_signExtend_of_pos (hn : 1 ≤ n) (x : Int) :
    fitsSigned (signExtend x n) n = true := by
  obtain ⟨m, rfl⟩ := Nat.exists_eq_add_of_le' hn
  exact fitsSigned_signExtend x m

/-- Sign extension picks the one integer of the signed range with a given residue. -/
theorem eq_signExtend_iff (hn : 1 ≤ n) :
    r = signExtend x n ↔ fitsSigned r n = true ∧ r ≡ x [ZMOD 2 ^ n] := by
  constructor
  · rintro rfl
    exact ⟨fitsSigned_signExtend_of_pos hn x, signExtend_modEq hn x⟩
  · rintro ⟨hfits, hmod⟩
    obtain ⟨m, rfl⟩ := Nat.exists_eq_add_of_le' hn
    refine (signExtend_eq_of_emod_eq hfits ?_).symm
    rw [weight_natCast]
    exact hmod.symm

/-- An integer of the unsigned range is its own residue. -/
theorem eq_of_fitsUnsigned_of_modEq {u v : Int} (hu : fitsUnsigned u n = true)
    (hv : fitsUnsigned v n = true) (h : u ≡ v [ZMOD 2 ^ n]) : u = v := by
  rw [fitsUnsigned_iff_mem, Set.mem_Ico] at hu hv
  calc u = u % 2 ^ n := (Int.emod_eq_of_lt hu.1 hu.2).symm
    _ = v % 2 ^ n := h
    _ = v := Int.emod_eq_of_lt hv.1 hv.2

end Residues

/-! ## There and back -/

section Inverse

variable {x : Int} {n : Nat}

/-- The two's complement of an integer that fits with a sign fits without one. -/
theorem fitsUnsigned_twosComplement (hn : 1 ≤ n) (h : fitsSigned x n = true) :
    fitsUnsigned (twosComplement x n) n = true := by
  obtain ⟨m, rfl⟩ := Nat.exists_eq_add_of_le' hn
  have hpos := weight_pos m
  rw [fitsSigned_iff, Nat.add_sub_cancel] at h
  rw [fitsUnsigned_iff, twosComplement, weight_succ]
  push_cast
  split <;> constructor <;> omega

/-- Sign extension undoes two's complement exactly for the integers that fit. -/
theorem signExtend_twosComplement_eq_iff (hn : 1 ≤ n) :
    signExtend (twosComplement x n) n = x ↔ fitsSigned x n = true := by
  rw [eq_comm, eq_signExtend_iff hn]
  exact and_iff_left (twosComplement_modEq x n).symm

/-- Two's complement undoes sign extension for the integers that fit without a sign. -/
theorem twosComplement_signExtend (hn : 1 ≤ n) (h : fitsUnsigned x n = true) :
    twosComplement (signExtend x n) n = x := by
  have hfits := fitsUnsigned_twosComplement hn (fitsSigned_signExtend_of_pos hn x)
  have hmod : twosComplement (signExtend x n) n ≡ x [ZMOD 2 ^ n] :=
    (twosComplement_modEq _ n).trans (signExtend_modEq hn x)
  exact eq_of_fitsUnsigned_of_modEq hfits h hmod

end Inverse

/-! ## At every width -/

section Widths

variable {n : Nat}

/-- None of the four rules refuses a positive width. -/
theorem ok_of_width_pos (hn : 1 ≤ n) (x : Int) :
    signExtendAt x n = .ok (signExtend x n) ∧ twosComplementAt x n = .ok (twosComplement x n) ∧
      fitsSignedAt x n = .ok (fitsSigned x n) ∧ fitsUnsignedAt x n = .ok (fitsUnsigned x n) := by
  have hpos : ¬ (n : Int) ≤ 0 := by omega
  have hshift : ¬ (x < 0 ∧ (n : Int) < 0) := by omega
  refine ⟨if_neg hpos, if_neg hshift, if_neg hpos, if_neg hpos⟩

theorem invOn_signExtend_twosComplement (hn : 1 ≤ n) :
    Set.InvOn (signExtend · n) (twosComplement · n) (Set.Ico (-(2 : Int) ^ (n - 1)) (2 ^ (n - 1)))
      (Set.Ico 0 (2 ^ n)) := by
  constructor
  · intro x hx
    exact (signExtend_twosComplement_eq_iff hn).mpr (fitsSigned_iff_mem.mpr hx)
  · intro x hx
    exact twosComplement_signExtend hn (fitsUnsigned_iff_mem.mpr hx)

theorem bijOn_twosComplement (hn : 1 ≤ n) :
    Set.BijOn (twosComplement · n) (Set.Ico (-(2 : Int) ^ (n - 1)) (2 ^ (n - 1)))
      (Set.Ico 0 (2 ^ n)) := by
  refine (invOn_signExtend_twosComplement hn).bijOn (fun x hx => ?_) fun x _ => ?_
  · exact fitsUnsigned_iff_mem.mp (fitsUnsigned_twosComplement hn (fitsSigned_iff_mem.mpr hx))
  · exact fitsSigned_iff_mem.mp (fitsSigned_signExtend_of_pos hn x)

/-- **Two's complement and sign extension are inverse at every positive width.**  No positive
width is refused.  Sign extension gives the one integer of the signed range that agrees with the
given one modulo `2 ^ n`; it undoes two's complement exactly on the signed range, whose two's
complements fit without a sign, and is undone by it on the unsigned range.  So the two are
inverse bijections between the ranges. -/
theorem twosComplement_signExtend_inverse (n : Nat) (hn : 1 ≤ n) :
    (∀ x : Int, signExtendAt x n = .ok (signExtend x n) ∧
      twosComplementAt x n = .ok (twosComplement x n) ∧
      fitsSignedAt x n = .ok (fitsSigned x n) ∧ fitsUnsignedAt x n = .ok (fitsUnsigned x n)) ∧
    (∀ x r : Int, r = signExtend x n ↔ fitsSigned r n = true ∧ r ≡ x [ZMOD 2 ^ n]) ∧
    (∀ x : Int, signExtend (twosComplement x n) n = x ↔ fitsSigned x n = true) ∧
    (∀ x : Int, fitsSigned x n = true → fitsUnsigned (twosComplement x n) n = true) ∧
    (∀ x : Int, fitsUnsigned x n = true → twosComplement (signExtend x n) n = x) ∧
    (∀ x : Int, fitsSigned x n = true ↔ x ∈ Set.Ico (-(2 : Int) ^ (n - 1)) (2 ^ (n - 1))) ∧
    (∀ x : Int, fitsUnsigned x n = true ↔ x ∈ Set.Ico (0 : Int) (2 ^ n)) ∧
    Set.BijOn (twosComplement · n) (Set.Ico (-(2 : Int) ^ (n - 1)) (2 ^ (n - 1)))
      (Set.Ico 0 (2 ^ n)) ∧
    Set.BijOn (signExtend · n) (Set.Ico 0 (2 ^ n))
      (Set.Ico (-(2 : Int) ^ (n - 1)) (2 ^ (n - 1))) ∧
    Set.InvOn (signExtend · n) (twosComplement · n) (Set.Ico (-(2 : Int) ^ (n - 1)) (2 ^ (n - 1)))
      (Set.Ico 0 (2 ^ n)) := by
  have hinv := invOn_signExtend_twosComplement hn
  have hbij := bijOn_twosComplement hn
  refine ⟨ok_of_width_pos hn, fun x r => eq_signExtend_iff hn,
    fun x => signExtend_twosComplement_eq_iff hn, fun x => fitsUnsigned_twosComplement hn,
    fun x => twosComplement_signExtend hn, fun x => fitsSigned_iff_mem,
    fun x => fitsUnsigned_iff_mem, hbij, ?_, hinv⟩
  exact (Set.bijOn_comm hinv).mpr hbij

/-- At one bit the only negative integer is `-1`, and its field is `1`; the integer `-2` does not
fit, and does not come back. -/
theorem twosComplement_signExtend_inverse_one :
    1 ≤ 1 ∧ fitsSigned (-1) 1 = true ∧ twosComplement (-1) 1 = 1 ∧
      signExtend (twosComplement (-1) 1) 1 = -1 ∧ signExtend (twosComplement (-2) 1) 1 ≠ -2 := by
  obtain ⟨-, -, hback, -⟩ := twosComplement_signExtend_inverse 1 le_rfl
  refine ⟨le_rfl, by decide, by decide, (hback (-1)).mpr (by decide), ?_⟩
  exact fun h => absurd ((hback (-2)).mp h) (by decide)

end Widths

end Bits
end MipsAssembler
