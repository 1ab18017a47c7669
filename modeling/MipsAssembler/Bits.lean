/-!
# Integers read and written at a width

The assembler keeps every operand as an integer of any size until the moment it
is packed, so the rules that connect an integer with a fixed number of bits are
stated here once, for all integers and all widths, rather than for the three or
four widths that an instruction word happens to use.

* `fitsUnsigned`, `fitsSigned`: which integers a field of `n` bits can hold.
* `twosComplement`: the nonnegative integer that stands for a negative one.
* `signExtend`: the way back, from the low `n` bits of an integer.
* `toBinary`, `hex32`: the text of an integer, in binary with a least width and
  in hexadecimal at exactly eight digits.

Widths are natural numbers here.  A caller who has an arbitrary integer for a
width goes through `Bits.Width`, which says what is wrong with a bad one.
-/

namespace MipsAssembler
namespace Bits

/-- The weight of bit `n`, which is two to the power `n`. -/
def weight (n : Nat) : Nat := Nat.pow 2 n

/-- The low `n` bits of an integer: its remainder on division by the weight of bit `n`,
which is never negative. -/
def low (x : Int) (n : Nat) : Nat := (x % (weight n : Int)).toNat

/-- The low 32 bits of an integer. -/
def low32 (x : Int) : Nat := low x 32

/-- A field of `n` unsigned bits holds the integers from zero up to the weight of
bit `n`. -/
def fitsUnsigned (x : Int) (n : Nat) : Bool := decide (0 ≤ x ∧ x < (weight n : Int))

/-- A field of `n` signed bits holds the integers from minus the weight of its top bit up
to that weight. -/
def fitsSigned (x : Int) (n : Nat) : Bool :=
  decide (-(weight (n - 1) : Int) ≤ x ∧ x < (weight (n - 1) : Int))

/-- A negative integer is moved up by the weight of bit `n`; any other stands for itself.
No range is checked: far enough below zero the result is still negative. -/
def twosComplement (x : Int) (n : Nat) : Int := if x < 0 then x + (weight n : Int) else x

/-- The low `n` bits of `x`, read with the top one as a sign: flip that bit, and take its
weight away again. -/
def signExtend (x : Int) (n : Nat) : Int :=
  ((low x n ^^^ weight (n - 1) : Nat) : Int) - (weight (n - 1) : Int)

/-- The digits of a natural number in base `b`, most significant first. -/
def digits (b x : Nat) : List Char := Nat.toDigits b x

/-- Zeros in front of `text` until it has `width` characters. -/
def padded (width : Nat) (text : List Char) : List Char :=
  List.replicate (width - text.length) '0' ++ text

/-- The binary text of `x`, at least `width` characters long.  The sign of a
negative integer comes first and counts towards the width; a longer text is
never cut. -/
def toBinary (x : Int) (width : Nat) : String :=
  if x < 0 then
    String.ofList ('-' :: padded (width - 1) (digits 2 x.natAbs))
  else
    String.ofList (padded width (digits 2 x.natAbs))

/-- The low 32 bits of `x` as eight lower-case hexadecimal digits. -/
def hex32 (x : Int) : String := String.ofList (padded 8 (digits 16 (low32 x)))

end Bits
end MipsAssembler
