import MipsAssembler.Bits

/-!
# Widths that are given as integers

The rules of `Bits` take a natural number for the width, and most of them make
sense only for a positive one.  A caller from outside has an integer.  The
functions here take that integer, and each refuses exactly the widths at which
its rule has no meaning.  They differ: extending a sign and asking whether an
integer fits need a positive width; writing in binary needs one that is not
negative; and two's complement looks at its width only when the integer is
negative, because a nonnegative one is left alone whatever the width.
-/

namespace MipsAssembler
namespace Bits

/-- Why a width was refused. -/
inductive WidthError where
  | noBitsToExtend
  | noBitsToFit
  | negativeShift
  | negativeFieldWidth (width : Int)
  deriving DecidableEq, Repr, Inhabited

/-- The text shown for a refused width. -/
def WidthError.message : WidthError → String
  | .noBitsToExtend => "bits debe ser positivo"
  | .noBitsToFit => "n debe ser positivo"
  | .negativeShift => "negative shift count"
  | .negativeFieldWidth width => s!"Invalid format specifier '0{width}b' for object of type 'int'"

/-- Sign extension at a positive width. -/
def signExtendAt (x width : Int) : Except WidthError Int :=
  if width ≤ 0 then .error .noBitsToExtend else .ok (signExtend x width.toNat)

/-- Whether `x` fits a positive number of unsigned bits. -/
def fitsUnsignedAt (x width : Int) : Except WidthError Bool :=
  if width ≤ 0 then .error .noBitsToFit else .ok (fitsUnsigned x width.toNat)

/-- Whether `x` fits a positive number of signed bits. -/
def fitsSignedAt (x width : Int) : Except WidthError Bool :=
  if width ≤ 0 then .error .noBitsToFit else .ok (fitsSigned x width.toNat)

/-- Two's complement, whose width is looked at only for a negative integer. -/
def twosComplementAt (x width : Int) : Except WidthError Int :=
  if x < 0 ∧ width < 0 then .error .negativeShift else .ok (twosComplement x width.toNat)

/-- Binary text at a least width that is not negative. -/
def toBinaryAt (x width : Int) : Except WidthError String :=
  if width < 0 then .error (.negativeFieldWidth width) else .ok (toBinary x width.toNat)

end Bits
end MipsAssembler
