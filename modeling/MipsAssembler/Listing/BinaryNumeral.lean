/-!
# Binary numerals

A listing may be made from words that are given as text.  Such a text is read
generously: blanks around it, one sign, a leading `0b` or `0B`, and single
underscores between digits are allowed, and one underscore may stand directly behind
the `0b`.  There is no limit to the number of digits.  The texts are taken to be of
the first 128 code points, so blanks and digits are the plain ones.
-/

namespace MipsAssembler
namespace BinaryNumeral

/-- The blanks that may surround a numeral. -/
def isSpace (c : Char) : Bool := c == ' ' || ('\x09' ≤ c && c ≤ '\x0d')

/-- A text without the blanks around it. -/
def strip (cs : List Char) : List Char :=
  ((cs.dropWhile isSpace).reverse.dropWhile isSpace).reverse

/-- The value of a row of binary digits, where `value` stands for those before it and
`afterDigit` says whether the last character was a digit.  An underscore must have a
digit on both sides. -/
def digits (afterDigit : Bool) (value : Nat) : List Char → Option Nat
  | [] => if afterDigit then some value else none
  | '0' :: cs => digits true (2 * value) cs
  | '1' :: cs => digits true (2 * value + 1) cs
  | '_' :: cs => if afterDigit then digits false value cs else none
  | _ => none

/-- A row of digits behind an optional `0b` and its optional underscore. -/
def magnitude? : List Char → Option Nat
  | '0' :: 'b' :: '_' :: cs => digits false 0 cs
  | '0' :: 'B' :: '_' :: cs => digits false 0 cs
  | '0' :: 'b' :: cs => digits false 0 cs
  | '0' :: 'B' :: cs => digits false 0 cs
  | cs => digits false 0 cs

/-- A numeral without surrounding blanks. -/
def signed? : List Char → Option Int
  | '-' :: cs => (magnitude? cs).map fun n => -(n : Int)
  | '+' :: cs => (magnitude? cs).map Int.ofNat
  | cs => (magnitude? cs).map Int.ofNat

/-- The integer that a text spells in binary. -/
def value? (text : String) : Option Int := signed? (strip text.toList)

end BinaryNumeral
end MipsAssembler
