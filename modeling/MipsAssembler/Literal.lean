import MipsAssembler.Token

/-!
# Literals

The four kinds of operand that a token can spell: a decimal numeral, a register,
the name of a label, and an access to memory written `offset(register)`.  Each
reader takes a whole token and either returns its value or says what was expected
there.

Two rules are worth stating because they are easy to lose.  A numeral may be
followed by one line feed, which no scanned token contains but a token from
elsewhere may.  And a numeral has at most `maxDigits` digits, leading zeros
included, so that its value can always be written out again; a longer one is a
range fault, whichever operand it stands in.
-/

namespace MipsAssembler
namespace Literal

/-! ## Numerals -/

/-- The ten digits. -/
def isDigit (c : Char) : Bool := '0' ≤ c && c ≤ '9'

/-- The value of a digit. -/
def digitValue (c : Char) : Nat := c.toNat - '0'.toNat

/-- The value of a row of digits, most significant first. -/
def decimal (cs : List Char) : Nat := cs.foldl (fun n c => 10 * n + digitValue c) 0

/-- A text without its last character if that is a line feed. -/
def dropFinalNewline (cs : List Char) : List Char :=
  if cs.getLast? = some '\n' then cs.dropLast else cs

/-- The sign of a numeral, `true` for a minus, and what follows it. -/
def splitSign : List Char → Bool × List Char
  | '-' :: cs => (true, cs)
  | cs => (false, cs)

/-- A decimal numeral: an optional minus, one or more digits, and at most one
line feed after them. -/
def numeral (token : Token) : Except Fault Int :=
  let (negative, digits) := splitSign (dropFinalNewline token.toList)
  if digits.isEmpty || !digits.all isDigit then
    .error (.expectedNumeral token)
  else if maxDigits < digits.length then
    .error (.numeralTooLong token.length)
  else if negative then
    .ok (-(decimal digits : Int))
  else
    .ok (decimal digits : Int)

/-! ## Registers -/

/-- The register with a given number. -/
def register? (n : Int) : Option Register :=
  if h : 0 ≤ n ∧ n < registerCount then
    some ⟨n.toNat, by omega⟩
  else
    none

/-- A register: a dollar sign and the numeral of one of the registers.  A token
that is not of this form is quoted whole; a numeral that is too long is reported
as such. -/
def register (token : Token) : Except Fault Register :=
  match token.toList with
  | '$' :: cs =>
    match numeral (String.ofList cs) with
    | .error (.expectedNumeral _) => .error (.expectedRegister token)
    | .error fault => .error fault
    | .ok n =>
      match register? n with
      | some r => .ok r
      | none => .error (.noSuchRegister token)
  | _ => .error (.expectedRegister token)

/-! ## Labels -/

/-- The name of a label: nonempty, not beginning with a digit, without a colon.
Any other character is allowed. -/
def label (token : Token) : Except Fault String :=
  match token.toList with
  | [] => .error .expectedLabel
  | c :: cs =>
    if isDigit c then .error (.labelStartsWithDigit token)
    else if (c :: cs).contains ':' then .error (.labelContainsColon token)
    else .ok token

/-! ## Memory accesses -/

/-- The text inside the first pair of parentheses is the base register, and the
text before them the offset, which is read first.  Both parentheses must be
there; what follows the closing one is ignored. -/
def access (token : Token) : Except Fault (Int × Register) :=
  let cs := token.toList
  if cs.contains '(' && cs.contains ')' then do
    let offset ← numeral (String.ofList (cs.takeWhile (· != '(')))
    let inside := (cs.dropWhile (· != '(')).drop 1
    let base ← register (String.ofList (inside.takeWhile (· != ')')))
    return (offset, base)
  else
    .error (.expectedAccess token)

/-! ## Commas -/

/-- The comma between two operands. -/
def comma (token : Token) : Except Fault Unit :=
  if token = Token.comma then .ok () else .error (.expectedComma token)

end Literal
end MipsAssembler
