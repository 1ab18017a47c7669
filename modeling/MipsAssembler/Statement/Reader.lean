import MipsAssembler.Literal
import MipsAssembler.Statement

/-!
# Reading statements from tokens

Statements need no separators: the first token of a statement says how many more
belong to it.  A token that ends in a colon is a label and stands alone; the data
directive takes one numeral; an instruction takes the operands of its form, with
commas between them.

An operand that is not there is read as the empty token.  No literal is empty, so
running out of tokens is never accepted, and it is reported like any other wrong
token, as found empty.

The order in which operands are checked is part of the behaviour, since only the
first fault is reported.  Every form is checked from left to right, except that a
branch looks at its second register first, then at the comma before it, and only
then at its first register.
-/

namespace MipsAssembler
namespace Statement

/-- The `k`-th token after the first one of a statement, counting from zero. -/
def operandAt (rest : List Token) (k : Nat) : Token := rest.getD k ""

/-- The operands of an instruction, read from the tokens that follow its mnemonic,
and the number of tokens they take. -/
def readOperands (m : Mnemonic) (rest : List Token) : Except Fault (Statement × Nat) :=
  match m with
  | .arith op => do
    let rd ← Literal.register (operandAt rest 0)
    Literal.comma (operandAt rest 1)
    let rs ← Literal.register (operandAt rest 2)
    Literal.comma (operandAt rest 3)
    let rt ← Literal.register (operandAt rest 4)
    return (arith op rd rs rt, 5)
  | .addi => do
    let rd ← Literal.register (operandAt rest 0)
    Literal.comma (operandAt rest 1)
    let rs ← Literal.register (operandAt rest 2)
    Literal.comma (operandAt rest 3)
    let value ← Literal.numeral (operandAt rest 4)
    return (addi rd rs value, 5)
  | .beq => do
    let second ← Literal.register (operandAt rest 2)
    Literal.comma (operandAt rest 1)
    let first ← Literal.register (operandAt rest 0)
    Literal.comma (operandAt rest 3)
    let target ← Literal.label (operandAt rest 4)
    return (beq first second target, 5)
  | .j => do
    let target ← Literal.label (operandAt rest 0)
    return (jump target, 1)
  | .access op => do
    let rd ← Literal.register (operandAt rest 0)
    Literal.comma (operandAt rest 1)
    let (offset, base) ← Literal.access (operandAt rest 2)
    return (access op rd base offset, 3)

/-- One statement whose first token is `token`, and the number of tokens after that
one which it takes. -/
def readOne (token : Token) (rest : List Token) : Except Fault (Statement × Nat) :=
  if token.toList.getLast? = some ':' then do
    let name ← Literal.label (String.ofList token.toList.dropLast)
    return (label name, 0)
  else if token = dataDirective then do
    let value ← Literal.numeral (operandAt rest 0)
    return (data value, 1)
  else
    match Mnemonic.ofName? token with
    | some m => readOperands m rest
    | none => .error (.unknownInstruction token)

/-- The statements spelled by `tokens`, behind the statements `done`, latest
first. -/
def readFrom (done : List Statement) : List Token → Except Fault (List Statement)
  | [] => .ok done.reverse
  | token :: rest =>
    match readOne token rest with
    | .error fault => .error fault
    | .ok (statement, taken) => readFrom (statement :: done) (rest.drop taken)
termination_by tokens => tokens.length
decreasing_by
  simp only [List.length_drop, List.length_cons]
  omega

/-- The program spelled by a list of tokens. -/
def read (tokens : List Token) : Except Fault (List Statement) := readFrom [] tokens

end Statement
end MipsAssembler
