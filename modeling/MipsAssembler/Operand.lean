/-!
# Registers and operands

There are two ways to name what an instruction works on, and both are kept.  A
statement that was read from source text names a register by a value of
`Register`, of which there are exactly 32, so a statement cannot name a register
that does not exist.  An item that is handed to the later stages carries
`Operand`s, which are integers, names, or values of any other sort, without any
promise; the stages that consume them check them, and their faults quote the
operand as it was given.

To quote an integer is to write it in decimal, and decimal numerals have a
greatest length, the same for reading and for writing.  An integer that is too
long has no text to be quoted by.
-/

namespace MipsAssembler

/-- The number of general registers. -/
def registerCount : Nat := 32

/-- A general register, by its number. -/
abbrev Register := Fin registerCount

namespace Literal

/-- The most digits a numeral may have. -/
def maxDigits : Nat := 4300

/-- Whether an integer has no more digits than a numeral may have. -/
def isWritable (n : Int) : Bool := decide (n.natAbs < Nat.pow 10 maxDigits)

end Literal

/-- A value that is neither a number nor a name nor a part of a program.  A fault that
refuses it shows the name of its type or the value itself, as `shown`; only a value that
is `hashable` can be looked up in a table.  The text is carried along so that a stage
which lets the value pass returns it as it came. -/
structure Foreign where
  typeName : String
  shown : String
  hashable : Bool
  text : String
  deriving DecidableEq, Repr, Inhabited

/-- One argument of an operation or a directive: a number, the name of a label, or
something else. -/
inductive Operand where
  | number (value : Int)
  | name (text : String)
  | foreign (value : Foreign)
  deriving DecidableEq, Repr, Inhabited

namespace Operand

/-- An operand as it is quoted in messages: a number in decimal, a name as it
stands. -/
def text : Operand → String
  | number value => toString value
  | name text => text
  | foreign value => value.shown

/-- Whether an operand can be quoted. -/
def isQuotable : Operand → Bool
  | number value => Literal.isWritable value
  | _ => true

/-- The name of the type of an operand. -/
def typeName : Operand → String
  | number _ => "int"
  | name _ => "str"
  | foreign value => value.typeName

/-- A register as the operand that carries its number. -/
def ofRegister (r : Register) : Operand := number (r.val : Int)

end Operand
end MipsAssembler
