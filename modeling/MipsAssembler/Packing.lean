import MipsAssembler.Bits
import MipsAssembler.Item
import MipsAssembler.Literal
import MipsAssembler.Word

/-!
# Packing items into words

Every item with a slot becomes one word.  The packer trusts nothing about an item:
it reads each operand it needs, in a fixed order, and the first one that is missing
or wrong is the fault.  Anything but a number in the place of an immediate or a target
means that a reference was never resolved, and is told apart from a number that is out
of range.  A byte of data is compared without a look at what it is, and what is no
number cannot be compared.

The order of reading is the order of the fields in the word.  For an operation on
three registers that is operand 1, then 2, then 0.  An instruction with an immediate
puts operand 1 into both of its register fields and never looks at operand 0.
-/

namespace MipsAssembler

namespace Operand

/-- The operand at a position. -/
def get (args : List Operand) (k : Nat) : Except Fault Operand :=
  match args[k]? with
  | some arg => .ok arg
  | none => .error .missingOperand

/-- An operand as a register. -/
def toRegister : Operand → Except Fault Register
  | number n =>
    match Literal.register? n with
    | some r => .ok r
    | none => .error (.invalidRegister (number n))
  | operand => .error (.invalidRegister operand)

/-- An operand as a signed immediate. -/
def toImmediate : Operand → Except Fault (BitVec FieldWidth.immediate)
  | number n =>
    if Bits.fitsSigned n FieldWidth.immediate then .ok (BitVec.ofInt FieldWidth.immediate n)
    else .error (.immediateOutOfRange n)
  | operand => .error (.unresolvedImmediate operand)

/-- An operand as a jump target. -/
def toTarget : Operand → Except Fault (BitVec FieldWidth.target)
  | number n =>
    if Bits.fitsUnsigned n FieldWidth.target then .ok (BitVec.ofInt FieldWidth.target n)
    else .error (.targetOutOfRange n)
  | operand => .error (.unresolvedTarget operand)

/-- An operand as a byte of data. -/
def toData : Operand → Except Fault (BitVec FieldWidth.data)
  | number n =>
    if n < 0 then .error (.negativeData n)
    else if Bits.fitsUnsigned n FieldWidth.data then .ok (BitVec.ofInt FieldWidth.data n)
    else .error (.dataTooLarge n)
  | operand => .error (.incomparableData operand.typeName)

end Operand

namespace Item

/-- The word of an operation on three registers. -/
def packR (args : List Operand) (funct : BitVec FieldWidth.funct) : Except Fault Word := do
  let rs ← (← Operand.get args 1).toRegister
  let rt ← (← Operand.get args 2).toRegister
  let rd ← (← Operand.get args 0).toRegister
  return Word.ofR rs rt rd funct

/-- The word of an instruction with an immediate. -/
def packI (args : List Operand) (opcode : BitVec FieldWidth.opcode) : Except Fault Word := do
  let r ← (← Operand.get args 1).toRegister
  let immediate ← (← Operand.get args 2).toImmediate
  return Word.ofI opcode r r immediate

/-- The word of a jump. -/
def packJ (args : List Operand) (opcode : BitVec FieldWidth.opcode) : Except Fault Word := do
  let target ← (← Operand.get args 0).toTarget
  return Word.ofJ opcode target

/-- The word of a byte of data. -/
def packData (args : List Operand) : Except Fault Word := do
  let byte ← (← Operand.get args 0).toData
  return Word.ofData byte

/-- The word of a directive. -/
def packDirective (name : String) (args : List Operand) : Except Fault Word :=
  if name = dataDirective then packData args else .error (.unknownDirective name)

/-- The word of an operation. -/
def packOperation (name : String) (args : List Operand) : Except Fault Word :=
  match Mnemonic.ofName? name with
  | none => .error (.unknownOperation name)
  | some m =>
    match m.spec.format with
    | .R => packR args m.spec.funct
    | .I => packI args m.spec.opcode
    | .J => packJ args m.spec.opcode

/-- The word of an item. -/
def pack : Item → Except Fault Word
  | label name => .error (.unplacedLabel name)
  | directive name args => packDirective name args
  | operation name args => packOperation name args
  | foreign value => .error (.foreignItem value.typeName)

/-- The words of a list of items, up to the first fault. -/
def packAll (items : List Item) : Except Fault (List Word) := items.mapM pack

end Item
end MipsAssembler
