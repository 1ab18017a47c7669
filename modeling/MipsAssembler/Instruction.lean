/-!
# The instruction table

Ten instructions and one directive.  The table answers four questions about an
instruction: how it is spelled, which of the three word formats packs it, which
opcode and function code it carries, and which operands it is written with.  The
last two are independent of each other: `addi`, `beq`, `lb` and `sb` share one
word format and have three different ways of being written.

The instructions are grouped by what they do, so that a statement can say "an
arithmetic operation on three registers" without listing five of them, and so
that no statement can be built for which the table has no row.
-/

namespace MipsAssembler

/-! ## Field widths, in bits -/

namespace FieldWidth

def word : Nat := 32
def data : Nat := 8
def opcode : Nat := 6
def funct : Nat := 6
def register : Nat := 5
def shamt : Nat := 5
def immediate : Nat := 16
def target : Nat := 26

end FieldWidth

/-! ## Mnemonics -/

/-- The operations on two registers with the result in a third. -/
inductive Arithmetic where
  | add | sub | and | or | slt
  deriving DecidableEq, Repr, Inhabited

/-- The two accesses to a byte of memory. -/
inductive Access where
  | lb | sb
  deriving DecidableEq, Repr, Inhabited

/-- The instructions that can be assembled. -/
inductive Mnemonic where
  | arith (op : Arithmetic)
  | addi
  | beq
  | j
  | access (op : Access)
  deriving DecidableEq, Repr, Inhabited

/-- The spelling of an arithmetic operation. -/
def Arithmetic.name : Arithmetic → String
  | add => "add"
  | sub => "sub"
  | and => "and"
  | or => "or"
  | slt => "slt"

/-- The spelling of a memory access. -/
def Access.name : Access → String
  | lb => "lb"
  | sb => "sb"

/-- The function code of an arithmetic operation. -/
def Arithmetic.funct : Arithmetic → BitVec FieldWidth.funct
  | add => 0b100000
  | sub => 0b100010
  | and => 0b100100
  | or => 0b100101
  | slt => 0b101010

/-- The opcode of a memory access. -/
def Access.opcode : Access → BitVec FieldWidth.opcode
  | lb => 0b100000
  | sb => 0b101000

/-! ## Rows of the table -/

/-- The word formats: three registers and a function code, two registers and an
immediate, or a jump target. -/
inductive WordFormat where
  | R | I | J
  deriving DecidableEq, Repr, Inhabited

/-- The ways in which operands are written after a mnemonic. -/
inductive OperandForm where
  | threeRegisters
  | twoRegistersImmediate
  | twoRegistersLabel
  | label
  | registerMemory
  deriving DecidableEq, Repr, Inhabited

/-- The letter that names a word format. -/
def WordFormat.name : WordFormat → String
  | R => "R"
  | I => "I"
  | J => "J"

/-- The pattern that names an operand form. -/
def OperandForm.name : OperandForm → String
  | threeRegisters => "rd,rs,rt"
  | twoRegistersImmediate => "rd,rs,imm"
  | twoRegistersLabel => "rs,rt,label"
  | label => "label"
  | registerMemory => "rd,mem"

/-- A row of the table. -/
structure InstructionSpec where
  format : WordFormat
  opcode : BitVec FieldWidth.opcode
  funct : BitVec FieldWidth.funct
  form : OperandForm
  deriving DecidableEq, Repr

namespace Mnemonic

/-- The spelling of an instruction; it is in lower case and no other spelling
counts. -/
def name : Mnemonic → String
  | arith op => op.name
  | addi => "addi"
  | beq => "beq"
  | j => "j"
  | access op => op.name

/-- The row of an instruction.  Only arithmetic has a function code, and then
its opcode is zero. -/
def spec : Mnemonic → InstructionSpec
  | arith op => ⟨.R, 0, op.funct, .threeRegisters⟩
  | addi => ⟨.I, 0b001000, 0, .twoRegistersImmediate⟩
  | beq => ⟨.I, 0b000100, 0, .twoRegistersLabel⟩
  | j => ⟨.J, 0b000010, 0, .label⟩
  | access op => ⟨.I, op.opcode, 0, .registerMemory⟩

/-- All instructions, in the alphabetical order of their spellings. -/
def all : List Mnemonic :=
  [arith .add, addi, arith .and, beq, j, access .lb, arith .or, access .sb, arith .slt, arith .sub]

/-- The instruction with a given spelling. -/
def ofName? : String → Option Mnemonic
  | "add" => some (arith .add)
  | "sub" => some (arith .sub)
  | "and" => some (arith .and)
  | "or" => some (arith .or)
  | "slt" => some (arith .slt)
  | "addi" => some addi
  | "beq" => some beq
  | "j" => some j
  | "lb" => some (access .lb)
  | "sb" => some (access .sb)
  | _ => none

/-- Spelling an instruction and looking the spelling up gives it back. -/
@[simp] theorem ofName?_name (m : Mnemonic) : ofName? m.name = some m := by
  cases m with
  | arith op => cases op <;> rfl
  | access op => cases op <;> rfl
  | _ => rfl

/-- Whether a text spells an instruction. -/
def isName (text : String) : Bool := (ofName? text).isSome

end Mnemonic

/-- A text that was looked up in the table and is no spelling in it. -/
structure UnknownMnemonic where
  text : String
  deriving DecidableEq, Repr, Inhabited

/-- The text shown for a failed look-up. -/
def UnknownMnemonic.message (e : UnknownMnemonic) : String :=
  s!"Instrucción desconocida: {e.text}"

/-- The row for a spelling. -/
def InstructionSpec.ofName (text : String) : Except UnknownMnemonic InstructionSpec :=
  match Mnemonic.ofName? text with
  | some m => .ok m.spec
  | none => .error ⟨text⟩

/-! ## Directives -/

/-- The directive that places one byte of data. -/
def dataDirective : String := ".dw"

/-- The directives that can be assembled. -/
def directives : List String := [dataDirective]

end MipsAssembler
