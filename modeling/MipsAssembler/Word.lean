import MipsAssembler.Instruction
import MipsAssembler.Operand

/-!
# Machine words

A word has 32 bits and is put together from fields, most significant first.  The
three instruction formats and the data format are four ways of joining fields, and
the widths add up by the types: a format whose fields did not fill the word would
not be accepted as a definition.
-/

namespace MipsAssembler

/-- A machine word. -/
abbrev Word := BitVec FieldWidth.word

namespace Word

/-- The field that selects a register. -/
def registerField (r : Register) : BitVec FieldWidth.register := BitVec.ofFin r

/-- Opcode zero, two source registers, the destination, no shift, and a function
code. -/
def ofR (rs rt rd : Register) (funct : BitVec FieldWidth.funct) : Word :=
  ((0 : BitVec FieldWidth.opcode) ++ registerField rs ++ registerField rt ++ registerField rd ++
    (0 : BitVec FieldWidth.shamt) ++ funct : BitVec (6 + 5 + 5 + 5 + 5 + 6))

/-- An opcode, two registers and an immediate. -/
def ofI (opcode : BitVec FieldWidth.opcode) (rs rt : Register)
    (immediate : BitVec FieldWidth.immediate) : Word :=
  (opcode ++ registerField rs ++ registerField rt ++ immediate : BitVec (6 + 5 + 5 + 16))

/-- An opcode and a jump target. -/
def ofJ (opcode : BitVec FieldWidth.opcode) (target : BitVec FieldWidth.target) : Word :=
  (opcode ++ target : BitVec (6 + 26))

/-- A byte of data in the most significant place, and zeros behind it. -/
def ofData (byte : BitVec FieldWidth.data) : Word := (byte ++ (0 : BitVec 24) : BitVec (8 + 24))

end Word
end MipsAssembler
