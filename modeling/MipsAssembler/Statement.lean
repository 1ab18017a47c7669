import MipsAssembler.Item

/-!
# Statements

A statement is one label, one byte of data, or one instruction with its operands,
as they stand in a source text.  Registers are registers and references to labels
are names, so every statement can be laid out; the only things that can still fail
are the ranges of its integers and the labels it refers to.

`toItem` fixes the order in which operands are stored.  It is the order in which
they are written, with one exception that the packed words depend on: a branch
stores its second register before its first.
-/

namespace MipsAssembler

/-- One statement of a source text. -/
inductive Statement where
  | label (name : String)
  | data (value : Int)
  | arith (op : Arithmetic) (rd rs rt : Register)
  | addi (rd rs : Register) (value : Int)
  | beq (first second : Register) (target : String)
  | jump (target : String)
  | access (op : Access) (rd base : Register) (offset : Int)
  deriving DecidableEq, Repr

namespace Statement

/-- The item for a statement. -/
def toItem : Statement → Item
  | label name => .label name
  | data value => .directive dataDirective [.number value]
  | arith op rd rs rt => .operation op.name [.ofRegister rd, .ofRegister rs, .ofRegister rt]
  | addi rd rs value => .operation Mnemonic.addi.name [.ofRegister rd, .ofRegister rs, .number value]
  | beq first second target =>
    .operation Mnemonic.beq.name [.ofRegister second, .ofRegister first, .name target]
  | jump target => .operation Mnemonic.j.name [.name target]
  | access op rd base offset =>
    .operation op.name [.ofRegister rd, .ofRegister base, .number offset]

/-- A program as items. -/
def toItems (program : List Statement) : List Item := program.map toItem

end Statement
end MipsAssembler
