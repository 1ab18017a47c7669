import MipsAssembler.Instruction
import MipsAssembler.Operand

/-!
# Items

An item is what the layout, the resolution of labels and the packing work on.  It
is deliberately loose: an operation or a directive is a spelling with any list of
operands, and there are items that are nothing the assembler knows.  The stages
behind the reader are useful to callers who build programs without source text, and
those callers can hand over anything; each stage says what it does with every item,
and only the packer refuses.

Source text never leads to a malformed item, because the reader returns statements
and a statement becomes an item by `Statement.toItem`.
-/

namespace MipsAssembler

/-- An element of a program. -/
inductive Item where
  | label (name : String)
  | directive (name : String) (args : List Operand)
  | operation (name : String) (args : List Operand)
  | foreign (value : Foreign)
  deriving DecidableEq, Repr, Inhabited

namespace Item

/-- The label that an item declares. -/
def declares? : Item → Option String
  | label name => some name
  | _ => none

/-- Whether an item takes a slot of its own.  Labels stand between slots. -/
def occupiesSlot : Item → Bool
  | label _ => false
  | _ => true

end Item
end MipsAssembler
