import MipsAssembler.Layout

/-!
# References to labels

The second pass goes over the slots and replaces the names that branches and jumps
refer to by numbers.  A jump gets the address of its label.  A branch gets the
distance to it, counted from the slot behind the branch, so a branch to itself has
distance `-1`.  Everything else passes unchanged, and so does a label that was left
among the slots, which then counts as one.

Both kinds of reference are read by position: the third operand of a branch and the
first of a jump.  An operand that is no name is never the name of a label, and there are
values that no table can be asked for.  What follows the reference is dropped, so a
resolved branch has three operands and a resolved jump one.  Whether the numbers fit
their fields is left to the packer.
-/

namespace MipsAssembler
namespace LabelTable

/-- The address that an operand refers to. -/
def address (table : LabelTable) (reference : Operand) : Except Fault Int :=
  match reference with
  | .number _ => .error (.undeclaredLabel reference)
  | .name text =>
    match table.find? text with
    | some a => .ok a
    | none => .error (.undeclaredLabel reference)
  | .foreign value =>
    if value.hashable then .error (.undeclaredLabel reference)
    else .error (.unhashableReference value.typeName)

/-- The operands of a branch in a slot. -/
def resolveBranch (table : LabelTable) (slot : Nat) :
    List Operand → Except Fault (List Operand)
  | a :: b :: reference :: _ => do
    let address ← table.address reference
    return [a, b, .number (address - slot - 1)]
  | _ => .error .missingOperand

/-- The operands of a jump. -/
def resolveJump (table : LabelTable) : List Operand → Except Fault (List Operand)
  | reference :: _ => do
    let address ← table.address reference
    return [.number address]
  | [] => .error .missingOperand

/-- The item in a slot with its reference resolved. -/
def resolveItem (table : LabelTable) (slot : Nat) : Item → Except Fault Item
  | .operation name args =>
    if name = Mnemonic.beq.name then .operation name <$> table.resolveBranch slot args
    else if name = Mnemonic.j.name then .operation name <$> table.resolveJump args
    else .ok (.operation name args)
  | item => .ok item

/-- The items from slot `slot` on, resolved up to the first fault, behind the items
`done`, latest first. -/
def resolveFrom (table : LabelTable) (slot : Nat) (done : List Item) :
    List Item → Progress (List Item)
  | [] => ⟨done.reverse, none⟩
  | item :: items =>
    match table.resolveItem slot item with
    | .ok resolved => resolveFrom table (slot + 1) (resolved :: done) items
    | .error fault => ⟨done.reverse, some fault⟩

/-- The second pass, with what it had resolved when it ended. -/
def resolveAll (table : LabelTable) (slots : List Item) : Progress (List Item) :=
  table.resolveFrom 0 [] slots

/-- The second pass. -/
def resolve (table : LabelTable) (slots : List Item) : Except Fault (List Item) :=
  (table.resolveAll slots).toExcept

end LabelTable

/-- Both passes: the items that take slots, with every reference resolved. -/
def link (items : List Item) : Except Fault (List Item) := do
  let layout ← Layout.ofItems items
  layout.table.resolve layout.slots

end MipsAssembler
