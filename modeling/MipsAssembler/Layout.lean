import MipsAssembler.Item
import MipsAssembler.Progress

/-!
# Slots and the label table

The first pass gives every item that is not a label a slot, numbered from zero, and
notes for every label the number of the next slot.  A label therefore stands for the
number of slots before it, and one at the very end of a program for the number of
all its slots, where nothing lies.

A label may be declared once.  The second declaration stops the pass, whether or
not anything refers to the label.
-/

namespace MipsAssembler

/-! ## Tables of labels -/

/-- Addresses of labels, the latest declaration first. -/
structure LabelTable where
  entries : List (String × Int)
  deriving DecidableEq, Repr, Inhabited

namespace LabelTable

/-- The table without labels. -/
def empty : LabelTable := ⟨[]⟩

/-- The address of a label. -/
def find? (table : LabelTable) (name : String) : Option Int := table.entries.lookup name

/-- Whether a label has an address. -/
def contains (table : LabelTable) (name : String) : Bool := (table.find? name).isSome

/-- The table with one more declaration, which hides an earlier one of the same
label. -/
def declare (table : LabelTable) (name : String) (address : Int) : LabelTable :=
  ⟨(name, address) :: table.entries⟩

/-- The table that declares the given pairs in order. -/
def ofPairs (pairs : List (String × Int)) : LabelTable :=
  pairs.foldl (fun table pair => table.declare pair.1 pair.2) empty

/-- The entries in the order of their names, by code points. -/
def sorted (table : LabelTable) : List (String × Int) :=
  table.entries.mergeSort fun a b => decide (a.1 ≤ b.1)

@[simp] theorem find?_empty (name : String) : empty.find? name = none := rfl

@[simp] theorem find?_declare (table : LabelTable) (declared : String) (address : Int)
    (name : String) :
    (table.declare declared address).find? name =
      if name = declared then some address else table.find? name := by
  by_cases h : name = declared
  · rw [if_pos h, h]
    simp [find?, declare]
  · have hb : (name == declared) = false := by simpa using h
    rw [if_neg h]
    simp only [find?, declare, List.lookup_cons, hb]

end LabelTable

/-! ## The first pass -/

/-- The labels declared and the slots taken so far. -/
structure Layout where
  table : LabelTable
  slotsRev : List Item
  count : Nat
  deriving DecidableEq, Repr, Inhabited

namespace Layout

/-- No labels and no slots. -/
def empty : Layout := ⟨.empty, [], 0⟩

/-- The items that have slots, in order. -/
def slots (l : Layout) : List Item := l.slotsRev.reverse

/-- A label is declared at the next slot. -/
def declare (l : Layout) (name : String) : Layout :=
  { l with table := l.table.declare name l.count }

/-- An item takes the next slot. -/
def occupy (l : Layout) (item : Item) : Layout :=
  { l with slotsRev := item :: l.slotsRev, count := l.count + 1 }

/-- The layout after the given items, up to the first label that is declared
already. -/
def extend (l : Layout) : List Item → Progress Layout
  | [] => ⟨l, none⟩
  | .label name :: items =>
    if l.table.contains name then ⟨l, some (.duplicateLabel name)⟩
    else extend (l.declare name) items
  | item :: items => extend (l.occupy item) items

/-- The first pass, with what it had placed when it ended. -/
def place (items : List Item) : Progress Layout := empty.extend items

/-- The first pass. -/
def ofItems (items : List Item) : Except Fault Layout := (place items).toExcept

end Layout
end MipsAssembler
