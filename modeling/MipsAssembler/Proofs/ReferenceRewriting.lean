import Mathlib
import MipsAssembler.Proofs.Messages
import MipsAssembler.Proofs.Renaming

/-!
# The second pass with any table

A program that was read from a text goes through the second pass with the table of its own
first pass.  A caller can hand over any other table: with negative addresses, with huge ones,
or with names that no item declares; and any list of items, in which labels and values that
are no part of a program take slots like the rest.  This file says what the pass does then.

* `LabelTable.Finds table item`: the operand by which the item refers to a label is there, is a
  name, and is in the table.  An item that is no branch and no jump asks for nothing.
* `LabelTable.Rewrites table slot item r`: the item `r` stands in slot `slot` afterwards.  Only
  branches and jumps are rewritten, and they keep nothing behind their reference.
* `LabelTable.Misses table item fault`: the operand is missing, or the table does not have it,
  or the table cannot be asked for it.  A number is never found, whatever the table has.

What a caller is told is the fault of the lowest slot, or, where that has to quote a number
that is too long, that the number cannot be shown.

## Moved tables

If all addresses of a table grow by `d`, then so does every number that the pass puts in the
place of a reference: the target of a jump because it is the address, and the distance of a
branch because the slot is where it was.  `resolve_shift` states this as an equation between
two passes, so a table that is moved also leads to the same fault.
-/

namespace MipsAssembler

namespace Operand

/-- A number is moved by `d`, everything else is kept. -/
def displace (d : Int) : Operand → Operand
  | number value => number (value + d)
  | operand => operand

end Operand

namespace Item

/-- The number in the place of a reference is moved by `d`. -/
def displace (d : Int) : Item → Item
  | operation name args =>
    match (operation name args).referencePosition? with
    | some k => operation name (args.modify k (Operand.displace d))
    | none => operation name args
  | item => item

theorem displace_of_referencePosition?_eq_none (d : Int) {item : Item}
    (h : item.referencePosition? = none) : item.displace d = item := by
  cases item with
  | operation name args => rw [displace, h]
  | _ => rfl

end Item

namespace LabelTable

/-! ## What the pass does with one item -/

/-- If an item is a branch or a jump, its reference is there, is a name, and is in the table. -/
def Finds (table : LabelTable) (item : Item) : Prop :=
  ∀ k, item.referencePosition? = some k →
    ∃ text address, item.operands[k]? = some (Operand.name text) ∧ table.find? text = some address

/-- The item in a slot before and after the pass. -/
inductive Rewrites (table : LabelTable) (slot : Nat) : Item → Item → Prop
  | branch {args : List Operand} {a b : Operand} {text : String} {address : Int}
      (h0 : args[0]? = some a) (h1 : args[1]? = some b)
      (h2 : args[2]? = some (Operand.name text)) (hfind : table.find? text = some address) :
      Rewrites table slot (.operation "beq" args)
        (.operation "beq" [a, b, .number (address - slot - 1)])
  | jump {args : List Operand} {text : String} {address : Int}
      (h0 : args[0]? = some (Operand.name text)) (hfind : table.find? text = some address) :
      Rewrites table slot (.operation "j" args) (.operation "j" [.number address])
  | other {item : Item} (h : item.referencePosition? = none) : Rewrites table slot item item

/-- The fault of a reference that is not found: it is no name of the table, or it is a value
that a table cannot be asked for. -/
inductive Unfound (table : LabelTable) : Operand → Fault → Prop
  | unknown {reference : Operand} (hname : ∀ text, reference = .name text → table.find? text = none)
      (hvalue : ∀ value, reference = .foreign value → value.hashable = true) :
      Unfound table reference (.undeclaredLabel reference)
  | unhashable {value : Foreign} (h : value.hashable = false) :
      Unfound table (.foreign value) (.unhashableReference value.typeName)

/-- The fault of an item whose reference cannot be resolved. -/
inductive Misses (table : LabelTable) : Item → Fault → Prop
  | absent {item : Item} {k : Nat} (hk : item.referencePosition? = some k)
      (h : item.operands[k]? = none) : Misses table item .missingOperand
  | unfound {item : Item} {k : Nat} {reference : Operand} {fault : Fault}
      (hk : item.referencePosition? = some k) (h : item.operands[k]? = some reference)
      (hunfound : table.Unfound reference fault) : Misses table item fault

section OneItem

variable {table : LabelTable} {slot : Nat} {item r : Item} {fault : Fault}

/-! ### Addresses of operands -/

theorem address_eq_ok_iff {reference : Operand} {address : Int} :
    table.address reference = .ok address ↔
      ∃ text, reference = .name text ∧ table.find? text = some address := by
  cases reference with
  | number value => simp [LabelTable.address]
  | name text =>
    rw [address_name]
    cases hfind : table.find? text <;> simp [hfind]
  | foreign value => cases hhash : value.hashable <;> simp [LabelTable.address, hhash]

theorem address_eq_error_iff {reference : Operand} :
    table.address reference = .error fault ↔ table.Unfound reference fault := by
  constructor
  · intro h
    cases reference with
    | number value =>
      cases h
      exact .unknown (fun text htext => by cases htext) fun value hvalue => by cases hvalue
    | name text =>
      rw [address_name] at h
      split at h
      next hfind => cases h
      next hfind =>
        cases h
        refine .unknown (fun text htext => ?_) fun value hvalue => by cases hvalue
        cases htext
        exact hfind
    | foreign value =>
      rw [LabelTable.address] at h
      split at h
      next hhash =>
        cases h
        refine .unknown (fun text htext => by cases htext) fun value hvalue => ?_
        cases hvalue
        exact hhash
      next hhash =>
        cases h
        exact .unhashable (Bool.eq_false_iff.mpr hhash)
  · intro h
    cases h with
    | unknown hname hvalue =>
      cases reference with
      | number value => rfl
      | name text => rw [address_name, hname text rfl]
      | foreign value => rw [LabelTable.address, if_pos (hvalue value rfl)]
    | unhashable h => rw [LabelTable.address, h, if_neg Bool.false_ne_true]

theorem Unfound.find?_eq_none {text : String} (h : table.Unfound (.name text) fault) :
    table.find? text = none := by
  cases h with
  | unknown hname _ => exact hname text rfl

theorem Unfound.unique {reference : Operand} {fault' : Fault} (h : table.Unfound reference fault)
    (h' : table.Unfound reference fault') : fault = fault' := by
  rw [← address_eq_error_iff] at h h'
  exact Except.error.inj (h.symm.trans h')

/-! ### The two outcomes -/

theorem exists_eq_cons_of_getElem?_two {args : List Operand} {reference : Operand}
    (h : args[2]? = some reference) : ∃ a b rest, args = a :: b :: reference :: rest := by
  rcases args with _ | ⟨a, _ | ⟨b, _ | ⟨c, rest⟩⟩⟩
  · cases h
  · cases h
  · cases h
  · cases h
    exact ⟨a, b, rest, rfl⟩

theorem resolveItem_beq_of_absent {args : List Operand} (h : args[2]? = none) :
    table.resolveItem slot (.operation "beq" args) = .error .missingOperand := by
  rcases args with _ | ⟨a, _ | ⟨b, _ | ⟨reference, rest⟩⟩⟩
  · rfl
  · rfl
  · rfl
  · cases h

/-- An item whose reference is there has the outcome of looking it up. -/
theorem rewrites_or_misses_of_reference {k : Nat} {reference : Operand} {build : Int → Item}
    (hk : item.referencePosition? = some k) (href : item.operands[k]? = some reference)
    (hresolve : table.resolveItem slot item = build <$> table.address reference)
    (hrewrites : ∀ text address, reference = .name text → table.find? text = some address →
      table.Rewrites slot item (build address)) :
    (∃ r, table.resolveItem slot item = .ok r ∧ table.Rewrites slot item r) ∨
      ∃ fault, table.resolveItem slot item = .error fault ∧ table.Misses item fault := by
  rw [hresolve]
  rcases Outcome.ok_or_error (table.address reference) with ⟨address, h⟩ | ⟨fault, h⟩
  · obtain ⟨text, htext, hfind⟩ := address_eq_ok_iff.mp h
    exact Or.inl ⟨build address, Outcome.map_eq_ok_iff.mpr ⟨address, h, rfl⟩,
      hrewrites text address htext hfind⟩
  · have hunfound := address_eq_error_iff.mp h
    exact Or.inr ⟨fault, Outcome.map_eq_error_iff.mpr h, .unfound hk href hunfound⟩

theorem rewrites_or_misses (table : LabelTable) (slot : Nat) (item : Item) :
    (∃ r, table.resolveItem slot item = .ok r ∧ table.Rewrites slot item r) ∨
      ∃ fault, table.resolveItem slot item = .error fault ∧ table.Misses item fault := by
  rcases item.reference_cases with hnone | ⟨args, rfl⟩ | ⟨args, rfl⟩
  · exact Or.inl ⟨item, resolveItem_of_referencePosition?_eq_none hnone, .other hnone⟩
  · cases href : args[2]? with
    | none => exact Or.inr ⟨_, resolveItem_beq_of_absent href, .absent rfl href⟩
    | some reference =>
      obtain ⟨a, b, rest, rfl⟩ := exists_eq_cons_of_getElem?_two href
      refine rewrites_or_misses_of_reference rfl rfl (resolveItem_branch a b reference rest) ?_
      rintro text address rfl hfind
      exact .branch rfl rfl rfl hfind
  · cases args with
    | nil => exact Or.inr ⟨_, rfl, .absent rfl rfl⟩
    | cons reference rest =>
      refine rewrites_or_misses_of_reference rfl rfl (resolveItem_jump_cons reference rest) ?_
      rintro text address rfl hfind
      exact .jump rfl hfind

/-- What the pass writes into a slot. -/
theorem resolveItem_of_rewrites (h : table.Rewrites slot item r) :
    table.resolveItem slot item = .ok r := by
  cases h with
  | @branch args a b text address h0 h1 h2 hfind =>
    obtain ⟨a', b', rest, rfl⟩ := exists_eq_cons_of_getElem?_two h2
    cases h0
    cases h1
    rw [resolveItem_branch]
    exact Outcome.map_eq_ok_iff.mpr ⟨address, address_eq_ok_iff.mpr ⟨text, rfl, hfind⟩, rfl⟩
  | @jump args text address h0 hfind =>
    cases args with
    | nil => cases h0
    | cons reference rest =>
      cases h0
      rw [resolveItem_jump_cons]
      exact Outcome.map_eq_ok_iff.mpr ⟨address, address_eq_ok_iff.mpr ⟨text, rfl, hfind⟩, rfl⟩
  | other h => exact resolveItem_of_referencePosition?_eq_none h

theorem Rewrites.finds (h : table.Rewrites slot item r) : table.Finds item := by
  intro k hk
  cases h with
  | branch _ _ h2 hfind =>
    cases hk
    exact ⟨_, _, h2, hfind⟩
  | jump h0 hfind =>
    cases hk
    exact ⟨_, _, h0, hfind⟩
  | other h => cases h.symm.trans hk

theorem Misses.not_finds (h : table.Misses item fault) : ¬ table.Finds item := by
  intro hfinds
  cases h with
  | absent hk h =>
    obtain ⟨text, address, htext, -⟩ := hfinds _ hk
    cases h.symm.trans htext
  | unfound hk h hunfound =>
    obtain ⟨text, address, htext, hfind⟩ := hfinds _ hk
    cases h.symm.trans htext
    cases hunfound.find?_eq_none.symm.trans hfind

/-- An item has one fault. -/
theorem Misses.unique {fault' : Fault} (h : table.Misses item fault)
    (h' : table.Misses item fault') : fault = fault' := by
  cases h with
  | absent hk h =>
    cases h' with
    | absent _ _ => rfl
    | unfound hk' h' _ =>
      cases hk.symm.trans hk'
      cases h.symm.trans h'
  | unfound hk h hunfound =>
    cases h' with
    | absent hk' h' =>
      cases hk.symm.trans hk'
      cases h.symm.trans h'
    | unfound hk' h' hunfound' =>
      cases hk.symm.trans hk'
      cases h.symm.trans h'
      exact hunfound.unique hunfound'

theorem resolveItem_eq_ok_iff :
    table.resolveItem slot item = .ok r ↔ table.Rewrites slot item r := by
  refine ⟨fun h => ?_, resolveItem_of_rewrites⟩
  rcases rewrites_or_misses table slot item with ⟨r', hr', hrewrites⟩ | ⟨fault, hfault, -⟩
  · cases h.symm.trans hr'
    exact hrewrites
  · cases h.symm.trans hfault

theorem resolveItem_eq_error_iff_misses :
    table.resolveItem slot item = .error fault ↔ table.Misses item fault := by
  rcases rewrites_or_misses table slot item with ⟨r, hr, hrewrites⟩ | ⟨fault', hfault', hmisses⟩
  · rw [hr]
    refine ⟨fun h => ?_, fun h => absurd hrewrites.finds h.not_finds⟩
    cases h
  · rw [hfault', Except.error.injEq]
    exact ⟨fun h => h ▸ hmisses, hmisses.unique⟩

theorem exists_resolveItem_iff_finds :
    (∃ r, table.resolveItem slot item = .ok r) ↔ table.Finds item := by
  constructor
  · rintro ⟨r, hr⟩
    exact (resolveItem_eq_ok_iff.mp hr).finds
  · intro hfinds
    rcases rewrites_or_misses table slot item with ⟨r, hr, -⟩ | ⟨fault, -, hmisses⟩
    · exact ⟨r, hr⟩
    · exact absurd hfinds hmisses.not_finds

end OneItem

/-! ## Moved tables -/

/-- The table with every address moved by `d`. -/
def shift (table : LabelTable) (d : Int) : LabelTable :=
  ⟨table.entries.map fun entry => (entry.1, entry.2 + d)⟩

theorem find?_shift (table : LabelTable) (d : Int) (name : String) :
    (table.shift d).find? name = (table.find? name).map (· + d) := by
  obtain ⟨entries⟩ := table
  show (entries.map _).lookup name = (entries.lookup name).map _
  induction entries with
  | nil => rfl
  | cons entry entries ih =>
    rw [List.map_cons, List.lookup_cons, List.lookup_cons, ih]
    cases name == entry.1 <;> rfl

section Shift

variable {table : LabelTable} {slot : Nat} {item r : Item} {fault : Fault}

theorem find?_shift_of_eq_some (d : Int) {name : String} {address : Int}
    (h : table.find? name = some address) :
    (table.shift d).find? name = some (address + d) := by
  rw [find?_shift, h]
  rfl

theorem Rewrites.shift (d : Int) (h : table.Rewrites slot item r) :
    (table.shift d).Rewrites slot item (r.displace d) := by
  cases h with
  | @branch args a b text address h0 h1 h2 hfind =>
    have hdistance : address - slot - 1 + d = address + d - slot - 1 := by ring
    show Rewrites _ _ _ (.operation "beq" [a, b, .number (address - slot - 1 + d)])
    rw [hdistance]
    exact .branch h0 h1 h2 (find?_shift_of_eq_some d hfind)
  | jump h0 hfind => exact .jump h0 (find?_shift_of_eq_some d hfind)
  | other h =>
    rw [Item.displace_of_referencePosition?_eq_none d h]
    exact .other h

theorem Unfound.shift (d : Int) {reference : Operand} (h : table.Unfound reference fault) :
    (table.shift d).Unfound reference fault := by
  cases h with
  | unknown hname hvalue =>
    refine .unknown (fun text htext => ?_) hvalue
    rw [find?_shift, hname text htext]
    rfl
  | unhashable h => exact .unhashable h

theorem Misses.shift (d : Int) (h : table.Misses item fault) :
    (table.shift d).Misses item fault := by
  cases h with
  | absent hk h => exact .absent hk h
  | unfound hk h hunfound => exact .unfound hk h (hunfound.shift d)

theorem resolveItem_shift (table : LabelTable) (d : Int) (slot : Nat) (item : Item) :
    (table.shift d).resolveItem slot item = Item.displace d <$> table.resolveItem slot item := by
  rcases rewrites_or_misses table slot item with ⟨r, hr, hrewrites⟩ | ⟨fault, hfault, hmisses⟩
  · rw [hr]
    exact resolveItem_eq_ok_iff.mpr (hrewrites.shift d)
  · rw [hfault]
    exact resolveItem_eq_error_iff_misses.mpr (hmisses.shift d)

/-- The pass with a moved table. -/
theorem resolve_shift (table : LabelTable) (d : Int) (items : List Item) :
    (table.shift d).resolve items = List.map (Item.displace d) <$> table.resolve items := by
  rw [resolve_eq_mapM, resolve_eq_mapM, ← Outcome.mapM_map_step]
  simp only [resolveItem_shift]

end Shift

/-! ## The whole pass -/

theorem exists_resolve_iff_finds {table : LabelTable} {items : List Item} :
    (∃ resolved, table.resolve items = .ok resolved) ↔ ∀ item ∈ items, table.Finds item := by
  constructor
  · rintro ⟨resolved, h⟩ item hitem
    obtain ⟨i, hi⟩ := List.mem_iff_getElem?.mp hitem
    obtain ⟨r, -, hr⟩ := (resolve_eq_ok_iff.mp h).2 i item hi
    exact exists_resolveItem_iff_finds.mp ⟨r, hr⟩
  · intro hall
    rcases Outcome.ok_or_error (table.resolve items) with hok | ⟨fault, hfault⟩
    · exact hok
    · obtain ⟨i, item, hi, hmisses, -⟩ := resolve_eq_error_iff.mp hfault
      have hnot := (resolveItem_eq_error_iff_misses.mp hmisses).not_finds
      exact absurd (hall item (List.mem_of_getElem? hi)) hnot

end LabelTable
end MipsAssembler
