import Mathlib
import MipsAssembler.Proofs.LabelPositions
import MipsAssembler.Resolution
import MipsAssembler.Statement

/-!
# Resolving references slot by slot

The second pass is a traversal of the slots in which the step at a slot knows the
number of the slot and the table, and nothing about the other slots.  `resolve_eq_mapM`
says so, and the rest about whole programs follows from what is known of traversals:
the pass succeeds when every slot resolves, and its fault is that of the lowest slot
that does not.

At a single slot the statements that were read from source text behave simply.  A
statement that refers to a label resolves exactly when the table has the label, and
one that refers to none passes unchanged.  With the table of a layout, "the table has
the label" is "the program declares it".
-/

namespace MipsAssembler
namespace LabelTable

/-! ## The pass as a traversal -/

theorem resolveFrom_toExcept (table : LabelTable) (slot : Nat) (done items : List Item) :
    (table.resolveFrom slot done items).toExcept =
      (done.reverse ++ ·) <$>
        (items.zipIdx slot).mapM fun entry => table.resolveItem entry.2 entry.1 := by
  induction items generalizing slot done with
  | nil =>
    rw [resolveFrom, List.zipIdx_nil, List.mapM_nil]
    change Except.ok done.reverse = Except.ok (done.reverse ++ [])
    rw [List.append_nil]
  | cons item items ih =>
    rw [resolveFrom, List.zipIdx_cons, List.mapM_cons]
    cases hitem : table.resolveItem slot item with
    | error fault => rfl
    | ok resolved =>
      change (table.resolveFrom (slot + 1) (resolved :: done) items).toExcept = _
      rw [ih, Outcome.ok_bind]
      cases (items.zipIdx (slot + 1)).mapM fun entry => table.resolveItem entry.2 entry.1 with
      | error fault => rfl
      | ok rest =>
        change Except.ok ((resolved :: done).reverse ++ rest) =
          Except.ok (done.reverse ++ resolved :: rest)
        rw [List.reverse_cons, List.append_assoc, List.singleton_append]

/-- The second pass visits every slot with its number. -/
theorem resolve_eq_mapM (table : LabelTable) (slots : List Item) :
    table.resolve slots = slots.zipIdx.mapM fun entry => table.resolveItem entry.2 entry.1 := by
  rw [resolve, resolveAll, resolveFrom_toExcept]
  cases slots.zipIdx.mapM fun entry => table.resolveItem entry.2 entry.1 with
  | error fault => rfl
  | ok resolved => rfl

theorem getElem?_zipIdx_iff {items : List Item} {i : Nat} {entry : Item × Nat} :
    items.zipIdx[i]? = some entry ↔ items[i]? = some entry.1 ∧ entry.2 = i := by
  rw [List.getElem?_zipIdx, Option.map_eq_some_iff]
  constructor
  · rintro ⟨item, hitem, rfl⟩
    exact ⟨hitem, Nat.zero_add i⟩
  · rintro ⟨hitem, hslot⟩
    exact ⟨entry.1, hitem, by rw [Nat.zero_add, ← hslot]⟩

theorem resolve_eq_ok_iff {table : LabelTable} {slots resolved : List Item} :
    table.resolve slots = .ok resolved ↔
      resolved.length = slots.length ∧
        ∀ (i : Nat) item, slots[i]? = some item →
          ∃ r, resolved[i]? = some r ∧ table.resolveItem i item = .ok r := by
  rw [resolve_eq_mapM, Outcome.mapM_eq_ok_iff, List.length_zipIdx]
  refine and_congr_right fun _ => ⟨fun h i item hitem => ?_, fun h i entry hentry => ?_⟩
  · exact h i (item, i) (getElem?_zipIdx_iff.mpr ⟨hitem, rfl⟩)
  · obtain ⟨hitem, hslot⟩ := getElem?_zipIdx_iff.mp hentry
    rw [hslot]
    exact h i entry.1 hitem

/-- The second pass stops at the lowest slot whose reference cannot be resolved. -/
theorem resolve_eq_error_iff {table : LabelTable} {slots : List Item} {fault : Fault} :
    table.resolve slots = .error fault ↔
      ∃ (i : Nat) (item : Item), slots[i]? = some item ∧ table.resolveItem i item = .error fault ∧
        ∀ j < i, ∀ other, slots[j]? = some other → ∃ r, table.resolveItem j other = .ok r := by
  rw [resolve_eq_mapM, Outcome.mapM_eq_error_iff]
  constructor
  · rintro ⟨i, entry, hentry, hfault, hbelow⟩
    obtain ⟨hitem, hslot⟩ := getElem?_zipIdx_iff.mp hentry
    rw [hslot] at hfault
    refine ⟨i, entry.1, hitem, hfault, fun j hj other hother => ?_⟩
    exact hbelow j hj (other, j) (getElem?_zipIdx_iff.mpr ⟨hother, rfl⟩)
  · rintro ⟨i, item, hitem, hfault, hbelow⟩
    refine ⟨i, (item, i), getElem?_zipIdx_iff.mpr ⟨hitem, rfl⟩, hfault, fun j hj entry hentry => ?_⟩
    obtain ⟨hother, hslot⟩ := getElem?_zipIdx_iff.mp hentry
    rw [hslot]
    exact hbelow j hj entry.1 hother

end LabelTable

/-! ## Statements in their slots -/

namespace Statement

/-- The statements that take slots, in order. -/
def slots (program : List Statement) : List Statement :=
  program.filter fun s => s.toItem.occupiesSlot

/-- The label that a statement refers to. -/
def reference? : Statement → Option String
  | beq _ _ target => some target
  | jump target => some target
  | _ => none

theorem map_toItem_slots (program : List Statement) :
    (slots program).map toItem = Item.slots (toItems program) := by
  rw [slots, Item.slots, toItems, List.filter_map]
  rfl

theorem getElem?_slots_toItems {program : List Statement} {i : Nat} {item : Item} :
    (Item.slots (toItems program))[i]? = some item ↔
      ∃ s, (slots program)[i]? = some s ∧ s.toItem = item := by
  rw [← map_toItem_slots, List.getElem?_map, Option.map_eq_some_iff]

theorem occupiesSlot_of_mem_slots {program : List Statement} {i : Nat} {s : Statement}
    (h : (slots program)[i]? = some s) : s.toItem.occupiesSlot = true :=
  (List.mem_filter.mp (List.mem_of_getElem? h)).2

theorem toItem_eq_label_iff {s : Statement} {name : String} :
    s.toItem = .label name ↔ s = .label name := by
  cases s with
  | label n => simp [toItem]
  | _ => simp [toItem]

theorem mem_labels_toItems_iff {program : List Statement} {name : String} :
    name ∈ Item.labels (toItems program) ↔ .label name ∈ program := by
  rw [Item.mem_labels_iff, toItems, List.mem_map]
  constructor
  · rintro ⟨s, hs, hname⟩
    rwa [← toItem_eq_label_iff.mp hname]
  · exact fun h => ⟨.label name, h, rfl⟩

end Statement

/-! ## One statement, one slot -/

namespace LabelTable

theorem contains_ne_true_iff {table : LabelTable} {name : String} :
    table.contains name ≠ true ↔ table.find? name = none := by
  rw [contains, ne_eq, Bool.not_eq_true, Option.isSome_eq_false_iff, Option.isNone_iff_eq_none]

theorem address_name (table : LabelTable) (text : String) :
    table.address (.name text) =
      match table.find? text with
      | some a => .ok a
      | none => .error (.undeclaredLabel (.name text)) := rfl

/-- A statement without a reference passes unchanged. -/
theorem resolveItem_of_reference?_eq_none (table : LabelTable) (slot : Nat) {s : Statement}
    (h : s.reference? = none) : table.resolveItem slot s.toItem = .ok s.toItem := by
  cases s with
  | arith op rd rs rt => cases op <;> rfl
  | access op rd base offset => cases op <;> rfl
  | beq first second target => exact absurd h (by simp [Statement.reference?])
  | jump target => exact absurd h (by simp [Statement.reference?])
  | _ => rfl

theorem resolveItem_beq (table : LabelTable) (slot : Nat) (first second : Register)
    (target : String) {address : Int} (h : table.find? target = some address) :
    table.resolveItem slot (Statement.beq first second target).toItem =
      .ok (.operation Mnemonic.beq.name
        [.ofRegister second, .ofRegister first, .number (address - slot - 1)]) := by
  change Item.operation _ <$> (table.address (.name target) >>= _) = _
  rw [address_name, h]
  rfl

theorem resolveItem_jump (table : LabelTable) (slot : Nat) (target : String) {address : Int}
    (h : table.find? target = some address) :
    table.resolveItem slot (Statement.jump target).toItem =
      .ok (.operation Mnemonic.j.name [.number address]) := by
  change Item.operation _ <$> (table.address (.name target) >>= _) = _
  rw [address_name, h]
  rfl

/-- A reference to a label that the table does not have is a fault. -/
theorem resolveItem_undeclared (table : LabelTable) (slot : Nat) {s : Statement} {name : String}
    (hs : s.reference? = some name) (h : table.find? name = none) :
    table.resolveItem slot s.toItem = .error (.undeclaredLabel (.name name)) := by
  cases s with
  | beq first second target =>
    have htarget : target = name := Option.some.inj hs
    subst htarget
    change Item.operation _ <$> (table.address (.name target) >>= _) = _
    rw [address_name, h]
    rfl
  | jump target =>
    have htarget : target = name := Option.some.inj hs
    subst htarget
    change Item.operation _ <$> (table.address (.name target) >>= _) = _
    rw [address_name, h]
    rfl
  | _ => exact absurd hs (by simp [Statement.reference?])

/-- A statement resolves exactly when the label it refers to is in the table. -/
theorem exists_resolveItem_iff {table : LabelTable} {slot : Nat} {s : Statement} :
    (∃ r, table.resolveItem slot s.toItem = .ok r) ↔
      ∀ name, s.reference? = some name → table.contains name = true := by
  cases href : s.reference? with
  | none =>
    rw [resolveItem_of_reference?_eq_none table slot href]
    exact ⟨fun _ name h => absurd h (by simp), fun _ => ⟨s.toItem, rfl⟩⟩
  | some target =>
    cases hfind : table.find? target with
    | none =>
      rw [resolveItem_undeclared table slot href hfind]
      constructor
      · rintro ⟨r, hr⟩
        cases hr
      · intro h
        exact absurd (h target rfl) (contains_ne_true_iff.mpr hfind)
    | some address =>
      refine ⟨fun _ name h => ?_, fun _ => ?_⟩
      · cases h
        rw [contains, hfind]
        rfl
      · cases s with
        | beq first second t =>
          cases href
          exact ⟨_, resolveItem_beq table slot first second target hfind⟩
        | jump t =>
          cases href
          exact ⟨_, resolveItem_jump table slot target hfind⟩
        | _ => exact absurd href (by simp [Statement.reference?])

/-- The only fault at a slot is that its label is not in the table. -/
theorem resolveItem_eq_error_iff {table : LabelTable} {slot : Nat} {s : Statement} {fault : Fault} :
    table.resolveItem slot s.toItem = .error fault ↔
      ∃ name, s.reference? = some name ∧ table.contains name ≠ true ∧
        fault = .undeclaredLabel (.name name) := by
  constructor
  · intro hfault
    have hnot : ¬ ∃ r, table.resolveItem slot s.toItem = .ok r := by
      rintro ⟨r, hr⟩
      rw [hr] at hfault
      cases hfault
    rw [exists_resolveItem_iff] at hnot
    push Not at hnot
    obtain ⟨name, href, hcontains⟩ := hnot
    rw [resolveItem_undeclared table slot href (contains_ne_true_iff.mp hcontains)] at hfault
    cases hfault
    exact ⟨name, href, hcontains, rfl⟩
  · rintro ⟨name, href, hcontains, rfl⟩
    exact resolveItem_undeclared table slot href (contains_ne_true_iff.mp hcontains)

end LabelTable
end MipsAssembler
