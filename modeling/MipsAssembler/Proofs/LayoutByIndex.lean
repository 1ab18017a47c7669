import Mathlib
import MipsAssembler.Proofs.LabelPositions

/-!
# The first pass by index

`LabelPositions` describes the first pass by cutting a program at a label into what comes
before and what comes after.  Whoever holds the list of items thinks of indices instead: the
label at index `k` stands for the number of slots at indices below `k`, and a program is
refused at the first index at which a label comes for the second time.  This file states the
result of the pass in those terms, together with what follows from counting: no label has a
number above that of all slots, a label has that number exactly when no slot comes after it,
and the numbers of labels do not decrease in the order of their declarations.

* `Item.slotsBelow items k` counts the slots below an index.  It grows with the index, and it
  has reached the number of all slots exactly when only labels are left.
* `Item.RepeatsAt items k name`: the label at index `k` was declared at an earlier index.
* `Layout.LaysOut` is what a layout says about the list of items.

The two descriptions are tied together once, by `exists_split_iff`: to cut a list at an element
is to name an index of that element.
-/

namespace MipsAssembler
namespace Item

/-! ## Cutting at an index -/

theorem eq_take_append_cons_drop {items : List Item} {k : Nat} {item : Item}
    (h : items[k]? = some item) : items = items.take k ++ item :: items.drop (k + 1) := by
  obtain ⟨hlt, hget⟩ := List.getElem?_eq_some_iff.mp h
  rw [← hget, ← List.drop_eq_getElem_cons hlt, List.take_append_drop]

/-- Cutting a list at an element means naming an index of it. -/
theorem exists_split_iff {items : List Item} {item : Item} {P : List Item → Prop} :
    (∃ before after, items = before ++ item :: after ∧ P before) ↔
      ∃ k : Nat, items[k]? = some item ∧ P (items.take k) := by
  constructor
  · rintro ⟨before, after, rfl, h⟩
    refine ⟨before.length, ?_, ?_⟩
    · rw [List.getElem?_append_right le_rfl, Nat.sub_self, List.getElem?_cons_zero]
    · rwa [List.take_left']
      rfl
  · rintro ⟨k, hk, h⟩
    exact ⟨items.take k, items.drop (k + 1), eq_take_append_cons_drop hk, h⟩

/-! ## Counting slots -/

/-- The number of slots at indices below `k`. -/
def slotsBelow (items : List Item) (k : Nat) : Nat := (items.take k).countP occupiesSlot

section SlotsBelow

variable {items : List Item} {j k : Nat}

theorem slotsBelow_eq_length : slotsBelow items k = (slots (items.take k)).length :=
  List.countP_eq_length_filter

theorem slotsBelow_mono (h : j ≤ k) : slotsBelow items j ≤ slotsBelow items k :=
  (List.take_isPrefix_take.mpr (Or.inl h)).sublist.countP_le

/-- The slots below an index and those from it on are all slots. -/
theorem slotsBelow_add_countP_drop (items : List Item) (k : Nat) :
    slotsBelow items k + (items.drop k).countP occupiesSlot = (slots items).length := by
  rw [slotsBelow, ← List.countP_append, List.take_append_drop, slots, List.countP_eq_length_filter]

theorem slotsBelow_le : slotsBelow items k ≤ (slots items).length := by
  have hsum := slotsBelow_add_countP_drop items k
  omega

/-- All slots are below an index exactly when there is none from it on. -/
theorem slotsBelow_eq_length_slots_iff :
    slotsBelow items k = (slots items).length ↔
      ∀ j item, k ≤ j → items[j]? = some item → item.occupiesSlot = false := by
  have hsum := slotsBelow_add_countP_drop items k
  have hnone : slotsBelow items k = (slots items).length ↔
      (items.drop k).countP occupiesSlot = 0 := by omega
  rw [hnone, List.countP_eq_zero]
  constructor
  · intro h j item hj hitem
    have hmem : item ∈ items.drop k := by
      refine List.mem_of_getElem? (i := j - k) ?_
      rw [List.getElem?_drop, Nat.add_sub_cancel' hj, hitem]
    exact Bool.eq_false_iff.mpr (h item hmem)
  · intro h item hmem
    obtain ⟨i, hi⟩ := List.mem_iff_getElem?.mp hmem
    rw [List.getElem?_drop] at hi
    exact Bool.eq_false_iff.mp (h (k + i) item (Nat.le_add_right k i) hi)

end SlotsBelow

/-- A label marks the number of slots below its index. -/
theorem marks_iff_getElem? {items : List Item} {name : String} {t : Nat} :
    Marks items name t ↔ ∃ k : Nat, items[k]? = some (label name) ∧ t = slotsBelow items k := by
  rw [Marks, exists_split_iff]
  simp only [slotsBelow_eq_length]

/-! ## Labels that come again -/

/-- The label at index `k` was declared at an earlier index. -/
def RepeatsAt (items : List Item) (k : Nat) (name : String) : Prop :=
  items[k]? = some (label name) ∧ ∃ j < k, items[j]? = some (label name)

section RepeatsAt

variable {items : List Item} {k : Nat} {name : String}

theorem mem_labels_take_iff :
    name ∈ labels (items.take k) ↔ ∃ j < k, items[j]? = some (label name) := by
  rw [mem_labels_iff, List.mem_iff_getElem?]
  refine exists_congr fun j => ?_
  rw [List.getElem?_take]
  by_cases hj : j < k
  · rw [if_pos hj, and_iff_right hj]
  · rw [if_neg hj]
    exact ⟨fun h => absurd h (by simp), fun h => absurd h.1 hj⟩

theorem repeatsAt_iff :
    RepeatsAt items k name ↔ items[k]? = some (label name) ∧ name ∈ labels (items.take k) :=
  and_congr_right fun _ => mem_labels_take_iff.symm

/-- What comes before index `k` has the repetitions at the indices below `k`. -/
theorem repeatsAt_take_iff {i : Nat} :
    RepeatsAt (items.take k) i name ↔ i < k ∧ RepeatsAt items i name := by
  constructor
  · rintro ⟨hi, j, hj, hname⟩
    rw [List.getElem?_take] at hi hname
    split at hi
    · next hik =>
      rw [if_pos (hj.trans hik)] at hname
      exact ⟨hik, hi, j, hj, hname⟩
    · cases hi
  · rintro ⟨hik, hi, j, hj, hname⟩
    refine ⟨?_, j, hj, ?_⟩
    · rw [List.getElem?_take, if_pos hik, hi]
    · rw [List.getElem?_take, if_pos (hj.trans hik), hname]

/-- The labels are distinct exactly when none comes again. -/
theorem nodup_labels_iff : (labels items).Nodup ↔ ∀ k name, ¬ RepeatsAt items k name := by
  constructor
  · intro hnodup k name hrepeats
    obtain ⟨before, after, hsplit, hmem⟩ :=
      (exists_split_iff (P := fun before => name ∈ labels before)).mpr
        ⟨k, repeatsAt_iff.mp hrepeats⟩
    rw [hsplit, labels_append, labels_label_cons] at hnodup
    exact (List.nodup_append.mp hnodup).2.2 name hmem name List.mem_cons_self rfl
  · intro hnone
    rcases Layout.ofItems_cases items with ⟨l, -, hl⟩ | ⟨name, -, hname⟩
    · exact hl.distinct
    · obtain ⟨k, hk, -, hmem⟩ := exists_split_iff.mp hname
      exact absurd (repeatsAt_iff.mpr ⟨hk, hmem⟩) (hnone k name)

/-- The label at which a program is refused is the first one that comes again. -/
theorem redeclares_iff_repeatsAt :
    Redeclares items name ↔
      ∃ k, RepeatsAt items k name ∧ ∀ i < k, ∀ other, ¬ RepeatsAt items i other := by
  rw [Redeclares, exists_split_iff]
  refine exists_congr fun k => ?_
  rw [nodup_labels_iff, repeatsAt_iff]
  have hbelow : (∀ i other, ¬ RepeatsAt (items.take k) i other) ↔
      ∀ i < k, ∀ other, ¬ RepeatsAt items i other := by
    simp only [repeatsAt_take_iff, not_and]
    exact ⟨fun h i hi other => h i other hi, fun h i other hi => h i hi other⟩
  rw [hbelow]
  constructor
  · rintro ⟨hk, hnone, hmem⟩
    exact ⟨⟨hk, hmem⟩, hnone⟩
  · rintro ⟨⟨hk, hmem⟩, hnone⟩
    exact ⟨hk, hnone, hmem⟩

end RepeatsAt
end Item

/-! ## The result of the first pass -/

namespace Layout

/-- The layout `l` says about the list of items: the slots are the items that are not labels,
in order; the table has the labels, each once; and a label has the number of slots below its
index.  The other conditions follow from this by counting. -/
structure LaysOut (l : Layout) (items : List Item) : Prop where
  slots_eq : l.slots = Item.slots items
  keys_perm : (l.table.entries.map Prod.fst).Perm (Item.labels items)
  contains_iff : ∀ name, l.table.contains name = true ↔ .label name ∈ items
  find?_label : ∀ (k : Nat) (name : String), items[k]? = some (.label name) →
    l.table.find? name = some (Item.slotsBelow items k : Int)
  bounds : ∀ name address, l.table.find? name = some address →
    0 ≤ address ∧ address ≤ l.slots.length
  at_end_iff : ∀ (k : Nat) (name : String), items[k]? = some (.label name) →
    (l.table.find? name = some (l.slots.length : Int) ↔
      ∀ j item, k < j → items[j]? = some item → item.occupiesSlot = false)
  in_order : ∀ (j k : Nat) (name name' : String) (a b : Int), j < k →
    items[j]? = some (.label name) → items[k]? = some (.label name') →
      l.table.find? name = some a → l.table.find? name' = some b → a ≤ b

/-- The pass puts the labels into the table one by one. -/
theorem keys_extend (l : Layout) (items : List Item) (h : (l.extend items).fault = none) :
    (l.extend items).reached.table.entries.map Prod.fst =
      (Item.labels items).reverse ++ l.table.entries.map Prod.fst := by
  fun_induction Layout.extend l items with
  | case1 l => rfl
  | case2 l name items hname => cases h
  | case3 l name items hname ih =>
    rw [ih h, Item.labels_label_cons, List.reverse_cons, List.append_assoc]
    rfl
  | case4 l item items hitem ih =>
    have hslot : item.occupiesSlot = true := by
      cases item with
      | label name => exact absurd rfl (hitem name)
      | _ => rfl
    rw [ih h, Item.labels_cons_of_occupiesSlot hslot, table_occupy]

theorem keys_ofItems {items : List Item} {l : Layout} (h : ofItems items = .ok l) :
    l.table.entries.map Prod.fst = (Item.labels items).reverse := by
  rw [ofItems, Progress.toExcept] at h
  split at h
  · next hfault =>
    cases h
    exact (keys_extend empty items hfault).trans (List.append_nil _)
  · cases h

namespace Describes

variable {l : Layout} {items : List Item}

theorem find?_getElem? (h : Describes l items) {k : Nat} {name : String}
    (hk : items[k]? = some (.label name)) :
    l.table.find? name = some (Item.slotsBelow items k : Int) :=
  (h.find?_iff name _).mpr ⟨_, rfl, Item.marks_iff_getElem?.mpr ⟨k, hk, rfl⟩⟩

/-- A label stands at the end exactly when no slot comes after it. -/
theorem find?_eq_length_iff (h : Describes l items) {k : Nat} {name : String}
    (hk : items[k]? = some (.label name)) :
    l.table.find? name = some (l.slots.length : Int) ↔
      ∀ j item, k < j → items[j]? = some item → item.occupiesSlot = false := by
  rw [h.find?_getElem? hk, Option.some.injEq, Nat.cast_inj, h.slots_eq,
    Item.slotsBelow_eq_length_slots_iff]
  refine ⟨fun hall j item hj => hall j item hj.le, fun hall j item hj hitem => ?_⟩
  rcases hj.eq_or_lt with rfl | hlt
  · -- the item at the index itself is the label
    cases hk.symm.trans hitem
    rfl
  · exact hall j item hlt hitem

theorem laysOut (h : Describes l items) (hl : ofItems items = .ok l) : l.LaysOut items where
  slots_eq := h.slots_eq
  keys_perm := keys_ofItems hl ▸ List.reverse_perm _
  contains_iff name := (h.contains_iff name).trans Item.mem_labels_iff
  find?_label _ _ := h.find?_getElem?
  bounds name address hfind := by
    obtain ⟨t, rfl, ht⟩ := (h.find?_iff name address).mp hfind
    obtain ⟨k, -, rfl⟩ := Item.marks_iff_getElem?.mp ht
    rw [h.slots_eq]
    exact ⟨Int.natCast_nonneg _, Int.ofNat_le.mpr Item.slotsBelow_le⟩
  at_end_iff _ _ := h.find?_eq_length_iff
  in_order j k name name' a b hjk hj hk ha hb := by
    rw [h.find?_getElem? hj] at ha
    rw [h.find?_getElem? hk] at hb
    rw [← Option.some.inj ha, ← Option.some.inj hb]
    exact Int.ofNat_le.mpr (Item.slotsBelow_mono hjk.le)

end Describes

/-- **The first pass computes the layout.**  It succeeds exactly when no label is declared
twice, and then lays the items out as `LaysOut` says.  Otherwise it stops at the first label, in
the order of the list, whose name was declared at an earlier index. -/
theorem ofItems_computes_layout (items : List Item) :
    ((∃ l, ofItems items = .ok l) ↔ (Item.labels items).Nodup) ∧
      (∀ l, ofItems items = .ok l → l.LaysOut items) ∧
      ∀ fault, ofItems items = .error fault ↔
        ∃ k name, fault = .duplicateLabel name ∧ Item.RepeatsAt items k name ∧
          ∀ i < k, ∀ other, ¬ Item.RepeatsAt items i other := by
  refine ⟨exists_ofItems_iff, fun l hl => (describes_of_ofItems hl).laysOut hl, fun fault => ?_⟩
  rw [ofItems_eq_error_iff, exists_comm]
  refine exists_congr fun name => ?_
  rw [exists_and_left, Item.redeclares_iff_repeatsAt]

end Layout
end MipsAssembler
