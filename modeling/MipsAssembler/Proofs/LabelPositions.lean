import Mathlib
import MipsAssembler.Layout
import MipsAssembler.Proofs.Outcome

/-!
# Where labels stand

The first pass carries a table, a list and a counter through the items of a
program.  What it computes can be said without any of them: a label stands for the
number of slots before it.  This file says it that way and proves that the pass
agrees.

* `Item.labels` and `Item.slots` are the two kinds of items of a program, in order.
* `Item.Marks items name t`: the label `name` is declared behind `t` slots.
* `Item.Redeclares items name`: `name` is the first label whose declaration comes
  after another one of the same name.

The invariant of the pass is `Layout.Describes`: the layout is the one of the items
seen so far.  One step lemma for a label and one for any other item keep it, and
`extend_describes` follows the pass to its end or to the label that stops it.  The
pass stops exactly at a redeclared label, so it succeeds exactly when the labels are
distinct.
-/

namespace MipsAssembler
namespace Item

/-- The labels that are declared, in order. -/
def labels (items : List Item) : List String := items.filterMap declares?

/-- The items that take slots, in order. -/
def slots (items : List Item) : List Item := items.filter occupiesSlot

/-- The label `name` is declared behind `t` slots. -/
def Marks (items : List Item) (name : String) (t : Nat) : Prop :=
  ∃ before after, items = before ++ label name :: after ∧ t = (slots before).length

/-- Up to here no label was declared twice, and now `name` is. -/
def Redeclares (items : List Item) (name : String) : Prop :=
  ∃ before after, items = before ++ label name :: after ∧
    (labels before).Nodup ∧ name ∈ labels before

/-! ## Labels and slots of composed programs -/

@[simp] theorem labels_nil : labels [] = [] := rfl

@[simp] theorem labels_append (xs ys : List Item) : labels (xs ++ ys) = labels xs ++ labels ys :=
  List.filterMap_append

@[simp] theorem labels_label_cons (name : String) (items : List Item) :
    labels (label name :: items) = name :: labels items := rfl

theorem labels_cons_of_occupiesSlot {item : Item} (h : item.occupiesSlot = true)
    (items : List Item) : labels (item :: items) = labels items := by
  cases item with
  | label name => exact absurd h (by simp [occupiesSlot])
  | _ => rfl

@[simp] theorem slots_nil : slots [] = [] := rfl

@[simp] theorem slots_append (xs ys : List Item) : slots (xs ++ ys) = slots xs ++ slots ys :=
  List.filter_append xs ys

@[simp] theorem slots_label_cons (name : String) (items : List Item) :
    slots (label name :: items) = slots items := rfl

theorem slots_cons_of_occupiesSlot {item : Item} (h : item.occupiesSlot = true)
    (items : List Item) : slots (item :: items) = item :: slots items :=
  List.filter_cons_of_pos h

theorem mem_labels_iff {items : List Item} {name : String} :
    name ∈ labels items ↔ label name ∈ items := by
  rw [labels, List.mem_filterMap]
  constructor
  · rintro ⟨item, hitem, hname⟩
    cases item with
    | label n =>
      have hn : n = name := Option.some.inj hname
      rwa [← hn]
    | _ => exact absurd hname (by simp [declares?])
  · exact fun h => ⟨label name, h, rfl⟩

theorem mem_labels_iff_marks {items : List Item} {name : String} :
    name ∈ labels items ↔ ∃ t, Marks items name t := by
  rw [mem_labels_iff]
  constructor
  · intro h
    obtain ⟨before, after, hsplit⟩ := List.append_of_mem h
    exact ⟨_, before, after, hsplit, rfl⟩
  · rintro ⟨t, before, after, hsplit, -⟩
    rw [hsplit]
    exact List.mem_append_right _ (List.mem_cons_self ..)

/-! ## Marks of composed programs -/

/-- A label of two programs in a row belongs to the first, or to the second and is then moved
up by the slots of the first. -/
theorem marks_append {xs ys : List Item} {name : String} {t : Nat} :
    Marks (xs ++ ys) name t ↔
      Marks xs name t ∨ ∃ u, Marks ys name u ∧ t = (slots xs).length + u := by
  constructor
  · rintro ⟨before, after, hsplit, rfl⟩
    rcases List.append_eq_append_iff.mp hsplit with ⟨mid, rfl, hys⟩ | ⟨mid, rfl, hmid⟩
    · exact Or.inr ⟨_, ⟨mid, after, hys, rfl⟩, by rw [slots_append, List.length_append]⟩
    · cases mid with
      | nil => exact Or.inr ⟨0, ⟨[], after, hmid.symm, rfl⟩, by rw [List.append_nil, Nat.add_zero]⟩
      | cons item mid =>
        injection hmid with hitem hafter
        exact Or.inl ⟨before, mid, by rw [hitem], rfl⟩
  · rintro (⟨before, after, rfl, rfl⟩ | ⟨_, ⟨before, after, rfl, rfl⟩, rfl⟩)
    · exact ⟨before, after ++ ys, by simp, rfl⟩
    · exact ⟨xs ++ before, after, by simp, by simp⟩

theorem marks_label {declared name : String} {t : Nat} :
    Marks [label declared] name t ↔ name = declared ∧ t = 0 := by
  constructor
  · rintro ⟨before, after, hsplit, rfl⟩
    cases before with
    | nil =>
      injection hsplit with hlabel
      injection hlabel with hname
      exact ⟨hname.symm, rfl⟩
    | cons item before =>
      injection hsplit with _ hnil
      exact absurd hnil (by simp)
  · rintro ⟨rfl, rfl⟩
    exact ⟨[], [], rfl, rfl⟩

theorem marks_append_label {items : List Item} {declared name : String} {t : Nat} :
    Marks (items ++ [label declared]) name t ↔
      Marks items name t ∨ (name = declared ∧ t = (slots items).length) := by
  rw [marks_append]
  refine or_congr_right ⟨?_, fun ⟨hname, ht⟩ => ⟨0, marks_label.mpr ⟨hname, rfl⟩, ht⟩⟩
  rintro ⟨u, hu, rfl⟩
  obtain ⟨hname, rfl⟩ := marks_label.mp hu
  exact ⟨hname, rfl⟩

theorem marks_append_of_occupiesSlot {items : List Item} {item : Item} {name : String} {t : Nat}
    (h : item.occupiesSlot = true) : Marks (items ++ [item]) name t ↔ Marks items name t := by
  rw [marks_append]
  refine or_iff_left ?_
  rintro ⟨u, hu, -⟩
  have hmem := mem_labels_iff_marks.mpr ⟨u, hu⟩
  rw [labels_cons_of_occupiesSlot h] at hmem
  exact List.not_mem_nil hmem

/-! ## The first label that is declared twice -/

theorem Redeclares.not_nodup {items : List Item} {name : String} (h : Redeclares items name) :
    ¬ (labels items).Nodup := by
  obtain ⟨before, after, rfl, -, hmem⟩ := h
  intro hnodup
  rw [labels_append, labels_label_cons] at hnodup
  exact (List.nodup_append.mp hnodup).2.2 name hmem name (List.mem_cons_self ..) rfl

/-- At most one label is the first that is declared twice. -/
theorem Redeclares.unique {items : List Item} {name name' : String}
    (h : Redeclares items name) (h' : Redeclares items name') : name = name' := by
  obtain ⟨before, after, hsplit, hnodup, hmem⟩ := h
  obtain ⟨before', after', hsplit', hnodup', hmem'⟩ := h'
  rcases List.append_eq_append_iff.mp (hsplit.symm.trans hsplit') with
    ⟨mid, hbefore', hmid⟩ | ⟨mid, hbefore, hmid⟩
  · cases mid with
    | nil =>
      injection hmid with hlabel
      injection hlabel
    | cons item mid =>
      -- the declaration of `name` lies inside the part without repetitions
      injection hmid with hitem hrest
      have hinner : Redeclares before' name := ⟨before, mid, by rw [hbefore', hitem], hnodup, hmem⟩
      exact absurd hnodup' hinner.not_nodup
  · cases mid with
    | nil =>
      injection hmid with hlabel
      injection hlabel with hname
      exact hname.symm
    | cons item mid =>
      injection hmid with hitem hrest
      have hinner : Redeclares before name' := ⟨before', mid, by rw [hbefore, hitem], hnodup', hmem'⟩
      exact absurd hnodup hinner.not_nodup

end Item

/-! ## The invariant of the first pass -/

namespace Layout

@[simp] theorem slots_declare (l : Layout) (name : String) : (l.declare name).slots = l.slots := rfl

@[simp] theorem count_declare (l : Layout) (name : String) : (l.declare name).count = l.count := rfl

@[simp] theorem slots_occupy (l : Layout) (item : Item) :
    (l.occupy item).slots = l.slots ++ [item] := List.reverse_cons

@[simp] theorem count_occupy (l : Layout) (item : Item) : (l.occupy item).count = l.count + 1 := rfl

@[simp] theorem table_occupy (l : Layout) (item : Item) : (l.occupy item).table = l.table := rfl

/-- The layout of the items `done`, among which no label is declared twice. -/
structure Describes (l : Layout) (done : List Item) : Prop where
  slots_eq : l.slots = Item.slots done
  count_eq : l.count = (Item.slots done).length
  distinct : (Item.labels done).Nodup
  find?_iff : ∀ name address, l.table.find? name = some address ↔
    ∃ t : Nat, address = t ∧ Item.Marks done name t

theorem describes_empty : Describes empty [] where
  slots_eq := rfl
  count_eq := rfl
  distinct := List.nodup_nil
  find?_iff name address := by
    constructor
    · intro h
      exact absurd h (by simp [empty])
    · rintro ⟨t, -, before, after, hsplit, -⟩
      exact absurd hsplit (by simp)

namespace Describes

variable {l : Layout} {done : List Item}

/-- The table knows exactly the labels that were declared. -/
theorem contains_iff (h : Describes l done) (name : String) :
    l.table.contains name = true ↔ name ∈ Item.labels done := by
  rw [LabelTable.contains, Option.isSome_iff_exists, Item.mem_labels_iff_marks]
  constructor
  · rintro ⟨address, haddress⟩
    obtain ⟨t, -, ht⟩ := (h.find?_iff name address).mp haddress
    exact ⟨t, ht⟩
  · rintro ⟨t, ht⟩
    exact ⟨t, (h.find?_iff name t).mpr ⟨t, rfl, ht⟩⟩

/-- A label that was declared marks one slot, the one that the table has for it. -/
theorem exists_marks_of_contains (h : Describes l done) {name : String}
    (hname : l.table.contains name = true) :
    ∃ t : Nat, l.table.find? name = some (t : Int) ∧ Item.Marks done name t ∧
      (∀ t', Item.Marks done name t' → t' = t) ∧ (Item.labels done).count name = 1 := by
  obtain ⟨address, hfind⟩ := Option.isSome_iff_exists.mp hname
  obtain ⟨t, rfl, ht⟩ := (h.find?_iff name address).mp hfind
  refine ⟨t, hfind, ht, fun t' ht' => ?_, ?_⟩
  · have hfind' := (h.find?_iff name t').mpr ⟨t', rfl, ht'⟩
    rw [hfind, Option.some.injEq] at hfind'
    exact_mod_cast hfind'.symm
  · exact List.count_eq_one_of_mem h.distinct ((h.contains_iff name).mp hname)

/-- A label that is new is declared. -/
theorem declare (h : Describes l done) {name : String} (hnew : name ∉ Item.labels done) :
    Describes (l.declare name) (done ++ [.label name]) where
  slots_eq := by simpa using h.slots_eq
  count_eq := by simpa using h.count_eq
  distinct := by
    rw [Item.labels_append, Item.labels_label_cons, Item.labels_nil]
    exact List.nodup_append.mpr ⟨h.distinct, List.nodup_singleton name, fun a ha b hb hab => by
      rw [List.mem_singleton] at hb
      rw [hab, hb] at ha
      exact hnew ha⟩
  find?_iff other address := by
    rw [Layout.declare, LabelTable.find?_declare]
    by_cases hother : other = name
    · rw [if_pos hother, Option.some.injEq, h.count_eq]
      constructor
      · intro haddress
        exact ⟨_, haddress.symm, Item.marks_append_label.mpr (Or.inr ⟨hother, rfl⟩)⟩
      · rintro ⟨t, rfl, ht⟩
        rcases Item.marks_append_label.mp ht with hold | ⟨-, rfl⟩
        · rw [hother] at hold
          exact absurd (Item.mem_labels_iff_marks.mpr ⟨t, hold⟩) hnew
        · rfl
    · rw [if_neg hother, h.find?_iff]
      refine exists_congr fun t => and_congr_right fun _ => ?_
      rw [Item.marks_append_label]
      exact ⟨Or.inl, fun ht => ht.resolve_right fun hsame => hother hsame.1⟩

/-- Any other item takes the next slot. -/
theorem occupy (h : Describes l done) {item : Item} (hitem : item.occupiesSlot = true) :
    Describes (l.occupy item) (done ++ [item]) where
  slots_eq := by
    rw [slots_occupy, h.slots_eq, Item.slots_append, Item.slots_cons_of_occupiesSlot hitem, Item.slots_nil]
  count_eq := by
    rw [count_occupy, h.count_eq, Item.slots_append, Item.slots_cons_of_occupiesSlot hitem,
      Item.slots_nil, List.length_append, List.length_singleton]
  distinct := by
    rw [Item.labels_append, Item.labels_cons_of_occupiesSlot hitem, Item.labels_nil,
      List.append_nil]
    exact h.distinct
  find?_iff name address := by
    rw [table_occupy, h.find?_iff]
    exact exists_congr fun t => and_congr_right fun _ =>
      (Item.marks_append_of_occupiesSlot hitem).symm

end Describes

/-! ## The first pass -/

theorem extend_nil (l : Layout) : l.extend [] = ⟨l, none⟩ := rfl

theorem extend_label_of_contains {l : Layout} {name : String} (h : l.table.contains name = true)
    (items : List Item) : l.extend (.label name :: items) = ⟨l, some (.duplicateLabel name)⟩ := by
  rw [extend, if_pos h]

theorem extend_label_of_not_contains {l : Layout} {name : String}
    (h : ¬ l.table.contains name = true) (items : List Item) :
    l.extend (.label name :: items) = (l.declare name).extend items := by
  rw [extend, if_neg h]

theorem extend_of_occupiesSlot {l : Layout} {item : Item} (h : item.occupiesSlot = true)
    (items : List Item) : l.extend (item :: items) = (l.occupy item).extend items := by
  cases item with
  | label name => exact absurd h (by simp [Item.occupiesSlot])
  | _ => rfl

/-- The pass keeps its invariant to the end, or up to a label that is declared for
the second time. -/
theorem extend_describes {l : Layout} {done : List Item} (h : Describes l done)
    (items : List Item) :
    ((l.extend items).fault = none ∧ Describes (l.extend items).reached (done ++ items)) ∨
      ∃ before name after, items = before ++ .label name :: after ∧
        (l.extend items).fault = some (.duplicateLabel name) ∧
        Describes (l.extend items).reached (done ++ before) ∧
        name ∈ Item.labels (done ++ before) := by
  induction items generalizing l done with
  | nil =>
    rw [extend_nil, List.append_nil]
    exact Or.inl ⟨rfl, h⟩
  | cons item items ih =>
    -- what the rest of the pass does from the next layout, moved one item to the left
    have step : ∀ {l' : Layout}, l.extend (item :: items) = l'.extend items →
        Describes l' (done ++ [item]) →
        ((l.extend (item :: items)).fault = none ∧
            Describes (l.extend (item :: items)).reached (done ++ item :: items)) ∨
          ∃ before name after, item :: items = before ++ .label name :: after ∧
            (l.extend (item :: items)).fault = some (.duplicateLabel name) ∧
            Describes (l.extend (item :: items)).reached (done ++ before) ∧
            name ∈ Item.labels (done ++ before) := by
      intro l' hextend hnext
      rw [hextend]
      rcases ih hnext with ⟨hfault, hreached⟩ | ⟨before, name, after, rfl, hfault, hreached, hmem⟩
      · rw [List.append_assoc, List.singleton_append] at hreached
        exact Or.inl ⟨hfault, hreached⟩
      · rw [List.append_assoc, List.singleton_append] at hreached hmem
        exact Or.inr ⟨item :: before, name, after, rfl, hfault, hreached, hmem⟩
    by_cases hslot : item.occupiesSlot = true
    · exact step (extend_of_occupiesSlot hslot items) (h.occupy hslot)
    · cases item with
      | label name =>
        by_cases hname : l.table.contains name = true
        · rw [extend_label_of_contains hname]
          refine Or.inr ⟨[], name, items, rfl, rfl, ?_, ?_⟩
          · rwa [List.append_nil]
          · rw [List.append_nil]
            exact (h.contains_iff name).mp hname
        · have hnew : name ∉ Item.labels done := fun hmem => hname ((h.contains_iff name).mpr hmem)
          exact step (extend_label_of_not_contains hname items) (h.declare hnew)
      | _ => exact absurd rfl hslot

/-- The first pass gives the layout of all items, or stops at the first label that is
declared twice. -/
theorem ofItems_cases (items : List Item) :
    (∃ l, ofItems items = .ok l ∧ Describes l items) ∨
      ∃ name, ofItems items = .error (.duplicateLabel name) ∧ Item.Redeclares items name := by
  rcases extend_describes describes_empty items with
    ⟨hfault, hreached⟩ | ⟨before, name, after, hsplit, hfault, hreached, hmem⟩
  · refine Or.inl ⟨_, ?_, hreached⟩
    rw [ofItems, Progress.toExcept, place, hfault]
  · refine Or.inr ⟨name, ?_, before, after, hsplit, hreached.distinct, hmem⟩
    rw [ofItems, Progress.toExcept, place, hfault]

theorem describes_of_ofItems {items : List Item} {l : Layout} (h : ofItems items = .ok l) :
    Describes l items := by
  rcases ofItems_cases items with ⟨l', hl', hdescribes⟩ | ⟨name, herror, -⟩
  · rw [hl'] at h
    cases h
    exact hdescribes
  · rw [herror] at h
    cases h

/-- The first pass succeeds exactly when the labels are distinct. -/
theorem exists_ofItems_iff {items : List Item} :
    (∃ l, ofItems items = .ok l) ↔ (Item.labels items).Nodup := by
  constructor
  · rintro ⟨l, hl⟩
    exact (describes_of_ofItems hl).distinct
  · intro hnodup
    rcases ofItems_cases items with ⟨l, hl, -⟩ | ⟨name, -, hname⟩
    · exact ⟨l, hl⟩
    · exact absurd hnodup hname.not_nodup

/-- The first pass fails exactly at the first label that is declared twice. -/
theorem ofItems_eq_error_iff {items : List Item} {fault : Fault} :
    ofItems items = .error fault ↔
      ∃ name, fault = .duplicateLabel name ∧ Item.Redeclares items name := by
  rcases ofItems_cases items with ⟨l, hl, hdescribes⟩ | ⟨name, herror, hname⟩
  · constructor
    · intro h
      rw [hl] at h
      cases h
    · rintro ⟨name, -, hname⟩
      exact absurd hdescribes.distinct hname.not_nodup
  · rw [herror]
    constructor
    · intro h
      cases h
      exact ⟨name, rfl, hname⟩
    · rintro ⟨name', rfl, hname'⟩
      rw [hname.unique hname']

end Layout

/-- Where no label is declared twice, a label stands in one place. -/
theorem Item.Marks.unique {items : List Item} {name : String} {t u : Nat}
    (h : Item.Marks items name t) (hdistinct : (Item.labels items).Nodup)
    (hu : Item.Marks items name u) : t = u := by
  obtain ⟨l, hl⟩ := Layout.exists_ofItems_iff.mpr hdistinct
  have hdescribes := Layout.describes_of_ofItems hl
  have hcontains := (hdescribes.contains_iff name).mpr (Item.mem_labels_iff_marks.mpr ⟨t, h⟩)
  obtain ⟨_, -, -, hunique, -⟩ := hdescribes.exists_marks_of_contains hcontains
  exact (hunique t h).trans (hunique u hu).symm

end MipsAssembler
