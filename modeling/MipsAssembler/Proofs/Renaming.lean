import Mathlib
import MipsAssembler.Proofs.References

/-!
# The names of labels

A label has a name only so that branches and jumps can say which label they mean.  Once
the references are resolved the names are gone, and it should make no difference which
names they were.  This file makes that precise for the two passes of the linker, on items
of any kind:

* renaming the labels and the references to them together leaves the linked program as it
  is, and changes nothing in a fault but the name it quotes, provided that no two names of
  the program are made equal;
* a label with a name that occurs nowhere else may be put anywhere.

## One invariant for both

Both facts compare two runs of the first pass whose tables answer the same questions in
the same way, where the questions are the names in a set `N` that contains all names of the
program.  `Layout.Agrees f N` is that relation: the second layout has the slots of the first
with the names in them renamed by `f`, and for every name in `N` its table has under the
new name what the first has under the old one.  What the tables have under other names is
left open.  For a renaming the two runs start equal and stay related, because `f` does not
identify names of `N`.  For an additional label `f` is the identity, and the two runs become
related when the second declares the label, whose name is not in `N`.

The second pass asks its table only for names in `N`, so related layouts are resolved to
the same program.
-/

namespace MipsAssembler

/-! ## Renaming -/

/-- A name is replaced, any other operand is kept. -/
def Operand.rename (f : String → String) : Operand → Operand
  | name text => name (f text)
  | operand => operand

@[simp] theorem Operand.rename_id (a : Operand) : a.rename id = a := by
  cases a <;> rfl

/-- The name that a fault of linking quotes is replaced. -/
def Fault.rename (f : String → String) : Fault → Fault
  | duplicateLabel name => duplicateLabel (f name)
  | undeclaredLabel reference => undeclaredLabel (reference.rename f)
  | fault => fault

@[simp] theorem Fault.rename_id (fault : Fault) : fault.rename id = fault := by
  cases fault with
  | undeclaredLabel reference => rw [rename, Operand.rename_id]
  | _ => rfl

namespace Item

/-- The position of the operand by which an item refers to a label: the third of a branch
and the first of a jump. -/
def referencePosition? : Item → Option Nat
  | operation name _ => if name = "beq" then some 2 else if name = "j" then some 0 else none
  | _ => none

/-- An item that refers to a label is a branch or a jump. -/
theorem reference_cases (item : Item) :
    item.referencePosition? = none ∨ (∃ args, item = .operation "beq" args) ∨
      ∃ args, item = .operation "j" args := by
  cases item with
  | operation name args =>
    by_cases hbeq : name = "beq"
    · exact Or.inr (Or.inl ⟨args, by rw [hbeq]⟩)
    · by_cases hj : name = "j"
      · exact Or.inr (Or.inr ⟨args, by rw [hj]⟩)
      · exact Or.inl ((if_neg hbeq).trans (if_neg hj))
  | _ => exact Or.inl rfl

/-- The operands of an item. -/
def operands : Item → List Operand
  | operation _ args => args
  | _ => []

/-- The operand by which an item refers to a label. -/
def reference? (item : Item) : Option Operand :=
  item.referencePosition?.bind fun k => item.operands[k]?

/-- The name that an item declares or refers to. -/
def mentions? : Item → Option String
  | label name => some name
  | item =>
    match item.reference? with
    | some (.name text) => some text
    | _ => none

/-- The names that are declared or referred to. -/
def names (items : List Item) : List String := items.filterMap mentions?

/-- If an item is a branch or a jump, then the operand by which it refers to a label is
there and is a name. -/
def RefersByName (item : Item) : Prop :=
  ∀ k, item.referencePosition? = some k → ∃ text, item.operands[k]? = some (.name text)

/-- The label that is declared, or the reference to one, is renamed. -/
def rename (f : String → String) : Item → Item
  | label name => label (f name)
  | operation name args =>
    match (operation name args).referencePosition? with
    | some k => operation name (args.modify k (Operand.rename f))
    | none => operation name args
  | item => item

@[simp] theorem rename_id (item : Item) : item.rename id = item := by
  have hid : Operand.rename id = id := funext Operand.rename_id
  cases item with
  | operation name args =>
    rw [rename, hid]
    split
    · rw [List.modify_id]
    · rfl
  | _ => rfl

@[simp] theorem occupiesSlot_rename (f : String → String) (item : Item) :
    (item.rename f).occupiesSlot = item.occupiesSlot := by
  cases item with
  | operation name args =>
    rw [rename]
    split <;> rfl
  | _ => rfl

@[simp] theorem map_rename_id (items : List Item) : items.map (rename id) = items := by
  have hid : rename id = id := funext rename_id
  rw [hid, List.map_id]

@[simp] theorem names_append (xs ys : List Item) : names (xs ++ ys) = names xs ++ names ys :=
  List.filterMap_append

theorem mem_names_of_mentions? {items : List Item} {item : Item} {name : String}
    (hitem : item ∈ items) (h : item.mentions? = some name) : name ∈ names items :=
  List.mem_filterMap.mpr ⟨item, hitem, h⟩

theorem mentions?_of_reference? {item : Item} {text : String}
    (h : item.reference? = some (.name text)) : item.mentions? = some text := by
  cases item with
  | operation name args =>
    rw [mentions?, h]
    simp
  | _ => cases h

/-- The reference of an item that refers by name is a name. -/
theorem RefersByName.exists_eq_name {item : Item} (h : item.RefersByName) {reference : Operand}
    (href : item.reference? = some reference) : ∃ text, reference = .name text := by
  obtain ⟨k, hk, hreference⟩ := Option.bind_eq_some_iff.mp href
  obtain ⟨text, htext⟩ := h k hk
  exact ⟨text, Option.some.inj (hreference.symm.trans htext)⟩

theorem mem_names_of_mem_labels {items : List Item} {name : String} (h : name ∈ labels items) :
    name ∈ names items :=
  mem_names_of_mentions? (mem_labels_iff.mp h) rfl

end Item

/-! ## The first pass -/

namespace Layout

/-- The second layout is the first with its names renamed by `f`, as far as the names in
`N` can tell, and all names in the slots are in `N`. -/
structure Agrees (f : String → String) (N : Set String) (l l' : Layout) : Prop where
  slotsRev_eq : l'.slotsRev = l.slotsRev.map (Item.rename f)
  count_eq : l'.count = l.count
  find?_eq : ∀ name ∈ N, l'.table.find? (f name) = l.table.find? name
  within : ∀ item ∈ l.slotsRev,
    item.occupiesSlot = true ∧ ∀ name, item.mentions? = some name → name ∈ N

theorem agrees_empty (f : String → String) (N : Set String) : Agrees f N empty empty where
  slotsRev_eq := rfl
  count_eq := rfl
  find?_eq _ _ := rfl
  within _ hitem := absurd hitem List.not_mem_nil

namespace Agrees

variable {f : String → String} {N : Set String} {l l' : Layout}

theorem contains_eq (h : Agrees f N l l') {name : String} (hname : name ∈ N) :
    l'.table.contains (f name) = l.table.contains name := by
  rw [LabelTable.contains, LabelTable.contains, h.find?_eq name hname]

/-- A label is declared in both layouts. -/
theorem declare (hinj : Set.InjOn f N) (h : Agrees f N l l') {name : String} (hname : name ∈ N) :
    Agrees f N (l.declare name) (l'.declare (f name)) where
  slotsRev_eq := h.slotsRev_eq
  count_eq := h.count_eq
  find?_eq other hother := by
    have hiff : f other = f name ↔ other = name := hinj.eq_iff hother hname
    rw [Layout.declare, Layout.declare, LabelTable.find?_declare, LabelTable.find?_declare,
      h.count_eq, h.find?_eq other hother]
    simp only [hiff]
  within := h.within

/-- A label whose name is not in `N` is declared in one layout only. -/
theorem declare_right (h : Agrees id N l l') {name : String} (hname : name ∉ N) :
    Agrees id N l (l'.declare name) where
  slotsRev_eq := h.slotsRev_eq
  count_eq := h.count_eq
  find?_eq other hother := by
    have hne : id other ≠ name := fun heq => hname (heq ▸ hother)
    rw [Layout.declare, LabelTable.find?_declare, if_neg hne]
    exact h.find?_eq other hother
  within := h.within

/-- An item takes the next slot in both layouts. -/
theorem occupy (h : Agrees f N l l') {item : Item} (hslot : item.occupiesSlot = true)
    (hitem : ∀ name, item.mentions? = some name → name ∈ N) :
    Agrees f N (l.occupy item) (l'.occupy (item.rename f)) where
  slotsRev_eq := by
    show item.rename f :: l'.slotsRev = (item :: l.slotsRev).map (Item.rename f)
    rw [h.slotsRev_eq, List.map_cons]
  count_eq := by rw [count_occupy, count_occupy, h.count_eq]
  find?_eq := h.find?_eq
  within other hother := by
    rcases List.mem_cons.mp hother with rfl | hother
    · exact ⟨hslot, hitem⟩
    · exact h.within other hother

end Agrees

section Extend

variable {f : String → String} {N : Set String} {l l' : Layout}

/-- Related layouts stay related while both are extended, by items whose names are in `N`
and by the renamed items.  Either both go to the end, or both stop at the same label. -/
theorem extend_agrees (hinj : Set.InjOn f N) (h : Agrees f N l l') (items : List Item)
    (hitems : ∀ name ∈ Item.names items, name ∈ N) :
    (l'.extend (items.map (Item.rename f))).fault = (l.extend items).fault.map (Fault.rename f) ∧
      Agrees f N (l.extend items).reached (l'.extend (items.map (Item.rename f))).reached := by
  induction items generalizing l l' with
  | nil => exact ⟨rfl, h⟩
  | cons item items ih =>
    have hitem : ∀ name, item.mentions? = some name → name ∈ N := fun name hname =>
      hitems name (Item.mem_names_of_mentions? List.mem_cons_self hname)
    have hrest : ∀ name ∈ Item.names items, name ∈ N := by
      intro name hname
      obtain ⟨other, hother, hmentions⟩ := List.mem_filterMap.mp hname
      exact hitems name (Item.mem_names_of_mentions? (List.mem_cons_of_mem item hother) hmentions)
    rw [List.map_cons]
    by_cases hslot : item.occupiesSlot = true
    · rw [extend_of_occupiesSlot hslot,
        extend_of_occupiesSlot ((Item.occupiesSlot_rename f item).trans hslot)]
      exact ih (h.occupy hslot hitem) hrest
    · cases item with
      | label name =>
        have hname : name ∈ N := hitem name rfl
        show (l'.extend (.label (f name) :: items.map (Item.rename f))).fault = _ ∧
          Agrees f N _ (l'.extend (.label (f name) :: items.map (Item.rename f))).reached
        have hcontains := h.contains_eq hname
        by_cases hold : l.table.contains name = true
        · rw [extend_label_of_contains hold, extend_label_of_contains (hcontains.trans hold)]
          exact ⟨rfl, h⟩
        · rw [extend_label_of_not_contains hold,
            extend_label_of_not_contains (by rwa [hcontains])]
          exact ih (h.declare hinj hname) hrest
      | _ => exact absurd rfl hslot

/-- The first pass over two programs is the first pass over the second, from where it got
to in the first. -/
theorem extend_append (l : Layout) (xs ys : List Item) :
    l.extend (xs ++ ys) =
      if (l.extend xs).fault = none then (l.extend xs).reached.extend ys else l.extend xs := by
  induction xs generalizing l with
  | nil => rw [extend_nil, if_pos rfl, List.nil_append]
  | cons item xs ih =>
    rw [List.cons_append]
    by_cases hslot : item.occupiesSlot = true
    · rw [extend_of_occupiesSlot hslot, extend_of_occupiesSlot hslot]
      exact ih _
    · cases item with
      | label name =>
        by_cases hold : l.table.contains name = true
        · rw [extend_label_of_contains hold, extend_label_of_contains hold]
          rfl
        · rw [extend_label_of_not_contains hold, extend_label_of_not_contains hold]
          exact ih _
      | _ => exact absurd rfl hslot

/-- The items of the first pass are related to themselves. -/
theorem place_agrees_self {items : List Item} (hitems : ∀ name ∈ Item.names items, name ∈ N) :
    Agrees id N (place items).reached (place items).reached := by
  have h := (extend_agrees (Set.injOn_id N) (agrees_empty id N) items hitems).2
  rwa [Item.map_rename_id] at h

/-- A label with a name that is not in `N` makes no difference to the first pass that could
be seen by names in `N`. -/
theorem place_insert_label {before after : List Item} {name : String} (hname : name ∉ N)
    (hnames : ∀ n ∈ Item.names (before ++ after), n ∈ N) :
    (place (before ++ .label name :: after)).fault =
        (place (before ++ after)).fault.map (Fault.rename id) ∧
      Agrees id N (place (before ++ after)).reached
        (place (before ++ .label name :: after)).reached := by
  rw [Item.names_append] at hnames
  have hbefore : ∀ n ∈ Item.names before, n ∈ N := fun n hn =>
    hnames n (List.mem_append_left _ hn)
  have hafter : ∀ n ∈ Item.names after, n ∈ N := fun n hn => hnames n (List.mem_append_right _ hn)
  have hself := place_agrees_self hbefore
  rcases extend_describes describes_empty before with
    ⟨hfault, hl⟩ | ⟨_, repeated, _, _, hfault, _, _⟩
  · have hnew : ¬ (place before).reached.table.contains name = true := fun hcontains =>
      hname (hbefore name (Item.mem_names_of_mem_labels ((hl.contains_iff name).mp hcontains)))
    have hplace (rest : List Item) :
        place (before ++ rest) = (place before).reached.extend rest := by
      rw [place, extend_append, if_pos hfault, place]
    -- from the new label on, the two runs are related
    have hrest := extend_agrees (Set.injOn_id N) (hself.declare_right hname) after hafter
    rw [Item.map_rename_id] at hrest
    rw [hplace, hplace, extend_label_of_not_contains hnew]
    exact hrest
  · have hplace (rest : List Item) : place (before ++ rest) = place before := by
      rw [place, extend_append, if_neg (by rw [hfault]; simp), place]
    have hid : Fault.rename id = id := funext Fault.rename_id
    rw [hplace, hplace, hid, Option.map_id_fun]
    exact ⟨rfl, hself⟩

end Extend
end Layout

/-! ## The second pass -/

namespace LabelTable

variable {f : String → String} {table table' : LabelTable}

/-- A renamed reference has the address of the reference. -/
theorem address_rename (reference : Operand)
    (h : ∀ text, reference = .name text → table'.find? (f text) = table.find? text) :
    table'.address (reference.rename f) = (table.address reference).mapError (Fault.rename f) := by
  cases reference with
  | number value => rfl
  | name text =>
    rw [Operand.rename, address_name, address_name, h text rfl]
    cases table.find? text <;> rfl
  | foreign value =>
    rw [Operand.rename, address, address]
    · split <;> rfl
    · simp

theorem resolveItem_of_referencePosition?_eq_none {slot : Nat} {item : Item}
    (h : item.referencePosition? = none) : table.resolveItem slot item = .ok item := by
  cases item with
  | operation name args =>
    have hbeq : name ≠ "beq" := by
      rintro rfl
      cases h
    have hj : name ≠ "j" := by
      rintro rfl
      cases h
    exact (if_neg hbeq).trans (if_neg hj)
  | _ => rfl

theorem resolveItem_branch {slot : Nat} (a b reference : Operand) (rest : List Operand) :
    table.resolveItem slot (.operation "beq" (a :: b :: reference :: rest)) =
      (fun address => .operation "beq" [a, b, .number (address - slot - 1)]) <$>
        table.address reference := by
  change Item.operation "beq" <$> (table.address reference >>= _) = _
  cases table.address reference <;> rfl

theorem resolveItem_jump_cons {slot : Nat} (reference : Operand) (rest : List Operand) :
    table.resolveItem slot (.operation "j" (reference :: rest)) =
      (fun address => .operation "j" [.number address]) <$> table.address reference := by
  change Item.operation "j" <$> (table.address reference >>= _) = _
  cases table.address reference <;> rfl

/-- The three things that the second pass can do with an item in a slot, before and after
renaming: it passes an item that is no reference, it refuses one whose operand is missing,
and from any other it takes the address of the operand and builds an item in which the
operand does not occur. -/
theorem resolveItem_cases (f : String → String) (slot : Nat) {item : Item}
    (hslot : item.occupiesSlot = true) :
    (item.referencePosition? = none ∧ item.rename f = item ∧
      ∀ table : LabelTable, table.resolveItem slot item = .ok item) ∨
    (item.referencePosition? ≠ none ∧ item.reference? = none ∧ ∀ table : LabelTable,
      table.resolveItem slot item = .error .missingOperand ∧
        table.resolveItem slot (item.rename f) = .error .missingOperand) ∨
    ∃ (reference : Operand) (resolved : Int → Item), item.reference? = some reference ∧
      ∀ table : LabelTable, table.resolveItem slot item = resolved <$> table.address reference ∧
        table.resolveItem slot (item.rename f) =
          resolved <$> table.address (reference.rename f) := by
  rcases item.reference_cases with hnone | ⟨args, rfl⟩ | ⟨args, rfl⟩
  · refine Or.inl ⟨hnone, ?_, fun table => resolveItem_of_referencePosition?_eq_none hnone⟩
    cases item with
    | label name => exact absurd hslot (by simp [Item.occupiesSlot])
    | operation name args => rw [Item.rename, hnone]
    | _ => rfl
  · have hposition : (Item.operation "beq" args).referencePosition? ≠ none := by
      simp [Item.referencePosition?]
    rcases args with _ | ⟨a, _ | ⟨b, _ | ⟨reference, rest⟩⟩⟩
    · exact Or.inr (Or.inl ⟨hposition, rfl, fun _ => ⟨rfl, rfl⟩⟩)
    · exact Or.inr (Or.inl ⟨hposition, rfl, fun _ => ⟨rfl, rfl⟩⟩)
    · exact Or.inr (Or.inl ⟨hposition, rfl, fun _ => ⟨rfl, rfl⟩⟩)
    · exact Or.inr (Or.inr ⟨reference, _, rfl, fun table =>
        ⟨resolveItem_branch a b reference rest, resolveItem_branch a b (reference.rename f) rest⟩⟩)
  · rcases args with _ | ⟨reference, rest⟩
    · exact Or.inr (Or.inl ⟨by simp [Item.referencePosition?], rfl, fun _ => ⟨rfl, rfl⟩⟩)
    · exact Or.inr (Or.inr ⟨reference, _, rfl, fun table =>
        ⟨resolveItem_jump_cons reference rest, resolveItem_jump_cons (reference.rename f) rest⟩⟩)

/-- An item that takes a slot is resolved to the same item after renaming, or has the
renamed fault. -/
theorem resolveItem_rename (slot : Nat) {item : Item} (hslot : item.occupiesSlot = true)
    (h : ∀ name, item.mentions? = some name → table'.find? (f name) = table.find? name) :
    table'.resolveItem slot (item.rename f) =
      (table.resolveItem slot item).mapError (Fault.rename f) := by
  rcases resolveItem_cases f slot hslot with
    ⟨-, hrename, hpass⟩ | ⟨-, -, hmiss⟩ | ⟨reference, resolved, href, hrefers⟩
  · rw [hrename, hpass, hpass]
    rfl
  · rw [(hmiss table').2, (hmiss table).1]
    rfl
  · have haddress := address_rename reference fun text htext =>
      h text (Item.mentions?_of_reference? (htext ▸ href))
    rw [(hrefers table').2, (hrefers table).1, haddress]
    cases table.address reference <;> rfl

/-- A branch or jump that refers by name fails only if its label is not declared. -/
theorem resolveItem_eq_error {slot : Nat} {item : Item} {fault : Fault}
    (hslot : item.occupiesSlot = true) (hnamed : item.RefersByName)
    (h : table.resolveItem slot item = .error fault) :
    ∃ name, item.mentions? = some name ∧ fault = .undeclaredLabel (.name name) := by
  rcases resolveItem_cases id slot hslot with
    ⟨-, -, hpass⟩ | ⟨hposition, hnone, -⟩ | ⟨reference, resolved, href, hrefers⟩
  · rw [hpass] at h
    cases h
  · obtain ⟨k, hk⟩ := Option.ne_none_iff_exists'.mp hposition
    obtain ⟨text, htext⟩ := hnamed k hk
    rw [Item.reference?, hk, Option.bind_some, htext] at hnone
    cases hnone
  · obtain ⟨text, rfl⟩ := hnamed.exists_eq_name href
    refine ⟨text, Item.mentions?_of_reference? href, ?_⟩
    rw [(hrefers table).1, address_name] at h
    split at h
    · cases h
    · exact (Except.error.inj h).symm

/-- The second pass over renamed slots gives the same items, or the renamed fault. -/
theorem resolve_rename {slots : List Item}
    (h : ∀ item ∈ slots, item.occupiesSlot = true ∧
      ∀ name, item.mentions? = some name → table'.find? (f name) = table.find? name) :
    table'.resolve (slots.map (Item.rename f)) =
      (table.resolve slots).mapError (Fault.rename f) := by
  have hfrom (slot : Nat) (done : List Item) :
      (table'.resolveFrom slot done (slots.map (Item.rename f))).toExcept =
        (table.resolveFrom slot done slots).toExcept.mapError (Fault.rename f) := by
    induction slots generalizing slot done with
    | nil => rfl
    | cons item slots ih =>
      obtain ⟨hslot, hitem⟩ := h item List.mem_cons_self
      rw [List.map_cons, resolveFrom, resolveFrom, resolveItem_rename slot hslot hitem]
      cases table.resolveItem slot item with
      | error fault => rfl
      | ok resolved => exact ih (fun other hother => h other (List.mem_cons_of_mem item hother)) _ _
  exact hfrom 0 []

end LabelTable

/-! ## Both passes -/

namespace Layout

/-- The second pass behind two related runs of the first. -/
theorem Agrees.link_eq {f : String → String} {N : Set String} {p p' : Progress Layout}
    (hfault : p'.fault = p.fault.map (Fault.rename f)) (h : Agrees f N p.reached p'.reached) :
    (p'.toExcept >>= fun l => l.table.resolve l.slots) =
      (p.toExcept >>= fun l => l.table.resolve l.slots).mapError (Fault.rename f) := by
  cases hp : p.fault with
  | some fault =>
    rw [hp] at hfault
    rw [Progress.toExcept, Progress.toExcept, hp, hfault]
    rfl
  | none =>
    rw [hp] at hfault
    rw [Progress.toExcept, Progress.toExcept, hp, hfault]
    show p'.reached.table.resolve p'.reached.slots = _
    rw [slots, h.slotsRev_eq, ← List.map_reverse]
    refine LabelTable.resolve_rename fun item hitem => ?_
    obtain ⟨hslot, hnames⟩ := h.within item (List.mem_reverse.mp hitem)
    exact ⟨hslot, fun name hname => h.find?_eq name (hnames name hname)⟩

end Layout

section Link

variable {items : List Item}

/-- Renaming the labels of a program and the references to them changes at most the name in
its fault. -/
theorem link_map_rename {f : String → String}
    (hinj : Set.InjOn f {name | name ∈ Item.names items}) :
    link (items.map (Item.rename f)) = (link items).mapError (Fault.rename f) := by
  obtain ⟨hfault, hagrees⟩ :=
    Layout.extend_agrees hinj (Layout.agrees_empty f _) items fun _ hname => hname
  exact hagrees.link_eq hfault

/-- A label whose name occurs nowhere else may be declared anywhere. -/
theorem link_insert_label {before after : List Item} {name : String}
    (hname : name ∉ Item.names (before ++ after)) :
    link (before ++ .label name :: after) = link (before ++ after) := by
  obtain ⟨hfault, hagrees⟩ :=
    Layout.place_insert_label (N := {n | n ∈ Item.names (before ++ after)}) hname fun _ hn => hn
  have hlink : link (before ++ .label name :: after) =
      (link (before ++ after)).mapError (Fault.rename id) := hagrees.link_eq hfault
  rw [hlink]
  cases link (before ++ after) with
  | error fault => rw [Except.mapError, Fault.rename_id]
  | ok resolved => rfl

/-! ## The faults of linking -/

/-- A program whose references are names fails with a name that occurs in it. -/
theorem link_eq_error (hnamed : ∀ item ∈ items, item.RefersByName) {fault : Fault}
    (h : link items = .error fault) :
    ∃ name ∈ Item.names items,
      fault = .duplicateLabel name ∨ fault = .undeclaredLabel (.name name) := by
  rcases Outcome.bind_eq_error_iff.mp h with hlayout | ⟨l, hlayout, hresolve⟩
  · obtain ⟨name, rfl, before, after, rfl, -, hmem⟩ := Layout.ofItems_eq_error_iff.mp hlayout
    refine ⟨name, Item.mem_names_of_mem_labels ?_, Or.inl rfl⟩
    rw [Item.labels_append]
    exact List.mem_append_left _ hmem
  · obtain ⟨slot, item, hitem, herror, -⟩ := LabelTable.resolve_eq_error_iff.mp hresolve
    rw [(Layout.describes_of_ofItems hlayout).slots_eq] at hitem
    obtain ⟨hmem, hslot⟩ := List.mem_filter.mp (List.mem_of_getElem? hitem)
    obtain ⟨name, hname, rfl⟩ := LabelTable.resolveItem_eq_error hslot (hnamed item hmem) herror
    exact ⟨name, Item.mem_names_of_mentions? hmem hname, Or.inr rfl⟩

end Link

/-- **The names of labels are bound.**  In a program whose branches and jumps refer to labels
by name, let `f` keep the names that occur apart.  If the program is linked, renaming the
labels and the references by `f` leaves the result as it is; if not, the fault is that a label
is declared twice or not at all, and after renaming it is the same with the new name.  And a
label whose name does not occur may be declared anywhere without any effect. -/
theorem link_names_bound (items : List Item) (hnamed : ∀ item ∈ items, item.RefersByName) :
    (∀ f : String → String, Set.InjOn f {name | name ∈ Item.names items} →
      (∀ resolved, link items = .ok resolved →
        link (items.map (Item.rename f)) = .ok resolved) ∧
      ∀ fault, link items = .error fault → ∃ name ∈ Item.names items,
        (fault = .duplicateLabel name ∧
          link (items.map (Item.rename f)) = .error (.duplicateLabel (f name))) ∨
        (fault = .undeclaredLabel (.name name) ∧
          link (items.map (Item.rename f)) = .error (.undeclaredLabel (.name (f name))))) ∧
    ∀ before after name, items = before ++ after → name ∉ Item.names items →
      link (before ++ .label name :: after) = link items := by
  refine ⟨fun f hinj => ?_, ?_⟩
  · have hlink := link_map_rename hinj
    refine ⟨fun resolved h => ?_, fun fault h => ?_⟩
    · rw [hlink, h]
      rfl
    · rw [h] at hlink
      obtain ⟨name, hname, rfl | rfl⟩ := link_eq_error hnamed h
      · exact ⟨name, hname, Or.inl ⟨rfl, hlink⟩⟩
      · exact ⟨name, hname, Or.inr ⟨rfl, hlink⟩⟩
  · rintro before after name rfl hname
    exact link_insert_label hname

/-- Two labels that exchange their names, and a label that nothing refers to. -/
theorem link_names_bound_swap :
    let items : List Item := [.label "loop", .operation "beq" [.number 2, .number 1, .name "end"],
      .operation "j" [.name "loop"], .label "end"]
    let resolved : List Item :=
      [.operation "beq" [.number 2, .number 1, .number 1], .operation "j" [.number 0]]
    (∀ item ∈ items, item.RefersByName) ∧ link items = .ok resolved ∧
      link (items.map (Item.rename (Equiv.swap "loop" "end"))) = .ok resolved ∧
      link (items.take 2 ++ .label "spare" :: items.drop 2) = .ok resolved := by
  intro items resolved
  have hnamed : ∀ item ∈ items, item.RefersByName := by
    intro item hitem k hk
    simp only [items, List.mem_cons, List.not_mem_nil, or_false] at hitem
    rcases hitem with rfl | rfl | rfl | rfl
    · cases hk
    · obtain rfl : 2 = k := by simpa [Item.referencePosition?] using hk
      exact ⟨"end", rfl⟩
    · obtain rfl : 0 = k := by simpa [Item.referencePosition?] using hk
      exact ⟨"loop", rfl⟩
    · cases hk
  have hlink : link items = .ok resolved := Outcome.eq_ok_of_toOption (by decide +kernel)
  obtain ⟨hrename, hinsert⟩ := link_names_bound items hnamed
  refine ⟨hnamed, hlink, ?_, ?_⟩
  · exact (hrename _ (Equiv.injective _).injOn).1 resolved hlink
  · rw [hinsert _ _ "spare" (List.take_append_drop 2 items).symm (by decide), hlink]

end MipsAssembler
