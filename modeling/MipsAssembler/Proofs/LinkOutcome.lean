import Mathlib
import MipsAssembler.Proofs.SlotWords

/-!
# When a program can be linked and packed

Behind the reader three passes go over a program, and each stops at the first thing
it cannot accept: placing labels at a repeated declaration, resolving references at a
label that is not declared, packing at a number that does not fit.  A pass starts only
when the one before it has gone through the whole program.  So the fault that is
reported is not the one that comes first in the source text, but the first one of the
first pass that finds any.

`FirstFault program fault` says this without the passes, and `Encodable program` lists
the conditions under which none of them stops.  Both speak of the statements of the
program and of where its labels stand, and of nothing that the passes compute.

The file takes the passes one at a time.  For each there is a lemma that says when it
succeeds and one that says which fault it has otherwise; the main theorem puts them
together.
-/

namespace MipsAssembler
namespace Statement

/-! ## What a program has to satisfy -/

/-- Every label that is referred to is declared. -/
def AllDeclared (program : List Statement) : Prop :=
  ∀ s ∈ program, ∀ name, s.reference? = some name → .label name ∈ program

/-- The conditions under which a program has words. -/
structure Encodable (program : List Statement) : Prop where
  distinct : (Item.labels (toItems program)).Nodup
  declared : AllDeclared program
  addi_fits : ∀ rd rs v, .addi rd rs v ∈ program → -2 ^ 15 ≤ v ∧ v < 2 ^ 15
  access_fits : ∀ op rd base v, .access op rd base v ∈ program → -2 ^ 15 ≤ v ∧ v < 2 ^ 15
  beq_fits : ∀ (slot : Nat) (first second : Register) (name : String) (t : Nat),
    (slots program)[slot]? = some (.beq first second name) → Item.Marks (toItems program) name t →
      -2 ^ 15 ≤ (t : Int) - slot - 1 ∧ (t : Int) - slot - 1 < 2 ^ 15
  jump_fits : ∀ (name : String) (t : Nat), .jump name ∈ program →
    Item.Marks (toItems program) name t → t < 2 ^ 26
  data_fits : ∀ v, .data v ∈ program → 0 ≤ v ∧ v < 2 ^ 8

/-- The fault of a program: the first label that is declared twice; if there is none,
the reference of the lowest slot whose label is not declared; if there is none either,
the number of the lowest slot whose number does not fit. -/
inductive FirstFault (program : List Statement) : Fault → Prop
  | duplicate {name : String} (h : Item.Redeclares (toItems program) name) :
      FirstFault program (.duplicateLabel name)
  | undeclared {slot : Nat} {s : Statement} {name : String}
      (distinct : (Item.labels (toItems program)).Nodup)
      (hs : (slots program)[slot]? = some s) (href : s.reference? = some name)
      (hname : .label name ∉ program)
      (below : ∀ j < slot, ∀ s', (slots program)[j]? = some s' →
        ∀ name', s'.reference? = some name' → .label name' ∈ program) :
      FirstFault program (.undeclaredLabel (.name name))
  | overflow {slot : Nat} {s : Statement} {field : NumericField} {v : Int}
      (distinct : (Item.labels (toItems program)).Nodup) (declared : AllDeclared program)
      (hs : (slots program)[slot]? = some s)
      (hdemands : s.Demands (toItems program) slot field v) (hv : ¬ field.Holds v)
      (below : ∀ j < slot, ∀ s', (slots program)[j]? = some s' →
        ∀ field' v', s'.Demands (toItems program) j field' v' → field'.Holds v') :
      FirstFault program (field.overflow v)

theorem mem_slots_iff {program : List Statement} {s : Statement} :
    s ∈ slots program ↔ s ∈ program ∧ s.toItem.occupiesSlot = true :=
  List.mem_filter

theorem occupiesSlot_of_reference? {s : Statement} {name : String}
    (h : s.reference? = some name) : s.toItem.occupiesSlot = true := by
  cases s with
  | label n => exact absurd h (by simp [reference?])
  | _ => rfl

/-- A condition on every statement with a reference may be checked slot by slot. -/
theorem allDeclared_iff {program : List Statement} :
    AllDeclared program ↔ ∀ (i : Nat) s, (slots program)[i]? = some s →
      ∀ name, s.reference? = some name → .label name ∈ program := by
  constructor
  · intro h i s hs
    exact h s (mem_slots_iff.mp (List.mem_of_getElem? hs)).1
  · intro h s hs name href
    have hmem : s ∈ slots program := mem_slots_iff.mpr ⟨hs, occupiesSlot_of_reference? href⟩
    obtain ⟨i, hi⟩ := List.mem_iff_getElem?.mp hmem
    exact h i s hi name href

/-- The numeric conditions of `Encodable`, gathered: whatever a slot demands, fits. -/
theorem encodable_iff {program : List Statement} :
    Encodable program ↔ (Item.labels (toItems program)).Nodup ∧ AllDeclared program ∧
      ∀ (i : Nat) s, (slots program)[i]? = some s →
        ∀ field v, s.Demands (toItems program) i field v → field.Holds v := by
  constructor
  · intro h
    refine ⟨h.distinct, h.declared, fun i s hs field v hdemands => ?_⟩
    have hmem : s ∈ program := (mem_slots_iff.mp (List.mem_of_getElem? hs)).1
    cases hdemands with
    | data => exact h.data_fits v hmem
    | addi rd rs => exact h.addi_fits rd rs v hmem
    | access op rd base => exact h.access_fits op rd base v hmem
    | beq first second hmarks => exact h.beq_fits i first second _ _ hs hmarks
    | jump hmarks => exact ⟨Int.natCast_nonneg _, by exact_mod_cast h.jump_fits _ _ hmem hmarks⟩
  · rintro ⟨hdistinct, hdeclared, hfits⟩
    have atSlot : ∀ s ∈ program, s.toItem.occupiesSlot = true →
        ∃ i : Nat, (slots program)[i]? = some s := fun s hs hslot =>
      List.mem_iff_getElem?.mp (mem_slots_iff.mpr ⟨hs, hslot⟩)
    refine ⟨hdistinct, hdeclared, ?_, ?_, ?_, ?_, ?_⟩
    · intro rd rs v hmem
      obtain ⟨i, hi⟩ := atSlot _ hmem rfl
      exact hfits i _ hi _ _ (.addi rd rs v)
    · intro op rd base v hmem
      obtain ⟨i, hi⟩ := atSlot _ hmem rfl
      exact hfits i _ hi _ _ (.access op rd base v)
    · intro slot first second name t hs hmarks
      exact hfits slot _ hs _ _ (.beq first second hmarks)
    · intro name t hmem hmarks
      obtain ⟨i, hi⟩ := atSlot _ hmem rfl
      have hholds := hfits i _ hi _ _ (.jump hmarks)
      exact_mod_cast hholds.2
    · intro v hmem
      obtain ⟨i, hi⟩ := atSlot _ hmem rfl
      exact hfits i _ hi _ _ (.data v)

/-! ## Resolving -/

section Passes

variable {program : List Statement} {l : Layout}

/-- With the table of the program, a statement resolves exactly when the label it
refers to is declared. -/
theorem exists_resolveItem_iff_declared (hl : l.Describes (toItems program)) {i : Nat}
    {s : Statement} :
    (∃ r, l.table.resolveItem i s.toItem = .ok r) ↔
      ∀ name, s.reference? = some name → .label name ∈ program := by
  rw [LabelTable.exists_resolveItem_iff]
  refine forall_congr' fun name => imp_congr_right fun _ => ?_
  rw [hl.contains_iff, mem_labels_toItems_iff]

theorem exists_resolve_iff (hl : l.Describes (toItems program)) :
    (∃ resolved, l.table.resolve l.slots = .ok resolved) ↔ AllDeclared program := by
  rw [hl.slots_eq, allDeclared_iff]
  constructor
  · rintro ⟨resolved, hresolved⟩ i s hs
    obtain ⟨r, -, hr⟩ := (LabelTable.resolve_eq_ok_iff.mp hresolved).2 i s.toItem
      (getElem?_slots_toItems.mpr ⟨s, hs, rfl⟩)
    exact (exists_resolveItem_iff_declared hl).mp ⟨r, hr⟩
  · intro hdeclared
    rcases Outcome.ok_or_error (l.table.resolve (Item.slots (toItems program))) with
      hok | ⟨fault, hfault⟩
    · exact hok
    · obtain ⟨i, item, hitem, herror, -⟩ := LabelTable.resolve_eq_error_iff.mp hfault
      obtain ⟨s, hs, rfl⟩ := getElem?_slots_toItems.mp hitem
      obtain ⟨r, hr⟩ := (exists_resolveItem_iff_declared (i := i) hl).mpr (hdeclared i s hs)
      rw [hr] at herror
      cases herror

/-- The second pass stops at the lowest slot whose label is not declared. -/
theorem resolve_eq_error_iff_undeclared (hl : l.Describes (toItems program)) {fault : Fault} :
    l.table.resolve l.slots = .error fault ↔
      ∃ (slot : Nat) (s : Statement) (name : String), (slots program)[slot]? = some s ∧
        s.reference? = some name ∧ .label name ∉ program ∧
        fault = .undeclaredLabel (.name name) ∧
        ∀ j < slot, ∀ s', (slots program)[j]? = some s' →
          ∀ name', s'.reference? = some name' → .label name' ∈ program := by
  rw [hl.slots_eq, LabelTable.resolve_eq_error_iff]
  constructor
  · rintro ⟨i, item, hitem, herror, hbelow⟩
    obtain ⟨s, hs, rfl⟩ := getElem?_slots_toItems.mp hitem
    obtain ⟨name, href, hname, rfl⟩ := LabelTable.resolveItem_eq_error_iff.mp herror
    rw [ne_eq, hl.contains_iff, mem_labels_toItems_iff] at hname
    refine ⟨i, s, name, hs, href, hname, rfl, fun j hj s' hs' => ?_⟩
    have hother := hbelow j hj s'.toItem (getElem?_slots_toItems.mpr ⟨s', hs', rfl⟩)
    exact (exists_resolveItem_iff_declared hl).mp hother
  · rintro ⟨i, s, name, hs, href, hname, rfl, hbelow⟩
    refine ⟨i, s.toItem, getElem?_slots_toItems.mpr ⟨s, hs, rfl⟩, ?_, fun j hj other hother => ?_⟩
    · refine LabelTable.resolveItem_eq_error_iff.mpr ⟨name, href, ?_, rfl⟩
      rwa [ne_eq, hl.contains_iff, mem_labels_toItems_iff]
    · obtain ⟨s', hs', rfl⟩ := getElem?_slots_toItems.mp hother
      exact (exists_resolveItem_iff_declared hl).mpr (hbelow j hj s' hs')

/-! ## Packing -/

/-- The resolved item in a slot has the outcomes of the statement in that slot. -/
theorem outcomes_of_resolve (hl : l.Describes (toItems program)) {resolved : List Item}
    (hresolved : l.table.resolve l.slots = .ok resolved) {i : Nat} {s : Statement}
    (hs : (slots program)[i]? = some s) :
    ∃ item, resolved[i]? = some item ∧ Outcomes (toItems program) i s item.pack := by
  rw [hl.slots_eq] at hresolved
  obtain ⟨item, hitem, hresolve⟩ := (LabelTable.resolve_eq_ok_iff.mp hresolved).2 i s.toItem
    (getElem?_slots_toItems.mpr ⟨s, hs, rfl⟩)
  exact ⟨item, hitem, outcomes_of_resolveItem hl (occupiesSlot_of_mem_slots hs) hresolve⟩

theorem length_resolve (hl : l.Describes (toItems program)) {resolved : List Item}
    (hresolved : l.table.resolve l.slots = .ok resolved) :
    resolved.length = (slots program).length := by
  rw [(LabelTable.resolve_eq_ok_iff.mp hresolved).1, hl.slots_eq, ← map_toItem_slots,
    List.length_map]

/-- Every resolved item belongs to the statement in its slot. -/
theorem outcomes_of_getElem?_resolve (hl : l.Describes (toItems program)) {resolved : List Item}
    (hresolved : l.table.resolve l.slots = .ok resolved) {i : Nat} {item : Item}
    (hitem : resolved[i]? = some item) :
    ∃ s, (slots program)[i]? = some s ∧ Outcomes (toItems program) i s item.pack := by
  have hlt : i < (slots program).length := by
    rw [← length_resolve hl hresolved]
    exact (List.getElem?_eq_some_iff.mp hitem).1
  have hs := List.getElem?_eq_getElem hlt
  obtain ⟨item', hitem', houtcomes⟩ := outcomes_of_resolve hl hresolved hs
  rw [hitem] at hitem'
  cases hitem'
  exact ⟨_, hs, houtcomes⟩

theorem exists_packAll_iff (hl : l.Describes (toItems program)) {resolved : List Item}
    (hresolved : l.table.resolve l.slots = .ok resolved) :
    (∃ words, Item.packAll resolved = .ok words) ↔
      ∀ (i : Nat) s, (slots program)[i]? = some s →
        ∀ field v, s.Demands (toItems program) i field v → field.Holds v := by
  rw [Item.packAll, Outcome.exists_mapM_eq_ok_iff]
  constructor
  · intro hpack i s hs
    obtain ⟨item, hitem, houtcomes⟩ := outcomes_of_resolve hl hresolved hs
    exact houtcomes.exists_ok_iff.mp (hpack item (List.mem_of_getElem? hitem))
  · intro hfits item hmem
    obtain ⟨i, hi⟩ := List.mem_iff_getElem?.mp hmem
    obtain ⟨s, hs, houtcomes⟩ := outcomes_of_getElem?_resolve hl hresolved hi
    exact houtcomes.exists_ok_iff.mpr (hfits i s hs)

/-- The packer stops at the lowest slot whose number does not fit. -/
theorem packAll_eq_error_iff (hl : l.Describes (toItems program)) {resolved : List Item}
    (hresolved : l.table.resolve l.slots = .ok resolved) {fault : Fault} :
    Item.packAll resolved = .error fault ↔
      ∃ (slot : Nat) (s : Statement) (field : NumericField) (v : Int),
        (slots program)[slot]? = some s ∧ s.Demands (toItems program) slot field v ∧
        ¬ field.Holds v ∧ fault = field.overflow v ∧
        ∀ j < slot, ∀ s', (slots program)[j]? = some s' →
          ∀ field' v', s'.Demands (toItems program) j field' v' → field'.Holds v' := by
  rw [Item.packAll, Outcome.mapM_eq_error_iff]
  constructor
  · rintro ⟨i, item, hitem, herror, hbelow⟩
    obtain ⟨s, hs, houtcomes⟩ := outcomes_of_getElem?_resolve hl hresolved hitem
    obtain ⟨field, v, hdemands, hv, rfl⟩ := houtcomes.eq_error_iff.mp herror
    refine ⟨i, s, field, v, hs, hdemands, hv, rfl, fun j hj s' hs' => ?_⟩
    obtain ⟨item', hitem', houtcomes'⟩ := outcomes_of_resolve hl hresolved hs'
    exact houtcomes'.exists_ok_iff.mp (hbelow j hj item' hitem')
  · rintro ⟨i, s, field, v, hs, hdemands, hv, rfl, hbelow⟩
    obtain ⟨item, hitem, houtcomes⟩ := outcomes_of_resolve hl hresolved hs
    refine ⟨i, item, hitem, houtcomes.eq_error_iff.mpr ⟨field, v, hdemands, hv, rfl⟩,
      fun j hj other hother => ?_⟩
    obtain ⟨s', hs', houtcomes'⟩ := outcomes_of_getElem?_resolve hl hresolved hother
    exact houtcomes'.exists_ok_iff.mpr (hbelow j hj s' hs')

end Passes

/-! ## The three passes together -/

theorem exists_words_iff (program : List Statement) :
    (∃ words, (link (toItems program) >>= Item.packAll) = .ok words) ↔ Encodable program := by
  rw [encodable_iff]
  constructor
  · rintro ⟨words, hwords⟩
    obtain ⟨resolved, hlink, hpack⟩ := Outcome.bind_eq_ok_iff.mp hwords
    obtain ⟨l, hlayout, hresolved⟩ := Outcome.bind_eq_ok_iff.mp hlink
    have hl := Layout.describes_of_ofItems hlayout
    exact ⟨hl.distinct, (exists_resolve_iff hl).mp ⟨resolved, hresolved⟩,
      (exists_packAll_iff hl hresolved).mp ⟨words, hpack⟩⟩
  · rintro ⟨hdistinct, hdeclared, hfits⟩
    obtain ⟨l, hlayout⟩ := Layout.exists_ofItems_iff.mpr hdistinct
    have hl := Layout.describes_of_ofItems hlayout
    obtain ⟨resolved, hresolved⟩ := (exists_resolve_iff hl).mpr hdeclared
    obtain ⟨words, hpack⟩ := (exists_packAll_iff hl hresolved).mpr hfits
    refine ⟨words, Outcome.bind_eq_ok_iff.mpr ⟨resolved, ?_, hpack⟩⟩
    exact Outcome.bind_eq_ok_iff.mpr ⟨l, hlayout, hresolved⟩

theorem words_eq_error_iff (program : List Statement) (fault : Fault) :
    (link (toItems program) >>= Item.packAll) = .error fault ↔ FirstFault program fault := by
  constructor
  · intro h
    rcases Outcome.bind_eq_error_iff.mp h with hlink | ⟨resolved, hlink, hpack⟩
    · rcases Outcome.bind_eq_error_iff.mp hlink with hlayout | ⟨l, hlayout, hresolve⟩
      · obtain ⟨name, rfl, hname⟩ := Layout.ofItems_eq_error_iff.mp hlayout
        exact .duplicate hname
      · have hl := Layout.describes_of_ofItems hlayout
        obtain ⟨slot, s, name, hs, href, hname, rfl, hbelow⟩ :=
          (resolve_eq_error_iff_undeclared hl).mp hresolve
        exact .undeclared hl.distinct hs href hname hbelow
    · obtain ⟨l, hlayout, hresolved⟩ := Outcome.bind_eq_ok_iff.mp hlink
      have hl := Layout.describes_of_ofItems hlayout
      obtain ⟨slot, s, field, v, hs, hdemands, hv, rfl, hbelow⟩ :=
        (packAll_eq_error_iff hl hresolved).mp hpack
      exact .overflow hl.distinct ((exists_resolve_iff hl).mp ⟨resolved, hresolved⟩) hs hdemands hv
        hbelow
  · intro h
    cases h with
    | duplicate hname =>
      refine Outcome.bind_eq_error_iff.mpr (Or.inl (Outcome.bind_eq_error_iff.mpr (Or.inl ?_)))
      exact Layout.ofItems_eq_error_iff.mpr ⟨_, rfl, hname⟩
    | undeclared hdistinct hs href hname hbelow =>
      obtain ⟨l, hlayout⟩ := Layout.exists_ofItems_iff.mpr hdistinct
      have hl := Layout.describes_of_ofItems hlayout
      refine Outcome.bind_eq_error_iff.mpr (Or.inl (Outcome.bind_eq_error_iff.mpr (Or.inr ?_)))
      exact ⟨l, hlayout, (resolve_eq_error_iff_undeclared hl).mpr
        ⟨_, _, _, hs, href, hname, rfl, hbelow⟩⟩
    | overflow hdistinct hdeclared hs hdemands hv hbelow =>
      obtain ⟨l, hlayout⟩ := Layout.exists_ofItems_iff.mpr hdistinct
      have hl := Layout.describes_of_ofItems hlayout
      obtain ⟨resolved, hresolved⟩ := (exists_resolve_iff hl).mpr hdeclared
      refine Outcome.bind_eq_error_iff.mpr (Or.inr ⟨resolved, ?_, ?_⟩)
      · exact Outcome.bind_eq_ok_iff.mpr ⟨l, hlayout, hresolved⟩
      · exact (packAll_eq_error_iff hl hresolved).mpr ⟨_, _, _, _, hs, hdemands, hv, rfl, hbelow⟩

/-- **When linking and packing succeed, and the fault when they do not.**  A program of
statements has words exactly when it is encodable, and otherwise its fault is the first
one of the first pass that finds any. -/
theorem link_packAll_outcome (program : List Statement) :
    ((∃ words, (link (toItems program) >>= Item.packAll) = .ok words) ↔ Encodable program) ∧
      ∀ fault, (link (toItems program) >>= Item.packAll) = .error fault ↔
        FirstFault program fault :=
  ⟨exists_words_iff program, words_eq_error_iff program⟩

end Statement
end MipsAssembler
