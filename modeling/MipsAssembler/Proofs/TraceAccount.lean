import Mathlib
import MipsAssembler.Proofs.FaultOrigin
import MipsAssembler.Proofs.LayoutByIndex
import MipsAssembler.Proofs.Renaming

/-!
# The trace tells what was done

The trace of an assembly is put together from what its stages leave behind: the two passes over
the items are over when their events are read off, and a pass that stopped has left only a part
of its work.  This file says which events these are in terms of the program alone.

* `Trace.placements items`: one event for every label, with the number of slots below it.
* `Trace.branches program bound`: one event for every branch in a slot below `bound`, with the
  distance from the slot behind it to its label.
* `Trace.Accounts source trace result`: the six ways in which an assembly can go, each with the
  events that it reports.  A stage that fails leaves the events that it had come to: the labels
  before the first one that is declared again, or the branches below the first slot whose label
  is not declared.

Both passes are cut where they stop: a pass that stops at an element is the pass over what comes
before, which went through, with a fault added (`Layout.place_eq_of_repeatsAt`,
`LabelTable.resolveAll_eq_of_error`).  So it is enough to know the events of passes that went
through.  For the labels these are followed along the pass, with one lemma for each of its two
steps; for the branches they are compared slot by slot.
-/

namespace MipsAssembler

/-! ## Traces of composed runs -/

namespace Run

variable {α β : Type}

theorem trace_report_bind (event : Trace.Event) (next : Unit → Run β) :
    (report event >>= next).trace = event :: (next ()).trace := rfl

section OfExcept

variable {result : Except Fault α} (next : α → Run β)

theorem trace_ofExcept_bind_of_ok {a : α} (h : result = .ok a) :
    (ofExcept result >>= next).trace = (next a).trace := by
  rw [h]
  rfl

/-- What would come after a failed step is not reported. -/
theorem trace_ofExcept_bind_of_error {fault : Fault} (h : result = .error fault) :
    (ofExcept result >>= next).trace = [] := by
  rw [h]
  rfl

end OfExcept

section OfProgress

variable {events : α → List Trace.Event} {reached : α} (next : α → Run β)

theorem trace_ofProgress_bind_of_none :
    (ofProgress events ⟨reached, none⟩ >>= next).trace = events reached ++ (next reached).trace :=
  rfl

/-- A pass that stops reports what it has reached. -/
theorem trace_ofProgress_bind_of_some (fault : Fault) :
    (ofProgress events ⟨reached, some fault⟩ >>= next).trace = events reached := rfl

end OfProgress
end Run

theorem Progress.toExcept_eq_ok_iff {α : Type} {p : Progress α} {a : α} :
    p.toExcept = .ok a ↔ p = ⟨a, none⟩ := by
  obtain ⟨reached, fault⟩ := p
  cases fault with
  | none => simp [toExcept]
  | some fault => simp [toExcept]

/-! ## Where the passes stop -/

namespace Layout

variable {items : List Item}

theorem place_eq_of_nodup (h : (Item.labels items).Nodup) :
    ∃ l, place items = ⟨l, none⟩ ∧ l.Describes items := by
  obtain ⟨l, hl⟩ := exists_ofItems_iff.mpr h
  exact ⟨l, Progress.toExcept_eq_ok_iff.mp hl, describes_of_ofItems hl⟩

/-- A pass that meets a label for the second time has placed what comes before. -/
theorem place_eq_of_repeatsAt {k : Nat} {name : String} (hk : Item.RepeatsAt items k name)
    (hfirst : ∀ i < k, ∀ other, ¬ Item.RepeatsAt items i other) :
    ∃ l, place (items.take k) = ⟨l, none⟩ ∧ place items = ⟨l, some (.duplicateLabel name)⟩ := by
  have hdistinct : (Item.labels (items.take k)).Nodup := by
    refine Item.nodup_labels_iff.mpr fun i other hi => ?_
    obtain ⟨hik, hrepeats⟩ := Item.repeatsAt_take_iff.mp hi
    exact hfirst i hik other hrepeats
  obtain ⟨hget, hmem⟩ := Item.repeatsAt_iff.mp hk
  have hsplit := Item.eq_take_append_cons_drop hget
  obtain ⟨l, hplace, hl⟩ := place_eq_of_nodup hdistinct
  refine ⟨l, hplace, ?_⟩
  calc place items
      = empty.extend (items.take k ++ .label name :: items.drop (k + 1)) := by rw [← hsplit, place]
    _ = l.extend (.label name :: items.drop (k + 1)) := by
        rw [extend_append, ← place, hplace, if_pos rfl]
    _ = ⟨l, some (.duplicateLabel name)⟩ :=
        extend_label_of_contains ((hl.contains_iff name).mpr hmem) _

end Layout

namespace LabelTable

variable {table : LabelTable}

/-- The second pass over two lists is the second pass over the second, from where it got to in
the first. -/
theorem resolveFrom_append (slot : Nat) (done xs ys : List Item) :
    table.resolveFrom slot done (xs ++ ys) =
      if (table.resolveFrom slot done xs).fault = none then
        table.resolveFrom (slot + xs.length) (table.resolveFrom slot done xs).reached.reverse ys
      else table.resolveFrom slot done xs := by
  induction xs generalizing slot done with
  | nil => simp [resolveFrom]
  | cons item xs ih =>
    rw [List.cons_append, resolveFrom, resolveFrom]
    cases table.resolveItem slot item with
    | error fault => rfl
    | ok resolved =>
      dsimp only
      rw [ih, List.length_cons, Nat.add_assoc, Nat.add_comm 1]

/-- A pass that stops in a slot has resolved the slots below. -/
theorem resolveAll_eq_of_error {slots below : List Item} {i : Nat} {item : Item} {fault : Fault}
    (hbelow : table.resolve (slots.take i) = .ok below) (hitem : slots[i]? = some item)
    (hfault : table.resolveItem i item = .error fault) :
    table.resolveAll slots = ⟨below, some fault⟩ := by
  have hlength : 0 + (slots.take i).length = i := by
    rw [Nat.zero_add, List.length_take_of_le (List.getElem?_eq_some_iff.mp hitem).1.le]
  have hpass : table.resolveFrom 0 [] (slots.take i) = ⟨below, none⟩ :=
    Progress.toExcept_eq_ok_iff.mp hbelow
  calc table.resolveAll slots
      = table.resolveFrom 0 [] (slots.take i ++ item :: slots.drop (i + 1)) := by
        rw [← Item.eq_take_append_cons_drop hitem, resolveAll]
    _ = table.resolveFrom i below.reverse (item :: slots.drop (i + 1)) := by
        rw [resolveFrom_append, hpass, if_pos rfl, hlength]
    _ = ⟨below, some fault⟩ := by
        rw [resolveFrom, hfault]
        exact congrArg (Progress.mk · (some fault)) (List.reverse_reverse below)

end LabelTable

namespace Trace

/-! ## The labels -/

/-- An event for every label, in order: it stands for the slots below its index. -/
def placements (items : List Item) : List Event :=
  items.zipIdx.filterMap fun entry =>
    entry.1.declares?.map fun name => .placed name (Item.slotsBelow items entry.2)

theorem length_placements (items : List Item) :
    (placements items).length = (Item.labels items).length := by
  rw [placements, Item.labels, List.length_filterMap_eq_countP, List.length_filterMap_eq_countP]
  conv_rhs => rw [← List.zipIdx_map_fst 0 items, List.countP_map]
  simp [Function.comp_def]

/-- One more item adds its own event and changes none. -/
theorem placements_append_singleton (items : List Item) (item : Item) :
    placements (items ++ [item]) =
      placements items ++
        (item.declares?.map fun name => Event.placed name (Item.slots items).length).toList := by
  rw [placements, List.zipIdx_append, List.filterMap_append]
  congr 1
  · refine List.filterMap_congr fun entry hentry => ?_
    have hlt : entry.2 < items.length := by
      simpa using List.snd_lt_of_mem_zipIdx hentry
    rw [Item.slotsBelow, List.take_append_of_le_length hlt.le, ← Item.slotsBelow]
  · have hbelow : Item.slotsBelow (items ++ [item]) items.length = (Item.slots items).length := by
      rw [Item.slotsBelow_eq_length, List.take_left]
    cases hname : item.declares? <;> simp [hname, hbelow]

theorem placements_append_label (items : List Item) (name : String) :
    placements (items ++ [.label name]) =
      placements items ++ [.placed name (Item.slots items).length] :=
  placements_append_singleton items (.label name)

theorem placements_append_of_occupiesSlot {item : Item} (h : item.occupiesSlot = true)
    (items : List Item) : placements (items ++ [item]) = placements items := by
  rw [placements_append_singleton]
  cases item with
  | label name => exact absurd h (by simp [Item.occupiesSlot])
  | _ => exact List.append_nil _

section Layouts

variable {l : Layout} {items done : List Item}

theorem ofLayout_declare (l : Layout) (name : String) :
    ofLayout (l.declare name) = ofLayout l ++ [.placed name l.count] := by
  simp [ofLayout, Layout.declare, LabelTable.declare]

theorem ofLayout_occupy (l : Layout) (item : Item) : ofLayout (l.occupy item) = ofLayout l := rfl

/-- A pass that goes through reports the labels as it meets them. -/
theorem ofLayout_extend (hdescribes : l.Describes done) (h : ofLayout l = placements done)
    (hfault : (l.extend items).fault = none) :
    ofLayout (l.extend items).reached = placements (done ++ items) := by
  induction items generalizing l done with
  | nil => rwa [Layout.extend_nil, List.append_nil]
  | cons item items ih =>
    rw [List.append_cons]
    by_cases hslot : item.occupiesSlot = true
    · rw [Layout.extend_of_occupiesSlot hslot] at hfault ⊢
      refine ih (hdescribes.occupy hslot) ?_ hfault
      rw [ofLayout_occupy, h, placements_append_of_occupiesSlot hslot]
    · cases item with
      | label name =>
        by_cases hname : l.table.contains name = true
        · rw [Layout.extend_label_of_contains hname] at hfault
          cases hfault
        · rw [Layout.extend_label_of_not_contains hname] at hfault ⊢
          have hnew := mt (hdescribes.contains_iff name).mpr hname
          refine ih (hdescribes.declare hnew) ?_ hfault
          rw [ofLayout_declare, h, hdescribes.count_eq, placements_append_label]
      | _ => exact absurd rfl hslot

theorem ofLayout_of_place (h : Layout.place items = ⟨l, none⟩) : ofLayout l = placements items := by
  have hextend := ofLayout_extend Layout.describes_empty rfl (congrArg Progress.fault h)
  rwa [← Layout.place, h] at hextend

end Layouts

/-! ## The branches -/

/-- The distance from the slot behind a branch to the label that it refers to. -/
def distance (items : List Item) (slot : Nat) (target : String) : Int :=
  Item.slotsBelow items (items.idxOf (.label target)) - slot - 1

/-- The event of the statement in a slot, if it is a branch. -/
def branch? (items : List Item) (slot : Nat) : Statement → Option Event
  | .beq _ _ target => some (.branched slot (distance items slot target))
  | _ => none

/-- An event for every branch in a slot below `bound`, in the order of the slots. -/
def branches (program : List Statement) (bound : Nat) : List Event :=
  ((Statement.slots program).take bound).zipIdx.filterMap fun entry =>
    branch? (Statement.toItems program) entry.2 entry.1

section Resolved

variable {program : List Statement} {l : Layout}

theorem find?_target (hl : l.Describes (Statement.toItems program)) {name : String}
    (hname : .label name ∈ program) :
    l.table.find? name = some (Item.slotsBelow (Statement.toItems program)
      ((Statement.toItems program).idxOf (.label name)) : Int) := by
  refine hl.find?_getElem? (List.getElem?_idxOf ?_)
  exact Item.mem_labels_iff.mp (Statement.mem_labels_toItems_iff.mpr hname)

/-- Resolving a statement keeps it a branch, or no branch. -/
theorem resolvedBranch?_of_resolveItem (hl : l.Describes (Statement.toItems program))
    {slot : Nat} {s : Statement} {resolved : Item}
    (h : l.table.resolveItem slot s.toItem = .ok resolved) :
    resolvedBranch? slot resolved = branch? (Statement.toItems program) slot s := by
  have hdeclared := (Statement.exists_resolveItem_iff_declared hl).mp ⟨resolved, h⟩
  cases s with
  | beq first second target =>
    rw [LabelTable.resolveItem_beq _ _ _ _ _ (find?_target hl (hdeclared target rfl))] at h
    cases h
    rfl
  | jump target =>
    rw [LabelTable.resolveItem_jump _ _ _ (find?_target hl (hdeclared target rfl))] at h
    cases h
    rfl
  | arith op rd rs rt =>
    rw [LabelTable.resolveItem_of_reference?_eq_none _ _ rfl] at h
    cases h
    cases op <;> rfl
  | access op rd base offset =>
    rw [LabelTable.resolveItem_of_reference?_eq_none _ _ rfl] at h
    cases h
    cases op <;> rfl
  | _ =>
    rw [LabelTable.resolveItem_of_reference?_eq_none _ _ rfl] at h
    cases h
    rfl

/-- What was resolved has the events of the statements, slot by slot. -/
theorem map_resolvedBranch?_of_resolve (hl : l.Describes (Statement.toItems program))
    {slots : List Statement} {resolved : List Item}
    (h : l.table.resolve (slots.map Statement.toItem) = .ok resolved) :
    (resolved.zipIdx.map fun entry => resolvedBranch? entry.2 entry.1) =
      slots.zipIdx.map fun entry => branch? (Statement.toItems program) entry.2 entry.1 := by
  obtain ⟨hlength, hslot⟩ := LabelTable.resolve_eq_ok_iff.mp h
  rw [List.length_map] at hlength
  refine List.ext_getElem? fun i => ?_
  rw [List.getElem?_map, List.getElem?_map, List.getElem?_zipIdx, List.getElem?_zipIdx]
  cases hs : slots[i]? with
  | none =>
    have hnone : resolved[i]? = none := by
      rw [List.getElem?_eq_none_iff, hlength]
      exact List.getElem?_eq_none_iff.mp hs
    rw [hnone]
    rfl
  | some s =>
    obtain ⟨r, hr, hresolve⟩ := hslot i s.toItem (by rw [List.getElem?_map, hs]; rfl)
    rw [hr]
    simp [resolvedBranch?_of_resolveItem hl hresolve]

/-- A pass over the slots below `bound` that goes through reports the branches among them. -/
theorem ofResolved_of_resolve (hl : l.Describes (Statement.toItems program)) {bound : Nat}
    {resolved : List Item}
    (h : l.table.resolve ((Item.slots (Statement.toItems program)).take bound) = .ok resolved) :
    ofResolved resolved = branches program bound := by
  rw [← Statement.map_toItem_slots, ← List.map_take] at h
  have hevents := congrArg (List.filterMap id) (map_resolvedBranch?_of_resolve hl h)
  rw [List.filterMap_map, List.filterMap_map] at hevents
  exact hevents

/-- The pass goes through the slots below the first label that is not declared. -/
theorem exists_resolve_take (hl : l.Describes (Statement.toItems program)) {slot : Nat}
    (hbelow : ∀ j < slot, ∀ s, (Statement.slots program)[j]? = some s →
      ∀ name, s.reference? = some name → .label name ∈ program) :
    ∃ below, l.table.resolve (l.slots.take slot) = .ok below := by
  refine (Outcome.ok_or_error _).resolve_right ?_
  rintro ⟨fault, herror⟩
  obtain ⟨j, item, hitem, hstop, -⟩ := LabelTable.resolve_eq_error_iff.mp herror
  rw [List.getElem?_take, hl.slots_eq] at hitem
  split at hitem
  · next hj =>
    obtain ⟨s, hs, rfl⟩ := Statement.getElem?_slots_toItems.mp hitem
    obtain ⟨r, hr⟩ := (Statement.exists_resolveItem_iff_declared hl).mpr (hbelow j hj s hs)
    cases hr.symm.trans hstop
  · cases hitem

/-- A pass that stops at a label which is not declared reports the branches in the slots
below. -/
theorem resolveAll_eq_of_undeclared (hl : l.Describes (Statement.toItems program)) {slot : Nat}
    {s : Statement} {name : String} (hs : (Statement.slots program)[slot]? = some s)
    (href : s.reference? = some name) (hname : .label name ∉ program)
    (hbelow : ∀ j < slot, ∀ s', (Statement.slots program)[j]? = some s' →
      ∀ name', s'.reference? = some name' → .label name' ∈ program) :
    ∃ below, l.table.resolveAll l.slots = ⟨below, some (.undeclaredLabel (.name name))⟩ ∧
      ofResolved below = branches program slot := by
  have hfault : l.table.resolveItem slot s.toItem = .error (.undeclaredLabel (.name name)) := by
    refine LabelTable.resolveItem_eq_error_iff.mpr ⟨name, href, ?_, rfl⟩
    rwa [ne_eq, hl.contains_iff, Statement.mem_labels_toItems_iff]
  obtain ⟨below, hresolve⟩ := exists_resolve_take hl hbelow
  refine ⟨below, LabelTable.resolveAll_eq_of_error hresolve ?_ hfault, ?_⟩
  · rw [hl.slots_eq]
    exact Statement.getElem?_slots_toItems.mpr ⟨s, hs, rfl⟩
  · rw [hl.slots_eq] at hresolve
    exact ofResolved_of_resolve hl hresolve

end Resolved

/-! ## The account of an assembly -/

/-- What an assembly reports and how it ends.  The six ways are told apart by the stage that
fails, if one does, and by where in the program it fails. -/
inductive Accounts (source : String) : List Event → Except Fault (List Word) → Prop
  | unscanned {fault : Fault} (hscan : Token.scan source = .error fault) :
      Accounts source [] (.error fault)
  | unread {tokens : List Token} {fault : Fault} (hscan : Token.scan source = .ok tokens)
      (hread : Statement.read tokens = .error fault) :
      Accounts source [.scanned tokens.length] (.error fault)
  | redeclared {tokens : List Token} {program : List Statement} {k : Nat} {name : String}
      (hscan : Token.scan source = .ok tokens) (hread : Statement.read tokens = .ok program)
      (hrepeats : Item.RepeatsAt (Statement.toItems program) k name)
      (hfirst : ∀ i < k, ∀ other, ¬ Item.RepeatsAt (Statement.toItems program) i other) :
      Accounts source
        ([.scanned tokens.length, .parsed program.length] ++
          placements ((Statement.toItems program).take k))
        (.error (.duplicateLabel name))
  | undeclared {tokens : List Token} {program : List Statement} {slot : Nat} {s : Statement}
      {name : String}
      (hscan : Token.scan source = .ok tokens) (hread : Statement.read tokens = .ok program)
      (hdistinct : (Item.labels (Statement.toItems program)).Nodup)
      (hs : (Statement.slots program)[slot]? = some s) (href : s.reference? = some name)
      (hname : .label name ∉ program)
      (hbelow : ∀ j < slot, ∀ s', (Statement.slots program)[j]? = some s' →
        ∀ name', s'.reference? = some name' → .label name' ∈ program) :
      Accounts source
        ([.scanned tokens.length, .parsed program.length] ++
          placements (Statement.toItems program) ++ branches program slot)
        (.error (.undeclaredLabel (.name name)))
  | overflowing {tokens : List Token} {program : List Statement} {linked : List Item}
      {fault : Fault}
      (hscan : Token.scan source = .ok tokens) (hread : Statement.read tokens = .ok program)
      (hlink : link (Statement.toItems program) = .ok linked)
      (hpack : Item.packAll linked = .error fault) (hkind : fault.kind = .range) :
      Accounts source
        ([.scanned tokens.length, .parsed program.length] ++
          placements (Statement.toItems program) ++
          branches program (Statement.slots program).length)
        (.error fault)
  | complete {tokens : List Token} {program : List Statement} {linked : List Item}
      {words : List Word}
      (hscan : Token.scan source = .ok tokens) (hread : Statement.read tokens = .ok program)
      (hlink : link (Statement.toItems program) = .ok linked)
      (hpack : Item.packAll linked = .ok words)
      (hcount : words.length + (placements (Statement.toItems program)).length =
        program.length) :
      Accounts source
        ([.scanned tokens.length, .parsed program.length] ++
          placements (Statement.toItems program) ++
          branches program (Statement.slots program).length ++
          [.assembled tokens.length program.length words.length])
        (.ok words)

section Stages

variable {source : String} {tokens : List Token} {program : List Statement} {l : Layout}

theorem trace_of_read (hscan : Token.scan source = .ok tokens)
    (hread : Statement.read tokens = .ok program) :
    (assembleTraced source).trace =
      [.scanned tokens.length, .parsed program.length] ++
        (assembleProgramTraced tokens.length program).trace := by
  rw [assembleTraced, Run.trace_ofExcept_bind_of_ok _ hscan, Run.trace_report_bind,
    Run.trace_ofExcept_bind_of_ok _ hread, Run.trace_report_bind]
  rfl

theorem exists_of_link {linked : List Item} (h : link (Statement.toItems program) = .ok linked) :
    ∃ l, Layout.place (Statement.toItems program) = ⟨l, none⟩ ∧
      l.table.resolveAll l.slots = ⟨linked, none⟩ ∧
      ofResolved linked = branches program (Statement.slots program).length := by
  obtain ⟨l, hlayout, hresolve⟩ := Outcome.bind_eq_ok_iff.mp h
  have hl := Layout.describes_of_ofItems hlayout
  refine ⟨l, Progress.toExcept_eq_ok_iff.mp hlayout, Progress.toExcept_eq_ok_iff.mp hresolve, ?_⟩
  refine ofResolved_of_resolve hl ?_
  rwa [← Statement.map_toItem_slots, ← List.map_take, List.take_length,
    Statement.map_toItem_slots, ← hl.slots_eq]

theorem Accounts.trace_eq {trace : List Event} {result : Except Fault (List Word)}
    (h : Accounts source trace result) : (assembleTraced source).trace = trace := by
  cases h with
  | unscanned hscan => exact Run.trace_ofExcept_bind_of_error _ hscan
  | unread hscan hread =>
    rw [assembleTraced, Run.trace_ofExcept_bind_of_ok _ hscan, Run.trace_report_bind,
      Run.trace_ofExcept_bind_of_error _ hread]
  | redeclared hscan hread hrepeats hfirst =>
    obtain ⟨l, htake, hplace⟩ := Layout.place_eq_of_repeatsAt hrepeats hfirst
    rw [trace_of_read hscan hread, assembleProgramTraced, hplace,
      Run.trace_ofProgress_bind_of_some, ofLayout_of_place htake]
  | undeclared hscan hread hdistinct hs href hname hbelow =>
    obtain ⟨l, hplace, hl⟩ := Layout.place_eq_of_nodup hdistinct
    obtain ⟨below, hresolve, hbranches⟩ := resolveAll_eq_of_undeclared hl hs href hname hbelow
    rw [trace_of_read hscan hread, assembleProgramTraced, hplace,
      Run.trace_ofProgress_bind_of_none, hresolve, Run.trace_ofProgress_bind_of_some,
      ofLayout_of_place hplace, hbranches, List.append_assoc]
  | overflowing hscan hread hlink hpack =>
    obtain ⟨l, hplace, hresolve, hbranches⟩ := exists_of_link hlink
    rw [trace_of_read hscan hread, assembleProgramTraced, hplace,
      Run.trace_ofProgress_bind_of_none, hresolve, Run.trace_ofProgress_bind_of_none,
      Run.trace_ofExcept_bind_of_error _ hpack, ofLayout_of_place hplace, hbranches,
      List.append_nil, List.append_assoc]
  | complete hscan hread hlink hpack =>
    obtain ⟨l, hplace, hresolve, hbranches⟩ := exists_of_link hlink
    rw [trace_of_read hscan hread, assembleProgramTraced, hplace,
      Run.trace_ofProgress_bind_of_none, hresolve, Run.trace_ofProgress_bind_of_none,
      Run.trace_ofExcept_bind_of_ok _ hpack, Run.trace_report_bind, ofLayout_of_place hplace,
      hbranches, List.append_assoc, List.append_assoc]
    rfl

theorem Accounts.result_eq {trace : List Event} {result : Except Fault (List Word)}
    (h : Accounts source trace result) : assemble source = result := by
  cases h with
  | unscanned hscan => rw [assemble, hscan, Outcome.error_bind]
  | unread hscan hread => rw [assemble, hscan, Outcome.ok_bind, hread, Outcome.error_bind]
  | redeclared hscan hread hrepeats hfirst =>
    rw [assemble, hscan, Outcome.ok_bind, hread, Outcome.ok_bind]
    have hname := Item.redeclares_iff_repeatsAt.mpr ⟨_, hrepeats, hfirst⟩
    exact (Statement.words_eq_error_iff _ _).mpr (.duplicate hname)
  | undeclared hscan hread hdistinct hs href hname hbelow =>
    rw [assemble, hscan, Outcome.ok_bind, hread, Outcome.ok_bind]
    exact (Statement.words_eq_error_iff _ _).mpr (.undeclared hdistinct hs href hname hbelow)
  | overflowing hscan hread hlink hpack =>
    rw [assemble, hscan, Outcome.ok_bind, hread, Outcome.ok_bind, hlink, Outcome.ok_bind, hpack]
  | complete hscan hread hlink hpack =>
    rw [assemble, hscan, Outcome.ok_bind, hread, Outcome.ok_bind, hlink, Outcome.ok_bind, hpack]

/-- Every item is a label or takes a slot. -/
theorem length_labels_add_length_slots (items : List Item) :
    (Item.labels items).length + (Item.slots items).length = items.length := by
  induction items with
  | nil => rfl
  | cons item items ih =>
    cases item with
    | label name =>
      rw [Item.labels_label_cons, Item.slots_label_cons, List.length_cons, List.length_cons]
      omega
    | _ =>
      rw [Item.labels_cons_of_occupiesSlot rfl, Item.slots_cons_of_occupiesSlot rfl,
        List.length_cons, List.length_cons]
      omega

/-- There is a word for every statement that is not a label. -/
theorem length_words_add_length_placements {words : List Word}
    (h : (link (Statement.toItems program) >>= Item.packAll) = .ok words) :
    words.length + (placements (Statement.toItems program)).length = program.length := by
  have hall := length_labels_add_length_slots (Statement.toItems program)
  have hlength : (Statement.toItems program).length = program.length := List.length_map _
  rw [← Statement.map_toItem_slots, List.length_map, hlength] at hall
  rw [Statement.length_words h, length_placements, Nat.add_comm, hall]

/-- What was read is placed, resolved and packed, or one of the three passes stops. -/
theorem exists_accounts_of_read (hscan : Token.scan source = .ok tokens)
    (hread : Statement.read tokens = .ok program) :
    ∃ trace, Accounts source trace (link (Statement.toItems program) >>= Item.packAll) := by
  rcases Layout.ofItems_cases (Statement.toItems program) with
    ⟨l, hlayout, hl⟩ | ⟨name, hlayout, hname⟩
  · rcases Outcome.ok_or_error (l.table.resolve l.slots) with
      ⟨linked, hresolve⟩ | ⟨fault, hresolve⟩
    · have hlink : link (Statement.toItems program) = .ok linked :=
        Outcome.bind_eq_ok_iff.mpr ⟨l, hlayout, hresolve⟩
      rcases Outcome.ok_or_error (Item.packAll linked) with ⟨words, hpack⟩ | ⟨fault, hpack⟩
      · have hwords := Outcome.bind_eq_ok_iff.mpr ⟨linked, hlink, hpack⟩
        have hcount := length_words_add_length_placements hwords
        rw [hwords]
        exact ⟨_, .complete hscan hread hlink hpack hcount⟩
      · have hkind := Statement.failsOnly_packAll hlink fault hpack
        have herror := Outcome.bind_eq_error_iff.mpr (Or.inr ⟨linked, hlink, hpack⟩)
        rw [herror]
        exact ⟨_, .overflowing hscan hread hlink hpack hkind⟩
    · have hlink : link (Statement.toItems program) = .error fault :=
        Outcome.bind_eq_error_iff.mpr (Or.inr ⟨l, hlayout, hresolve⟩)
      obtain ⟨slot, s, name, hs, href, hname, rfl, hbelow⟩ :=
        (Statement.resolve_eq_error_iff_undeclared hl).mp hresolve
      rw [hlink, Outcome.error_bind]
      exact ⟨_, .undeclared hscan hread hl.distinct hs href hname hbelow⟩
  · obtain ⟨k, hrepeats, hfirst⟩ := Item.redeclares_iff_repeatsAt.mp hname
    have hlink : link (Statement.toItems program) = .error (.duplicateLabel name) :=
      Outcome.bind_eq_error_iff.mpr (Or.inl hlayout)
    rw [hlink, Outcome.error_bind]
    exact ⟨_, .redeclared hscan hread hrepeats hfirst⟩

/-- Every assembly has an account. -/
theorem exists_accounts (source : String) : ∃ trace, Accounts source trace (assemble source) := by
  rcases Outcome.ok_or_error (Token.scan source) with ⟨tokens, hscan⟩ | ⟨fault, hscan⟩
  · rw [assemble, hscan, Outcome.ok_bind]
    rcases Outcome.ok_or_error (Statement.read tokens) with ⟨program, hread⟩ | ⟨fault, hread⟩
    · rw [hread, Outcome.ok_bind]
      exact exists_accounts_of_read hscan hread
    · rw [hread, Outcome.error_bind]
      exact ⟨_, .unread hscan hread⟩
  · rw [assemble, hscan, Outcome.error_bind]
    exact ⟨_, .unscanned hscan⟩

/-- An assembly has one account, and it is the one that is given. -/
theorem accounts_iff {trace : List Event} {result : Except Fault (List Word)} :
    Accounts source trace result ↔
      (assembleTraced source).trace = trace ∧ assemble source = result := by
  constructor
  · exact fun h => ⟨h.trace_eq, h.result_eq⟩
  · rintro ⟨rfl, rfl⟩
    obtain ⟨trace, h⟩ := exists_accounts source
    rwa [h.trace_eq]

-- the jump has no label to go to, and the branch in the slot before it was resolved
example : (assembleTraced "a: beq $1, $2, b\nb: j c").trace =
    [.scanned 10, .parsed 4, .placed "a" 0, .placed "b" 1, .branched 0 0] := by decide +kernel

end Stages
end Trace
end MipsAssembler
