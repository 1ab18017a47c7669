import Mathlib
import MipsAssembler.Proofs.Grammar
import MipsAssembler.Proofs.MachineCode
import MipsAssembler.Proofs.ScanSeams

/-!
# Two programs in a row

If two texts assemble and declare no label in common, they can be put into one text, the
second on a line of its own.  The labels of the second text then stand higher than before,
by the number of words of the first.  A branch does not notice, because it says how far its
label is and moves along with it.  A jump says where its label stands, so the target in its
word grows by that number, and this is the only thing that can go wrong: the target may no
longer fit.

The texts meet in three places.  The scan is cut by the line feed (`scan_append_newline`),
the reader takes statement by statement (`read_append`), and what is left is a fact about
two programs of statements.  It is proved slot by slot from one notion, `Shifted k`: the
label that a statement refers to stands `k` slots higher in one program than in another.
The first program is shifted by nothing and the second by the slots of the first.  What
such a statement demands (`Demands.of_shifted`) and which word it has
(`Encodes.eq_relocate`) follow without a look at the passes.
-/

namespace MipsAssembler

/-! ## Words with another target -/

namespace Word

/-- The word with another number in its target field. -/
def withTarget (w : Word) (t : Nat) : Word :=
  ofJ (BitVec.ofNat FieldWidth.opcode w.opcode) (BitVec.ofNat FieldWidth.target t)

theorem fields_withTarget (w : Word) {t : Nat} (ht : t < 2 ^ 26) :
    (w.withTarget t).opcode = w.opcode ∧ (w.withTarget t).target = t := by
  obtain ⟨hopcode, htarget⟩ := fields_ofJ (BitVec.ofNat FieldWidth.opcode w.opcode)
    (BitVec.ofNat FieldWidth.target t)
  refine ⟨hopcode.trans ?_, htarget.trans ?_⟩
  · rw [BitVec.toNat_ofNat]
    exact Nat.mod_eq_of_lt (w.field_lt 26 6)
  · rw [BitVec.toNat_ofNat]
    exact Nat.mod_eq_of_lt ht

/-- A word is known by its operation code and its target. -/
theorem eq_withTarget {w w' : Word} {t : Nat} (hopcode : w'.opcode = w.opcode)
    (htarget : w'.target = t) : w' = w.withTarget t := by
  have ht : t < 2 ^ 26 := htarget ▸ w'.field_lt 0 26
  obtain ⟨hopcode', htarget'⟩ := w.fields_withTarget ht
  apply BitVec.eq_of_toNat_eq
  rw [toNat_eq_fieldsJ w', toNat_eq_fieldsJ (w.withTarget t), hopcode, htarget, hopcode', htarget']

/-- A word is known by its operation code, its registers and its signed immediate. -/
theorem eq_of_signExtend_immediate {w w' : Word} (hopcode : w'.opcode = w.opcode)
    (hrs : w'.rs = w.rs) (hrt : w'.rt = w.rt)
    (h : Bits.signExtend w'.immediate 16 = Bits.signExtend w.immediate 16) : w' = w := by
  have hmod := (Bits.signExtend_emod (w'.immediate : Int) 15).symm.trans
    ((congrArg (· % (Bits.weight 16 : Int)) h).trans (Bits.signExtend_emod (w.immediate : Int) 15))
  have hlt : w.immediate < 2 ^ 16 := w.field_lt 0 16
  have hlt' : w'.immediate < 2 ^ 16 := w'.field_lt 0 16
  have himmediate : w'.immediate = w.immediate := by
    rw [Bits.weight_eq] at hmod
    omega
  apply BitVec.eq_of_toNat_eq
  rw [toNat_eq_fieldsI w', toNat_eq_fieldsI w, hopcode, hrs, hrt, himmediate]

end Word

namespace Statement

/-! ## Statements that are moved -/

/-- The word of a statement whose label was moved up by `k` slots together with the
statement: a jump says so, and nothing else does. -/
def relocate (k : Nat) : Statement → Word → Word
  | jump _, w => w.withTarget (w.target + k)
  | _, w => w

theorem relocate_zero (s : Statement) (w : Word) : s.relocate 0 w = w := by
  cases s with
  | jump name => exact (Word.eq_withTarget rfl rfl).symm
  | _ => rfl

theorem relocate_of_not_jump (k : Nat) (w : Word) {s : Statement} (h : ¬ ∃ name, s = .jump name) :
    s.relocate k w = w := by
  cases s with
  | jump name => exact absurd ⟨name, rfl⟩ h
  | _ => rfl

/-- The label that a statement refers to stands `k` slots higher in `items'` than in
`items`. -/
def Shifted (k : Nat) (items items' : List Item) (s : Statement) : Prop :=
  ∀ name, s.reference? = some name → ∀ t, Item.Marks items' name t →
    ∃ u, Item.Marks items name u ∧ t = k + u

section Shifted

variable {items items' : List Item} {k slot : Nat} {s : Statement}

/-- A moved statement demands the number that it demanded before, unless it is a jump. -/
theorem Demands.of_shifted (hshift : Shifted k items items' s) {field : NumericField} {v : Int}
    (h : s.Demands items' (k + slot) field v) :
    s.Demands items slot field v ∨
      ∃ name u, s = .jump name ∧ field = .target ∧ Item.Marks items name u ∧
        v = ((k + u : Nat) : Int) := by
  cases h with
  | data => exact Or.inl (.data v)
  | addi rd rs => exact Or.inl (.addi rd rs v)
  | access op rd base => exact Or.inl (.access op rd base v)
  | beq first second hmarks =>
    obtain ⟨u, hu, rfl⟩ := hshift _ rfl _ hmarks
    have hdistance : ((k + u : Nat) : Int) - ((k + slot : Nat) : Int) - 1 =
        (u : Int) - slot - 1 := by
      omega
    rw [hdistance]
    exact Or.inl (.beq first second hu)
  | jump hmarks =>
    obtain ⟨u, hu, rfl⟩ := hshift _ rfl _ hmarks
    exact Or.inr ⟨_, u, rfl, rfl, hu, rfl⟩

theorem Demands.of_shifted_zero (hshift : Shifted 0 items items' s) {field : NumericField}
    {v : Int} (h : s.Demands items' slot field v) : s.Demands items slot field v := by
  rw [← Nat.zero_add slot] at h
  rcases h.of_shifted hshift with hsame | ⟨name, u, rfl, rfl, hu, rfl⟩
  · exact hsame
  · rw [Nat.zero_add]
    exact .jump hu

/-- The word of a moved statement. -/
theorem Encodes.eq_relocate (hdistinct : (Item.labels items).Nodup)
    (hshift : Shifted k items items' s) {w w' : Word} (h : s.Encodes items slot w)
    (h' : s.Encodes items' (k + slot) w') : w' = s.relocate k w := by
  cases s with
  | label name => exact h.elim
  | data v =>
    obtain ⟨hbyte, hpadding⟩ := h
    obtain ⟨hbyte', hpadding'⟩ := h'
    have hsame : w'.byte = w.byte := by exact_mod_cast hbyte'.trans hbyte.symm
    show w' = w
    apply BitVec.eq_of_toNat_eq
    rw [Word.toNat_eq_fieldsData w', Word.toNat_eq_fieldsData w, hsame, hpadding, hpadding']
  | arith op rd rs rt =>
    obtain ⟨hopcode, hrs, hrt, hrd, hshamt, hfunct⟩ := h
    obtain ⟨hopcode', hrs', hrt', hrd', hshamt', hfunct'⟩ := h'
    show w' = w
    apply BitVec.eq_of_toNat_eq
    rw [Word.toNat_eq_fieldsR w', Word.toNat_eq_fieldsR w, hopcode, hrs, hrt, hrd, hshamt, hfunct,
      hopcode', hrs', hrt', hrd', hshamt', hfunct']
  | addi rd rs v =>
    obtain ⟨hopcode, hrs, hrt, hv⟩ := h
    obtain ⟨hopcode', hrs', hrt', hv'⟩ := h'
    exact Word.eq_of_signExtend_immediate (hopcode'.trans hopcode.symm) (hrs'.trans hrs.symm)
      (hrt'.trans hrt.symm) (hv'.trans hv.symm)
  | access op rd base v =>
    obtain ⟨hopcode, hrs, hrt, hv⟩ := h
    obtain ⟨hopcode', hrs', hrt', hv'⟩ := h'
    exact Word.eq_of_signExtend_immediate (hopcode'.trans hopcode.symm) (hrs'.trans hrs.symm)
      (hrt'.trans hrt.symm) (hv'.trans hv.symm)
  | beq first second name =>
    obtain ⟨hopcode, hrs, hrt, -, t, hmarks, hdistance⟩ := h
    obtain ⟨hopcode', hrs', hrt', -, t', hmarks', hdistance'⟩ := h'
    obtain ⟨u, hu, rfl⟩ := hshift name rfl t' hmarks'
    obtain rfl : u = t := hu.unique hdistinct hmarks
    -- The statement and its label were moved by the same number of slots.
    show w' = w
    refine Word.eq_of_signExtend_immediate (hopcode'.trans hopcode.symm) (hrs'.trans hrs.symm)
      (hrt'.trans hrt.symm) ?_
    push_cast at hdistance'
    omega
  | jump name =>
    obtain ⟨hopcode, -, hmarks⟩ := h
    obtain ⟨hopcode', -, hmarks'⟩ := h'
    obtain ⟨u, hu, htarget⟩ := hshift name rfl w'.target hmarks'
    obtain rfl : u = w.target := hu.unique hdistinct hmarks
    exact Word.eq_withTarget (hopcode'.trans hopcode.symm) (htarget.trans (Nat.add_comm k _))

theorem Encodes.eq_of_shifted_zero (hdistinct : (Item.labels items).Nodup)
    (hshift : Shifted 0 items items' s) {w w' : Word} (h : s.Encodes items slot w)
    (h' : s.Encodes items' slot w') : w' = w := by
  rw [← Nat.zero_add slot] at h'
  exact (h.eq_relocate hdistinct hshift h').trans (relocate_zero s w)

end Shifted

/-! ## Two programs without a common label -/

theorem toItems_append (first second : List Statement) :
    toItems (first ++ second) = toItems first ++ toItems second :=
  List.map_append

theorem slots_append (first second : List Statement) :
    slots (first ++ second) = slots first ++ slots second :=
  List.filter_append first second

theorem getElem?_slots_append_right (first second : List Statement) (j : Nat) :
    (slots (first ++ second))[(slots first).length + j]? = (slots second)[j]? := by
  rw [slots_append, List.getElem?_append_right (Nat.le_add_right _ _), Nat.add_sub_cancel_left]

theorem length_slots_toItems (program : List Statement) :
    (Item.slots (toItems program)).length = (slots program).length := by
  rw [← map_toItem_slots, List.length_map]

/-- Every jump of a program still reaches its label when `k` slots are put before it. -/
def JumpsReach (k : Nat) (program : List Statement) (words : List Word) : Prop :=
  ∀ (slot : Nat) (name : String) (w : Word), (slots program)[slot]? = some (.jump name) →
    words[slot]? = some w → w.target + k < 2 ^ 26

section Append

variable {first second : List Statement}

/-- A statement of the first program refers to a label that stays where it is. -/
theorem shifted_first (hdeclared : AllDeclared first)
    (hdisjoint : ∀ name, .label name ∈ first → .label name ∉ second) {s : Statement}
    (hs : s ∈ first) : Shifted 0 (toItems first) (toItems (first ++ second)) s := by
  intro name href t hmarks
  rw [toItems_append] at hmarks
  rcases Item.marks_append.mp hmarks with hfirst | ⟨u, hu, -⟩
  · exact ⟨t, hfirst, (Nat.zero_add t).symm⟩
  · have hmem := mem_labels_toItems_iff.mp (Item.mem_labels_iff_marks.mpr ⟨u, hu⟩)
    exact absurd hmem (hdisjoint name (hdeclared s hs name href))

/-- A statement of the second program refers to a label that is moved along with it. -/
theorem shifted_second (hdeclared : AllDeclared second)
    (hdisjoint : ∀ name, .label name ∈ first → .label name ∉ second) {s : Statement}
    (hs : s ∈ second) :
    Shifted (slots first).length (toItems second) (toItems (first ++ second)) s := by
  intro name href t hmarks
  rw [toItems_append] at hmarks
  rcases Item.marks_append.mp hmarks with hfirst | ⟨u, hu, rfl⟩
  · have hmem := mem_labels_toItems_iff.mp (Item.mem_labels_iff_marks.mpr ⟨t, hfirst⟩)
    exact absurd (hdeclared s hs name href) (hdisjoint name hmem)
  · exact ⟨u, hu, by rw [length_slots_toItems]⟩

theorem nodup_labels_append (hfirst : Encodable first) (hsecond : Encodable second)
    (hdisjoint : ∀ name, .label name ∈ first → .label name ∉ second) :
    (Item.labels (toItems (first ++ second))).Nodup := by
  rw [toItems_append, Item.labels_append]
  refine List.nodup_append.mpr ⟨hfirst.distinct, hsecond.distinct, ?_⟩
  rintro name hname _ hname' rfl
  exact hdisjoint name (mem_labels_toItems_iff.mp hname) (mem_labels_toItems_iff.mp hname')

theorem allDeclared_append (hfirst : AllDeclared first) (hsecond : AllDeclared second) :
    AllDeclared (first ++ second) := by
  intro s hs name href
  rcases List.mem_append.mp hs with hs | hs
  · exact List.mem_append_left _ (hfirst s hs name href)
  · exact List.mem_append_right _ (hsecond s hs name href)

/-- What a slot of the two programs demands fits, or it is the target of a jump of the
second one. -/
theorem holds_or_jump (hfirst : Encodable first) (hsecond : Encodable second)
    (hdisjoint : ∀ name, .label name ∈ first → .label name ∉ second) {slot : Nat} {s : Statement}
    {field : NumericField} {v : Int} (hs : (slots (first ++ second))[slot]? = some s)
    (h : s.Demands (toItems (first ++ second)) slot field v) :
    field.Holds v ∨
      ∃ (j : Nat) (name : String) (u : Nat), slot = (slots first).length + j ∧
        (slots second)[j]? = some (.jump name) ∧ field = .target ∧
        Item.Marks (toItems second) name u ∧ v = (((slots first).length + u : Nat) : Int) := by
  rcases Nat.lt_or_ge slot (slots first).length with hlt | hge
  · rw [slots_append, List.getElem?_append_left hlt] at hs
    have hmem := (mem_slots_iff.mp (List.mem_of_getElem? hs)).1
    have hsame := h.of_shifted_zero (shifted_first hfirst.declared hdisjoint hmem)
    exact Or.inl ((encodable_iff.mp hfirst).2.2 slot s hs field v hsame)
  · obtain ⟨j, rfl⟩ := Nat.exists_eq_add_of_le hge
    rw [getElem?_slots_append_right] at hs
    have hmem := (mem_slots_iff.mp (List.mem_of_getElem? hs)).1
    rcases h.of_shifted (shifted_second hsecond.declared hdisjoint hmem) with
      hsame | ⟨name, u, rfl, rfl, hu, rfl⟩
    · exact Or.inl ((encodable_iff.mp hsecond).2.2 j s hs field v hsame)
    · exact Or.inr ⟨j, name, u, rfl, hs, rfl, hu, rfl⟩

/-- A jump of the second program demands its old target and the slots before it. -/
theorem demands_jump_append {j : Nat} {name : String} {u : Nat}
    (hmarks : Item.Marks (toItems second) name u) :
    (jump name).Demands (toItems (first ++ second)) ((slots first).length + j) .target
      (((slots first).length + u : Nat) : Int) := by
  refine .jump ?_
  rw [toItems_append]
  exact Item.marks_append.mpr (Or.inr ⟨u, hmarks, by rw [length_slots_toItems]⟩)

end Append

/-! ## The words of two programs in a row -/

section Words

variable {first second : List Statement} {as bs : List Word}

/-- The target in the word of a jump is where its label stands. -/
theorem exists_target_eq (hb : (link (toItems second) >>= Item.packAll) = .ok bs) {j : Nat}
    {name : String} {u : Nat} (hj : (slots second)[j]? = some (.jump name))
    (hmarks : Item.Marks (toItems second) name u) : ∃ w, bs[j]? = some w ∧ w.target = u := by
  have hlt : j < bs.length := by
    rw [length_words hb]
    exact (List.getElem?_eq_some_iff.mp hj).1
  have hw := List.getElem?_eq_getElem hlt
  obtain ⟨-, -, hmarks'⟩ := encodes_of_words hb hj hw
  have hdistinct := ((exists_words_iff second).mp ⟨bs, hb⟩).distinct
  exact ⟨_, hw, hmarks'.unique hdistinct hmarks⟩

/-- If what a jump of the second program demands fits, the jump reaches its label. -/
theorem target_add_lt (hb : (link (toItems second) >>= Item.packAll) = .ok bs) {j : Nat}
    {name : String} {w : Word} (hj : (slots second)[j]? = some (.jump name))
    (hw : bs[j]? = some w)
    (hfits : ∀ s, (slots (first ++ second))[(slots first).length + j]? = some s →
      ∀ field v, s.Demands (toItems (first ++ second)) ((slots first).length + j) field v →
        field.Holds v) : w.target + (slots first).length < 2 ^ 26 := by
  obtain ⟨-, -, hmarks⟩ := encodes_of_words hb hj hw
  have hholds := hfits _ ((getElem?_slots_append_right first second j).trans hj) _ _
    (demands_jump_append hmarks)
  have hlt : (((slots first).length + w.target : Nat) : Int) < 2 ^ 26 := hholds.2
  omega

theorem exists_words_append_iff (ha : (link (toItems first) >>= Item.packAll) = .ok as)
    (hb : (link (toItems second) >>= Item.packAll) = .ok bs)
    (hdisjoint : ∀ name, .label name ∈ first → .label name ∉ second) :
    (∃ ws, (link (toItems (first ++ second)) >>= Item.packAll) = .ok ws) ↔
      JumpsReach as.length second bs := by
  have hfirst := (exists_words_iff first).mp ⟨as, ha⟩
  have hsecond := (exists_words_iff second).mp ⟨bs, hb⟩
  rw [exists_words_iff, encodable_iff, length_words ha]
  constructor
  · rintro ⟨-, -, hfits⟩ slot name w hs hw
    exact target_add_lt hb hs hw (hfits _)
  · intro hreach
    refine ⟨nodup_labels_append hfirst hsecond hdisjoint,
      allDeclared_append hfirst.declared hsecond.declared, fun slot s hs field v hdemands => ?_⟩
    rcases holds_or_jump hfirst hsecond hdisjoint hs hdemands with
      hholds | ⟨j, name, u, -, hj, rfl, hmarks, rfl⟩
    · exact hholds
    · obtain ⟨w, hw, rfl⟩ := exists_target_eq hb hj hmarks
      have hlt := hreach j name w hj hw
      have hfits : (((slots first).length + w.target : Nat) : Int) < 2 ^ 26 := by omega
      exact ⟨Int.natCast_nonneg _, hfits⟩

/-- The words of two programs in a row are those of the first and the relocated ones of the
second. -/
theorem words_append_eq {ws : List Word} (ha : (link (toItems first) >>= Item.packAll) = .ok as)
    (hb : (link (toItems second) >>= Item.packAll) = .ok bs)
    (hdisjoint : ∀ name, .label name ∈ first → .label name ∉ second)
    (h : (link (toItems (first ++ second)) >>= Item.packAll) = .ok ws) :
    ws = as ++ List.zipWith (relocate as.length) (slots second) bs := by
  have hfirst := (exists_words_iff first).mp ⟨as, ha⟩
  have hsecond := (exists_words_iff second).mp ⟨bs, hb⟩
  have hlength := length_words h
  rw [slots_append, List.length_append, ← length_words ha, ← length_words hb] at hlength
  apply List.ext_getElem
  · rw [hlength, List.length_append, List.length_zipWith, ← length_words hb, Nat.min_self]
  intro i hi hi'
  have hw := List.getElem?_eq_getElem hi
  rcases Nat.lt_or_ge i as.length with hlt | hge
  · have hi₁ : i < (slots first).length := length_words ha ▸ hlt
    have hs := List.getElem?_eq_getElem hi₁
    have hs' : (slots (first ++ second))[i]? = some (slots first)[i] := by
      rw [slots_append, List.getElem?_append_left hi₁, hs]
    have hmem := (mem_slots_iff.mp (List.mem_of_getElem? hs)).1
    have hencodes := encodes_of_words ha hs (List.getElem?_eq_getElem hlt)
    rw [List.getElem_append_left hlt]
    exact hencodes.eq_of_shifted_zero hfirst.distinct
      (shifted_first hfirst.declared hdisjoint hmem) (encodes_of_words h hs' hw)
  · obtain ⟨j, rfl⟩ := Nat.exists_eq_add_of_le hge
    have hj : j < bs.length := by omega
    have hj₁ : j < (slots second).length := length_words hb ▸ hj
    have hs := List.getElem?_eq_getElem hj₁
    have hs' : (slots (first ++ second))[as.length + j]? = some (slots second)[j] := by
      rw [length_words ha, getElem?_slots_append_right, hs]
    have hmem := (mem_slots_iff.mp (List.mem_of_getElem? hs)).1
    have hencodes := encodes_of_words hb hs (List.getElem?_eq_getElem hj)
    have hshift := shifted_second hsecond.declared hdisjoint hmem
    rw [← length_words ha] at hshift
    rw [List.getElem_append_right hge, List.getElem_zipWith]
    simpa only [Nat.add_sub_cancel_left] using
      hencodes.eq_relocate hsecond.distinct hshift (encodes_of_words h hs' hw)

/-- If two programs in a row have no words, the fault quotes the new target of the lowest
jump that does not reach. -/
theorem words_append_eq_error {fault : Fault}
    (ha : (link (toItems first) >>= Item.packAll) = .ok as)
    (hb : (link (toItems second) >>= Item.packAll) = .ok bs)
    (hdisjoint : ∀ name, .label name ∈ first → .label name ∉ second)
    (h : (link (toItems (first ++ second)) >>= Item.packAll) = .error fault) :
    ∃ (slot : Nat) (name : String) (w : Word), (slots second)[slot]? = some (.jump name) ∧
      bs[slot]? = some w ∧ 2 ^ 26 ≤ w.target + as.length ∧
      fault = .targetOutOfRange ((w.target + as.length : Nat) : Int) ∧
      ∀ j < slot, ∀ (name' : String) (w' : Word), (slots second)[j]? = some (.jump name') →
        bs[j]? = some w' → w'.target + as.length < 2 ^ 26 := by
  have hfirst := (exists_words_iff first).mp ⟨as, ha⟩
  have hsecond := (exists_words_iff second).mp ⟨bs, hb⟩
  rw [length_words ha]
  cases (words_eq_error_iff (first ++ second) fault).mp h with
  | duplicate hname =>
    exact absurd (nodup_labels_append hfirst hsecond hdisjoint) hname.not_nodup
  | undeclared _ hs href hname _ =>
    have hmem := (mem_slots_iff.mp (List.mem_of_getElem? hs)).1
    exact absurd (allDeclared_append hfirst.declared hsecond.declared _ hmem _ href) hname
  | overflow _ _ hs hdemands hv hbelow =>
    rcases holds_or_jump hfirst hsecond hdisjoint hs hdemands with
      hholds | ⟨slot, name, u, rfl, hslot, rfl, hmarks, rfl⟩
    · exact absurd hholds hv
    · obtain ⟨w, hw, rfl⟩ := exists_target_eq hb hslot hmarks
      have hreach : ¬ (0 ≤ (((slots first).length + w.target : Nat) : Int) ∧
          (((slots first).length + w.target : Nat) : Int) < 2 ^ 26) := hv
      refine ⟨slot, name, w, hslot, hw, by omega, ?_, fun j hj name' w' hs' hw' => ?_⟩
      · rw [Nat.add_comm w.target]
        rfl
      · exact target_add_lt hb hs' hw' (hbelow _ (Nat.add_lt_add_left hj _))

end Words

end Statement

/-! ## Two texts in a row -/

/-- Behind the reader, an assembly depends on the statements that were read. -/
theorem assemble_eq_words {source : String} {program : List Statement}
    (h : (Token.scan source >>= Statement.read) = .ok program) :
    assemble source = (link (Statement.toItems program) >>= Item.packAll) := by
  obtain ⟨tokens, hscan, hread⟩ := Outcome.bind_eq_ok_iff.mp h
  rw [assemble, hscan, Outcome.ok_bind, hread, Outcome.ok_bind]

theorem read_scan_append_newline {a b : String} {first second : List Statement}
    (ha : (Token.scan a >>= Statement.read) = .ok first)
    (hb : (Token.scan b >>= Statement.read) = .ok second) :
    (Token.scan (a ++ "\n" ++ b) >>= Statement.read) = .ok (first ++ second) := by
  obtain ⟨ss, hscan, hread⟩ := Outcome.bind_eq_ok_iff.mp ha
  obtain ⟨ts, hscan', hread'⟩ := Outcome.bind_eq_ok_iff.mp hb
  rw [Token.scan_append_newline hscan hscan', Outcome.ok_bind, Statement.read_append hread, hread']
  rfl

/-- **Concatenation and relocation.**  Two texts that assemble and declare no label in common
are put into one, the second on a line of its own.  The new text assembles exactly when every
jump of the second still reaches its label.  Then its words are those of the first text and
those of the second, where the target of every jump has grown by the number of words of the
first and no other word has changed.  Otherwise the lowest jump that does not reach is out of
range, and the fault quotes the target it should have had. -/
theorem assemble_append_newline (a b : String) (as bs : List Word) (first second : List Statement)
    (ha : assemble a = .ok as) (hb : assemble b = .ok bs)
    (hfirst : (Token.scan a >>= Statement.read) = .ok first)
    (hsecond : (Token.scan b >>= Statement.read) = .ok second)
    (hdisjoint : ∀ name, .label name ∈ first → .label name ∉ second) :
    ((∃ ws, assemble (a ++ "\n" ++ b) = .ok ws) ↔ Statement.JumpsReach as.length second bs) ∧
      (Statement.JumpsReach as.length second bs →
        bs.length = (Statement.slots second).length ∧
          assemble (a ++ "\n" ++ b) =
            .ok (as ++ List.zipWith (Statement.relocate as.length) (Statement.slots second) bs) ∧
          ∀ (slot : Nat) (s : Statement) (w : Word), (Statement.slots second)[slot]? = some s →
            bs[slot]? = some w →
              ((∃ name, s = .jump name) →
                (s.relocate as.length w).opcode = w.opcode ∧
                  (s.relocate as.length w).target = w.target + as.length) ∧
              ((¬ ∃ name, s = .jump name) → s.relocate as.length w = w)) ∧
      (¬ Statement.JumpsReach as.length second bs →
        ∃ (slot : Nat) (name : String) (w : Word),
          (Statement.slots second)[slot]? = some (.jump name) ∧ bs[slot]? = some w ∧
          2 ^ 26 ≤ w.target + as.length ∧
          (∀ j < slot, ∀ (name' : String) (w' : Word),
            (Statement.slots second)[j]? = some (.jump name') → bs[j]? = some w' →
              w'.target + as.length < 2 ^ 26) ∧
          ∃ fault : Fault, fault = .targetOutOfRange ((w.target + as.length : Nat) : Int) ∧
            fault.kind = .range ∧ assemble (a ++ "\n" ++ b) = .error fault) := by
  rw [assemble_eq_words hfirst] at ha
  rw [assemble_eq_words hsecond] at hb
  rw [assemble_eq_words (read_scan_append_newline hfirst hsecond)]
  have hiff := Statement.exists_words_append_iff ha hb hdisjoint
  refine ⟨hiff, fun hreach => ⟨Statement.length_words hb, ?_, ?_⟩, fun hreach => ?_⟩
  · obtain ⟨ws, hws⟩ := hiff.mpr hreach
    rw [hws, Statement.words_append_eq ha hb hdisjoint hws]
  · intro slot s w hs hw
    refine ⟨?_, Statement.relocate_of_not_jump as.length w⟩
    rintro ⟨name, rfl⟩
    exact w.fields_withTarget (hreach slot name w hs hw)
  · rcases Outcome.ok_or_error
      (link (Statement.toItems (first ++ second)) >>= Item.packAll) with hok | ⟨fault, hfault⟩
    · exact absurd (hiff.mp hok) hreach
    · obtain ⟨slot, name, w, hs, hw, hlarge, rfl, hbelow⟩ :=
        Statement.words_append_eq_error ha hb hdisjoint hfault
      exact ⟨slot, name, w, hs, hw, hlarge, hbelow, _, rfl, rfl, hfault⟩

/-- Two loops in a row.  The first text ends within a comment; of the second, both jumps are
moved by three slots, and the branch and the byte of data stay as they are. -/
theorem assemble_append_newline_loops :
    let a := "x: addi $1, $0, 5\nbeq $1, $2, x\nj x # back, to x"
    let b := "y: beq $3, $4, z\nj y\n.dw 7\nz: j z"
    let as : List Word := [0x20000005, 0x1021fffe, 0x08000000]
    let bs : List Word := [0x10630002, 0x08000000, 0x07000000, 0x08000003]
    let first : List Statement :=
      [.label "x", .addi ⟨1, by decide⟩ ⟨0, by decide⟩ 5,
        .beq ⟨1, by decide⟩ ⟨2, by decide⟩ "x", .jump "x"]
    let second : List Statement :=
      [.label "y", .beq ⟨3, by decide⟩ ⟨4, by decide⟩ "z", .jump "y", .data 7, .label "z",
        .jump "z"]
    assemble a = .ok as ∧ assemble b = .ok bs ∧
      (Token.scan a >>= Statement.read) = .ok first ∧
      (Token.scan b >>= Statement.read) = .ok second ∧
      (∀ name, .label name ∈ first → .label name ∉ second) ∧
      Statement.JumpsReach as.length second bs ∧
      assemble (a ++ "\n" ++ b) =
        .ok (as ++ [0x10630002, 0x08000003, 0x07000000, 0x08000006]) := by
  intro a b as bs first second
  have ha : assemble a = .ok as := Outcome.eq_ok_of_toOption (by decide +kernel)
  have hb : assemble b = .ok bs := Outcome.eq_ok_of_toOption (by decide +kernel)
  have hfirst : (Token.scan a >>= Statement.read) = .ok first :=
    Outcome.eq_ok_of_toOption (by decide +kernel)
  have hsecond : (Token.scan b >>= Statement.read) = .ok second :=
    Outcome.eq_ok_of_toOption (by decide +kernel)
  have hdisjoint : ∀ name, .label name ∈ first → .label name ∉ second := by
    intro name hname hname'
    simp only [first, second, List.mem_cons, Statement.label.injEq, List.not_mem_nil, reduceCtorEq,
      or_false, false_or] at hname hname'
    subst hname
    exact absurd hname' (by decide)
  -- Deciding `∀ w ∈ bs` would go through all words, so the list is checked instead.
  have hsmall : (bs.all fun w => w.target + as.length < 2 ^ 26) = true := by decide +kernel
  have hreach : Statement.JumpsReach as.length second bs := by
    intro _ _ w _ hw
    exact of_decide_eq_true (List.all_eq_true.mp hsmall w (List.mem_of_getElem? hw))
  have hmoved : List.zipWith (Statement.relocate as.length) (Statement.slots second) bs =
      [0x10630002, 0x08000003, 0x07000000, 0x08000006] := by decide +kernel
  obtain ⟨-, hwords, -⟩ :=
    assemble_append_newline a b as bs first second ha hb hfirst hsecond hdisjoint
  refine ⟨ha, hb, hfirst, hsecond, hdisjoint, hreach, ?_⟩
  rw [← hmoved]
  exact (hwords hreach).2.1

end MipsAssembler
