import Mathlib
import MipsAssembler.Packing
import MipsAssembler.Proofs.Literals
import MipsAssembler.Proofs.References
import MipsAssembler.Proofs.Word.Fields

/-!
# The word of a statement in its slot

What a word has to say about the statement it was made from is stated here without
the packer, in terms of the fields that a reader finds in it:

* `Statement.Encodes items slot s w`: the fields of `w` are those of `s`, where a
  branch says how far its label is from the slot behind it and a jump says where its
  label stands;
* `Statement.Demands items slot s field v`: the word of `s` has to hold the number
  `v` in one of its numeric fields.  Every statement that takes a slot demands at
  most one number, and an arithmetic operation none.

The main statement, `outcomes_of_resolveItem`, is that resolving and packing one statement
leaves two possibilities: its word encodes it and every number it demands fits, or
some number that it demands does not fit, and then the fault quotes that number.
-/

namespace MipsAssembler

/-! ## Fields that hold a number -/

/-- The fields of a word whose contents can be out of range. -/
inductive NumericField where
  | immediate | target | data
  deriving DecidableEq, Repr

namespace NumericField

/-- The numbers that a field can hold. -/
def Holds : NumericField → Int → Prop
  | immediate, v => -2 ^ 15 ≤ v ∧ v < 2 ^ 15
  | target, v => 0 ≤ v ∧ v < 2 ^ 26
  | data, v => 0 ≤ v ∧ v < 2 ^ 8

/-- The fault for a number that a field cannot hold.  For a byte of data, a negative
number is told apart from one that is too large. -/
def overflow : NumericField → Int → Fault
  | immediate, v => .immediateOutOfRange v
  | target, v => .targetOutOfRange v
  | data, v => if v < 0 then .negativeData v else .dataTooLarge v

/-- The fault for an operand that is no number.  A byte of data is compared and not resolved,
so there it is the type of the operand that is at fault. -/
def unresolved : NumericField → Operand → Fault
  | immediate, a => .unresolvedImmediate a
  | target, a => .unresolvedTarget a
  | data, a => .incomparableData a.typeName

theorem kind_overflow (field : NumericField) (v : Int) : (field.overflow v).kind = .range := by
  cases field with
  | immediate => rfl
  | target => rfl
  | data =>
    rw [overflow]
    split <;> rfl

theorem immediate_holds_iff {v : Int} :
    immediate.Holds v ↔ Bits.fitsSigned v FieldWidth.immediate = true := by
  rw [Bits.fitsSigned_iff]
  exact Iff.rfl

theorem target_holds_iff {v : Int} :
    target.Holds v ↔ Bits.fitsUnsigned v FieldWidth.target = true := by
  rw [Bits.fitsUnsigned_iff]
  exact Iff.rfl

theorem data_holds_iff {v : Int} :
    data.Holds v ↔ Bits.fitsUnsigned v FieldWidth.data = true := by
  rw [Bits.fitsUnsigned_iff]
  exact Iff.rfl

instance decidableHolds (field : NumericField) (v : Int) : Decidable (field.Holds v) :=
  match field with
  | immediate => inferInstanceAs (Decidable (_ ∧ _))
  | target => inferInstanceAs (Decidable (_ ∧ _))
  | data => inferInstanceAs (Decidable (_ ∧ _))

end NumericField

namespace Statement

/-- In the program `items`, the word of a statement in slot `slot` has to hold a
number in one of its fields. -/
inductive Demands (items : List Item) (slot : Nat) : Statement → NumericField → Int → Prop
  | data (v : Int) : Demands items slot (.data v) .data v
  | addi (rd rs : Register) (v : Int) : Demands items slot (.addi rd rs v) .immediate v
  | access (op : Access) (rd base : Register) (v : Int) :
      Demands items slot (.access op rd base v) .immediate v
  | beq (first second : Register) {name : String} {t : Nat} (h : Item.Marks items name t) :
      Demands items slot (.beq first second name) .immediate ((t : Int) - slot - 1)
  | jump {name : String} {t : Nat} (h : Item.Marks items name t) :
      Demands items slot (.jump name) .target t

/-- In the program `items`, a word is the one of a statement in slot `slot`: field by
field, as a reader of the word finds them. -/
def Encodes (items : List Item) (slot : Nat) : Statement → Word → Prop
  | label _, _ => False
  | data v, w => (w.byte : Int) = v ∧ w.padding = 0
  | arith op rd rs rt, w =>
    w.opcode = 0 ∧ w.rs = rs.val ∧ w.rt = rt.val ∧ w.rd = rd.val ∧ w.shamt = 0 ∧
      w.funct = op.funct.toNat
  | addi _ r v, w =>
    w.opcode = Mnemonic.addi.spec.opcode.toNat ∧ w.rs = r.val ∧ w.rt = r.val ∧
      Bits.signExtend w.immediate 16 = v
  | access op _ r v, w =>
    w.opcode = op.opcode.toNat ∧ w.rs = r.val ∧ w.rt = r.val ∧ Bits.signExtend w.immediate 16 = v
  | beq first _ name, w =>
    w.opcode = 4 ∧ w.rs = first.val ∧ w.rt = first.val ∧ (Item.labels items).count name = 1 ∧
      ∃ t, Item.Marks items name t ∧ (slot : Int) + 1 + Bits.signExtend w.immediate 16 = t
  | jump name, w =>
    w.opcode = 2 ∧ (Item.labels items).count name = 1 ∧ Item.Marks items name w.target

end Statement

/-! ## Packing operands that are in order -/

namespace Operand

theorem toRegister_ofRegister (r : Register) : (ofRegister r).toRegister = .ok r := by
  rw [ofRegister, toRegister, Literal.register?_natCast]

theorem toImmediate_number (v : Int) :
    (number v).toImmediate =
      if NumericField.immediate.Holds v then .ok (BitVec.ofInt FieldWidth.immediate v)
      else .error (NumericField.immediate.overflow v) := by
  rw [toImmediate]
  simp only [NumericField.immediate_holds_iff]
  rfl

theorem toTarget_number (v : Int) :
    (number v).toTarget =
      if NumericField.target.Holds v then .ok (BitVec.ofInt FieldWidth.target v)
      else .error (NumericField.target.overflow v) := by
  rw [toTarget]
  simp only [NumericField.target_holds_iff]
  rfl

/-- A byte of data is compared with zero first, which makes no difference if it fits. -/
theorem toData_number (v : Int) :
    (number v).toData =
      if NumericField.data.Holds v then .ok (BitVec.ofInt FieldWidth.data v)
      else .error (NumericField.data.overflow v) := by
  rw [toData]
  by_cases h : NumericField.data.Holds v
  · rw [if_pos h, if_neg (not_lt.mpr h.1), if_pos (NumericField.data_holds_iff.mp h)]
  · rw [if_neg h, if_neg (fun hfits => h (NumericField.data_holds_iff.mpr hfits)),
      NumericField.overflow]
    split <;> rfl

end Operand

namespace Item

theorem packR_registers (rd rs rt : Register) (funct : BitVec FieldWidth.funct) :
    packR [.ofRegister rd, .ofRegister rs, .ofRegister rt] funct = .ok (Word.ofR rs rt rd funct) := by
  change ((Operand.ofRegister rs).toRegister >>= fun a =>
    (Operand.ofRegister rt).toRegister >>= fun b =>
      (Operand.ofRegister rd).toRegister >>= fun c => pure (Word.ofR a b c funct)) = _
  rw [Operand.toRegister_ofRegister, Operand.toRegister_ofRegister, Operand.toRegister_ofRegister]
  rfl

/-- An immediate is packed behind two copies of the register, if it fits. -/
theorem packI_number (unused : Operand) (r : Register) (v : Int)
    (opcode : BitVec FieldWidth.opcode) :
    packI [unused, .ofRegister r, .number v] opcode =
      if NumericField.immediate.Holds v then
        .ok (Word.ofI opcode r r (BitVec.ofInt FieldWidth.immediate v))
      else .error (NumericField.immediate.overflow v) := by
  change ((Operand.ofRegister r).toRegister >>= fun a =>
    (Operand.number v).toImmediate >>= fun i => pure (Word.ofI opcode a a i)) = _
  rw [Operand.toRegister_ofRegister, Outcome.ok_bind, Operand.toImmediate_number]
  split <;> rfl

/-- A jump target is packed if it fits. -/
theorem packJ_number (v : Int) (opcode : BitVec FieldWidth.opcode) :
    packJ [.number v] opcode =
      if NumericField.target.Holds v then
        .ok (Word.ofJ opcode (BitVec.ofInt FieldWidth.target v))
      else .error (NumericField.target.overflow v) := by
  change ((Operand.number v).toTarget >>= fun t => pure (Word.ofJ opcode t)) = _
  rw [Operand.toTarget_number]
  split <;> rfl

/-- A byte of data is packed if it fits. -/
theorem packData_number (v : Int) :
    packData [.number v] =
      if NumericField.data.Holds v then .ok (Word.ofData (BitVec.ofInt FieldWidth.data v))
      else .error (NumericField.data.overflow v) := by
  change ((Operand.number v).toData >>= fun byte => pure (Word.ofData byte)) = _
  rw [Operand.toData_number]
  split <;> rfl

end Item

/-! ## The two outcomes for a statement in its slot -/

namespace Statement

variable {items : List Item} {slot : Nat}

/-- The fields of a word with an immediate that fits. -/
theorem fields_packed_immediate (opcode : BitVec FieldWidth.opcode) (r : Register) {v : Int}
    (h : NumericField.immediate.Holds v) :
    (Word.ofI opcode r r (BitVec.ofInt FieldWidth.immediate v)).opcode = opcode.toNat ∧
      (Word.ofI opcode r r (BitVec.ofInt FieldWidth.immediate v)).rs = r.val ∧
      (Word.ofI opcode r r (BitVec.ofInt FieldWidth.immediate v)).rt = r.val ∧
      Bits.signExtend (Word.ofI opcode r r (BitVec.ofInt FieldWidth.immediate v)).immediate 16 = v := by
  obtain ⟨hopcode, hrs, hrt, himmediate⟩ :=
    Word.fields_ofI opcode r r (BitVec.ofInt FieldWidth.immediate v)
  refine ⟨hopcode, hrs, hrt, ?_⟩
  rw [himmediate]
  exact Word.signExtend_toNat_ofInt (n := 15) (NumericField.immediate_holds_iff.mp h)

/-- The two outcomes at a slot: the word encodes the statement and every number that
the statement demands fits, or the one that it demands does not fit and is quoted. -/
def Outcomes (items : List Item) (slot : Nat) (s : Statement) (packed : Except Fault Word) : Prop :=
  (∃ w, packed = .ok w ∧ s.Encodes items slot w ∧
      ∀ field v, s.Demands items slot field v → field.Holds v) ∨
    ∃ field v, s.Demands items slot field v ∧
      (∀ field' v', s.Demands items slot field' v' → field' = field ∧ v' = v) ∧
      ¬ field.Holds v ∧ packed = .error (field.overflow v)

/-- A statement that demands one number has the outcomes of packing that number. -/
theorem outcomes_of_demands {s : Statement} {field : NumericField} {v : Int} {w : Word}
    (hdemands : s.Demands items slot field v)
    (honly : ∀ field' v', s.Demands items slot field' v' → field' = field ∧ v' = v)
    (hencodes : field.Holds v → s.Encodes items slot w) :
    Outcomes items slot s (if field.Holds v then .ok w else .error (field.overflow v)) := by
  by_cases h : field.Holds v
  · rw [if_pos h]
    refine Or.inl ⟨w, rfl, hencodes h, fun field' v' hdemands' => ?_⟩
    obtain ⟨rfl, rfl⟩ := honly field' v' hdemands'
    exact h
  · rw [if_neg h]
    exact Or.inr ⟨field, v, hdemands, honly, h, rfl⟩

theorem Outcomes.encodes {s : Statement} {packed : Except Fault Word} {w : Word}
    (h : Outcomes items slot s packed) (hw : packed = .ok w) : s.Encodes items slot w := by
  rcases h with ⟨w', hw', hencodes, -⟩ | ⟨field, v, -, -, -, herror⟩
  · rw [hw'] at hw
    cases hw
    exact hencodes
  · rw [herror] at hw
    cases hw

theorem Outcomes.exists_ok_iff {s : Statement} {packed : Except Fault Word}
    (h : Outcomes items slot s packed) :
    (∃ w, packed = .ok w) ↔ ∀ field v, s.Demands items slot field v → field.Holds v := by
  rcases h with ⟨w, hw, -, hholds⟩ | ⟨field, v, hdemands, -, hholds, herror⟩
  · exact ⟨fun _ => hholds, fun _ => ⟨w, hw⟩⟩
  · constructor
    · rintro ⟨w, hw⟩
      rw [herror] at hw
      cases hw
    · exact fun hall => absurd (hall field v hdemands) hholds

theorem Outcomes.eq_error_iff {s : Statement} {packed : Except Fault Word} {fault : Fault}
    (h : Outcomes items slot s packed) :
    packed = .error fault ↔
      ∃ field v, s.Demands items slot field v ∧ ¬ field.Holds v ∧ fault = field.overflow v := by
  rcases h with ⟨w, hw, -, hholds⟩ | ⟨field, v, hdemands, honly, hholds, herror⟩
  · rw [hw]
    constructor
    · intro h
      cases h
    · rintro ⟨field, v, hdemands, hnot, -⟩
      exact absurd (hholds field v hdemands) hnot
  · rw [herror]
    constructor
    · intro h
      cases h
      exact ⟨field, v, hdemands, hholds, rfl⟩
    · rintro ⟨field', v', hdemands', -, rfl⟩
      obtain ⟨rfl, rfl⟩ := honly field' v' hdemands'
      rfl

theorem outcomes_data (v : Int) : Outcomes items slot (.data v) (data v).toItem.pack := by
  change Outcomes items slot (.data v) (Item.packData [.number v])
  rw [Item.packData_number]
  refine outcomes_of_demands (.data v) (fun field' v' h => ?_) fun h => ?_
  · cases h
    exact ⟨rfl, rfl⟩
  · obtain ⟨hbyte, hpadding⟩ := Word.fields_ofData (BitVec.ofInt FieldWidth.data v)
    refine ⟨?_, hpadding⟩
    rw [hbyte]
    exact Word.toNat_ofInt_of_fitsUnsigned (NumericField.data_holds_iff.mp h)

theorem outcomes_arith (op : Arithmetic) (rd rs rt : Register) :
    Outcomes items slot (.arith op rd rs rt) (arith op rd rs rt).toItem.pack := by
  have hpack : (arith op rd rs rt).toItem.pack = .ok (Word.ofR rs rt rd op.funct) := by
    cases op <;> exact Item.packR_registers rd rs rt _
  rw [hpack]
  refine Or.inl ⟨_, rfl, Word.fields_ofR rs rt rd op.funct, fun field v h => ?_⟩
  cases h

theorem outcomes_addi (rd rs : Register) (v : Int) :
    Outcomes items slot (.addi rd rs v) (addi rd rs v).toItem.pack := by
  change Outcomes items slot (.addi rd rs v)
    (Item.packI [.ofRegister rd, .ofRegister rs, .number v] Mnemonic.addi.spec.opcode)
  rw [Item.packI_number]
  refine outcomes_of_demands (.addi rd rs v) (fun field' v' h => ?_) fun h => ?_
  · cases h
    exact ⟨rfl, rfl⟩
  · exact fields_packed_immediate Mnemonic.addi.spec.opcode rs h

theorem outcomes_access (op : Access) (rd base : Register) (v : Int) :
    Outcomes items slot (.access op rd base v) (access op rd base v).toItem.pack := by
  have hpack : (access op rd base v).toItem.pack =
      Item.packI [.ofRegister rd, .ofRegister base, .number v] op.opcode := by
    cases op <;> rfl
  rw [hpack, Item.packI_number]
  refine outcomes_of_demands (.access op rd base v) (fun field' v' h => ?_) fun h => ?_
  · cases h
    exact ⟨rfl, rfl⟩
  · exact fields_packed_immediate op.opcode base h

/-- A branch to a label that marks slot `t`. -/
theorem outcomes_beq (first second : Register) {name : String} {t : Nat}
    (hmarks : Item.Marks items name t) (hunique : ∀ t', Item.Marks items name t' → t' = t)
    (hcount : (Item.labels items).count name = 1) :
    Outcomes items slot (.beq first second name)
      (Item.operation Mnemonic.beq.name
        [.ofRegister second, .ofRegister first, .number ((t : Int) - slot - 1)]).pack := by
  change Outcomes items slot (.beq first second name)
    (Item.packI [.ofRegister second, .ofRegister first, .number ((t : Int) - slot - 1)]
      Mnemonic.beq.spec.opcode)
  rw [Item.packI_number]
  refine outcomes_of_demands (.beq first second hmarks) (fun field' v' h => ?_) fun h => ?_
  · cases h with
    | beq _ _ hmarks' => exact ⟨rfl, by rw [hunique _ hmarks']⟩
  · obtain ⟨hopcode, hrs, hrt, hdistance⟩ :=
      fields_packed_immediate Mnemonic.beq.spec.opcode first h
    refine ⟨hopcode, hrs, hrt, hcount, t, hmarks, ?_⟩
    rw [hdistance]
    omega

/-- A jump to a label that marks slot `t`. -/
theorem outcomes_jump {name : String} {t : Nat} (hmarks : Item.Marks items name t)
    (hunique : ∀ t', Item.Marks items name t' → t' = t)
    (hcount : (Item.labels items).count name = 1) :
    Outcomes items slot (.jump name) (Item.operation Mnemonic.j.name [.number (t : Int)]).pack := by
  change Outcomes items slot (.jump name)
    (Item.packJ [.number (t : Int)] Mnemonic.j.spec.opcode)
  rw [Item.packJ_number]
  refine outcomes_of_demands (.jump hmarks) (fun field' v' h => ?_) fun h => ?_
  · cases h with
    | jump hmarks' => exact ⟨rfl, by rw [hunique _ hmarks']⟩
  · obtain ⟨hopcode, htarget⟩ :=
      Word.fields_ofJ Mnemonic.j.spec.opcode (BitVec.ofInt FieldWidth.target t)
    have hfits := Word.toNat_ofInt_of_fitsUnsigned (NumericField.target_holds_iff.mp h)
    have hsame : (Word.ofJ Mnemonic.j.spec.opcode (BitVec.ofInt FieldWidth.target t)).target = t := by
      rw [htarget]
      exact_mod_cast hfits
    refine ⟨hopcode, hcount, ?_⟩
    rw [hsame]
    exact hmarks

/-- Resolving and packing one statement gives the word that encodes it, if every number
that it demands fits, and otherwise quotes one that does not. -/
theorem outcomes_of_resolveItem {l : Layout} (hl : l.Describes items) {s : Statement} {item : Item}
    (hs : s.toItem.occupiesSlot = true) (hitem : l.table.resolveItem slot s.toItem = .ok item) :
    Outcomes items slot s item.pack := by
  have hcontains := LabelTable.exists_resolveItem_iff.mp ⟨item, hitem⟩
  cases hreference : s.reference? with
  | none =>
    rw [LabelTable.resolveItem_of_reference?_eq_none l.table slot hreference] at hitem
    cases hitem
    cases s with
    | label name => exact absurd hs (by simp [toItem, Item.occupiesSlot])
    | data v => exact outcomes_data v
    | arith op rd rs rt => exact outcomes_arith op rd rs rt
    | addi rd rs v => exact outcomes_addi rd rs v
    | access op rd base v => exact outcomes_access op rd base v
    | beq first second name => exact absurd hreference (by simp [reference?])
    | jump name => exact absurd hreference (by simp [reference?])
  | some name =>
    obtain ⟨t, hfind, hmarks, hunique, hcount⟩ :=
      hl.exists_marks_of_contains (hcontains name hreference)
    cases s with
    | beq first second target =>
      cases hreference
      rw [LabelTable.resolveItem_beq l.table slot first second name hfind] at hitem
      cases hitem
      exact outcomes_beq first second hmarks hunique hcount
    | jump target =>
      cases hreference
      rw [LabelTable.resolveItem_jump l.table slot name hfind] at hitem
      cases hitem
      exact outcomes_jump hmarks hunique hcount
    | _ => exact absurd hreference (by simp [reference?])

end Statement
end MipsAssembler
