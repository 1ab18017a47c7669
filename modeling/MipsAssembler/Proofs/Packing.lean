import Mathlib
import MipsAssembler.Proofs.Reading
import MipsAssembler.Proofs.SlotWords

/-!
# What the packer accepts, and the numbers it makes

The packer is handed items of any kind: operations with too few operands or too many, names
where numbers should be, spellings that no table has.  `Item.Packed w item` says for all of
them when the word is `w`, without the packer: which operands have to be there, which numbers
they have to be, and which number they give as a sum of fields.  Operands that are not
mentioned may be anything or missing, and so may all further ones.

`pack_eq_ok_iff` is the statement that the packer does this and nothing else.
-/

namespace MipsAssembler

/-! ## Reading one operand -/

theorem Literal.register?_eq_some_iff {n : Int} {r : Register} :
    register? n = some r ↔ n = (r.val : Int) := by
  constructor
  · intro h
    unfold register? at h
    split at h
    · rename_i hn
      rw [← Option.some.inj h]
      exact (Int.toNat_of_nonneg hn.1).symm
    · cases h
  · rintro rfl
    exact register?_natCast r

namespace Operand

variable {a : Operand}

theorem get_eq_ok_iff {args : List Operand} {k : Nat} :
    get args k = .ok a ↔ args[k]? = some a := by
  unfold get
  cases args[k]? with
  | none => simp
  | some b => simp

theorem toRegister_eq_ok_iff {r : Register} : a.toRegister = .ok r ↔ a = .ofRegister r := by
  constructor
  · intro h
    cases a with
    | number n =>
      rw [toRegister] at h
      split at h
      · rename_i r' hr'
        cases h
        rw [Literal.register?_eq_some_iff.mp hr', ofRegister]
      · cases h
    | _ => cases h
  · rintro rfl
    exact toRegister_ofRegister r

end Operand

/-- A step reads operands for a field: it takes the numbers that the field holds, and for all
other operands it has the faults of the field. -/
structure NumericField.ReadBy {n : Nat} (field : NumericField)
    (step : Operand → Except Fault (BitVec n)) : Prop where
  number : ∀ v, step (.number v) =
    if field.Holds v then .ok (BitVec.ofInt n v) else .error (field.overflow v)
  other : ∀ a, (∀ v, a ≠ .number v) → step a = .error (field.unresolved a)

namespace NumericField

theorem readBy_toImmediate : immediate.ReadBy Operand.toImmediate where
  number := Operand.toImmediate_number
  other a h := by
    cases a with
    | number v => exact absurd rfl (h v)
    | _ => rfl

theorem readBy_toTarget : target.ReadBy Operand.toTarget where
  number := Operand.toTarget_number
  other a h := by
    cases a with
    | number v => exact absurd rfl (h v)
    | _ => rfl

theorem readBy_toData : data.ReadBy Operand.toData where
  number := Operand.toData_number
  other a h := by
    cases a with
    | number v => exact absurd rfl (h v)
    | _ => rfl

theorem ReadBy.eq_ok_iff {n : Nat} {field : NumericField} {step : Operand → Except Fault (BitVec n)}
    (h : field.ReadBy step) {a : Operand} {bits : BitVec n} :
    step a = .ok bits ↔ ∃ v, a = .number v ∧ field.Holds v ∧ bits = BitVec.ofInt n v := by
  by_cases ha : ∀ v, a ≠ .number v
  · rw [h.other a ha]
    constructor
    · intro hok
      cases hok
    · rintro ⟨v, hv, -⟩
      exact absurd hv (ha v)
  · push Not at ha
    obtain ⟨v, rfl⟩ := ha
    rw [h.number]
    by_cases hv : field.Holds v <;> simp [hv, eq_comm]

end NumericField

/-! ## Words as sums of fields -/

namespace Word

variable {w : Word}

theorem eq_ofR_iff {rs rt rd : Register} {funct : BitVec FieldWidth.funct} :
    w = ofR rs rt rd funct ↔
      w.toNat = rs.val * 2 ^ 21 + rt.val * 2 ^ 16 + rd.val * 2 ^ 11 + funct.toNat := by
  rw [← toNat_ofR, BitVec.toNat_inj]

/-- The field of an immediate holds it modulo `2 ^ 16`. -/
theorem toNat_ofInt_immediate (v : Int) :
    ((BitVec.ofInt FieldWidth.immediate v).toNat : Int) = v % 2 ^ 16 := by
  rw [BitVec.toNat_ofInt]
  exact Int.toNat_of_nonneg (Int.emod_nonneg v (by decide))

theorem eq_ofI_iff {opcode : BitVec FieldWidth.opcode} {r : Register} {v : Int} :
    w = ofI opcode r r (BitVec.ofInt FieldWidth.immediate v) ↔
      (w.toNat : Int) =
        opcode.toNat * 2 ^ 26 + r.val * 2 ^ 21 + r.val * 2 ^ 16 + v % 2 ^ 16 := by
  rw [← BitVec.toNat_inj, toNat_ofI, ← toNat_ofInt_immediate]
  norm_cast

theorem eq_ofJ_iff {opcode : BitVec FieldWidth.opcode} {v : Int}
    (hv : NumericField.target.Holds v) :
    w = ofJ opcode (BitVec.ofInt FieldWidth.target v) ↔
      (w.toNat : Int) = opcode.toNat * 2 ^ 26 + v := by
  have hfield := toNat_ofInt_of_fitsUnsigned (NumericField.target_holds_iff.mp hv)
  rw [← BitVec.toNat_inj, toNat_ofJ]
  conv_rhs => rw [← hfield]
  norm_cast

theorem eq_ofData_iff {v : Int} (hv : NumericField.data.Holds v) :
    w = ofData (BitVec.ofInt FieldWidth.data v) ↔ (w.toNat : Int) = v * 2 ^ 24 := by
  have hfield := toNat_ofInt_of_fitsUnsigned (NumericField.data_holds_iff.mp hv)
  rw [← BitVec.toNat_inj, toNat_ofData]
  conv_rhs => rw [← hfield]
  norm_cast

end Word

namespace Item

variable {w : Word} {args : List Operand}

/-! ## The formats -/

theorem packR_eq_ok_iff {funct : BitVec FieldWidth.funct} :
    packR args funct = .ok w ↔
      ∃ rd rs rt : Register, args[0]? = some (Operand.ofRegister rd) ∧
        args[1]? = some (Operand.ofRegister rs) ∧ args[2]? = some (Operand.ofRegister rt) ∧
        w = Word.ofR rs rt rd funct := by
  constructor
  · intro h
    obtain ⟨a, ha, h⟩ := Outcome.bind_eq_ok_iff.mp h
    obtain ⟨rs, hrs, h⟩ := Outcome.bind_eq_ok_iff.mp h
    obtain ⟨b, hb, h⟩ := Outcome.bind_eq_ok_iff.mp h
    obtain ⟨rt, hrt, h⟩ := Outcome.bind_eq_ok_iff.mp h
    obtain ⟨c, hc, h⟩ := Outcome.bind_eq_ok_iff.mp h
    obtain ⟨rd, hrd, h⟩ := Outcome.bind_eq_ok_iff.mp h
    cases h
    rw [Operand.get_eq_ok_iff] at ha hb hc
    rw [Operand.toRegister_eq_ok_iff] at hrs hrt hrd
    exact ⟨rd, rs, rt, hrd ▸ hc, hrs ▸ ha, hrt ▸ hb, rfl⟩
  · rintro ⟨rd, rs, rt, h0, h1, h2, rfl⟩
    simp only [packR, Operand.get_eq_ok_iff.mpr h0, Operand.get_eq_ok_iff.mpr h1,
      Operand.get_eq_ok_iff.mpr h2, Operand.toRegister_ofRegister, Outcome.ok_bind]
    rfl

theorem packI_eq_ok_iff {opcode : BitVec FieldWidth.opcode} :
    packI args opcode = .ok w ↔
      ∃ (r : Register) (v : Int), args[1]? = some (Operand.ofRegister r) ∧
        args[2]? = some (Operand.number v) ∧ NumericField.immediate.Holds v ∧
        w = Word.ofI opcode r r (BitVec.ofInt _ v) := by
  constructor
  · intro h
    obtain ⟨a, ha, h⟩ := Outcome.bind_eq_ok_iff.mp h
    obtain ⟨r, hr, h⟩ := Outcome.bind_eq_ok_iff.mp h
    obtain ⟨b, hb, h⟩ := Outcome.bind_eq_ok_iff.mp h
    obtain ⟨field, hfield, h⟩ := Outcome.bind_eq_ok_iff.mp h
    cases h
    rw [Operand.get_eq_ok_iff] at ha hb
    rw [Operand.toRegister_eq_ok_iff] at hr
    obtain ⟨v, rfl, hv, rfl⟩ := NumericField.readBy_toImmediate.eq_ok_iff.mp hfield
    exact ⟨r, v, hr ▸ ha, hb, hv, rfl⟩
  · rintro ⟨r, v, h1, h2, hv, rfl⟩
    have himmediate := NumericField.readBy_toImmediate.eq_ok_iff.mpr ⟨v, rfl, hv, rfl⟩
    simp only [packI, Operand.get_eq_ok_iff.mpr h1, Operand.get_eq_ok_iff.mpr h2,
      Operand.toRegister_ofRegister, himmediate, Outcome.ok_bind]
    rfl

theorem packJ_eq_ok_iff {opcode : BitVec FieldWidth.opcode} :
    packJ args opcode = .ok w ↔
      ∃ v : Int, args[0]? = some (Operand.number v) ∧ NumericField.target.Holds v ∧
        w = Word.ofJ opcode (BitVec.ofInt _ v) := by
  constructor
  · intro h
    obtain ⟨a, ha, h⟩ := Outcome.bind_eq_ok_iff.mp h
    obtain ⟨field, hfield, h⟩ := Outcome.bind_eq_ok_iff.mp h
    cases h
    rw [Operand.get_eq_ok_iff] at ha
    obtain ⟨v, rfl, hv, rfl⟩ := NumericField.readBy_toTarget.eq_ok_iff.mp hfield
    exact ⟨v, ha, hv, rfl⟩
  · rintro ⟨v, h0, hv, rfl⟩
    simp only [packJ, Operand.get_eq_ok_iff.mpr h0,
      NumericField.readBy_toTarget.eq_ok_iff.mpr ⟨v, rfl, hv, rfl⟩, Outcome.ok_bind]
    rfl

theorem packData_eq_ok_iff :
    packData args = .ok w ↔
      ∃ v : Int, args[0]? = some (Operand.number v) ∧ NumericField.data.Holds v ∧
        w = Word.ofData (BitVec.ofInt _ v) := by
  constructor
  · intro h
    obtain ⟨a, ha, h⟩ := Outcome.bind_eq_ok_iff.mp h
    obtain ⟨field, hfield, h⟩ := Outcome.bind_eq_ok_iff.mp h
    cases h
    rw [Operand.get_eq_ok_iff] at ha
    obtain ⟨v, rfl, hv, rfl⟩ := NumericField.readBy_toData.eq_ok_iff.mp hfield
    exact ⟨v, ha, hv, rfl⟩
  · rintro ⟨v, h0, hv, rfl⟩
    simp only [packData, Operand.get_eq_ok_iff.mpr h0,
      NumericField.readBy_toData.eq_ok_iff.mpr ⟨v, rfl, hv, rfl⟩, Outcome.ok_bind]
    rfl

theorem packDirective_eq_ok_iff {name : String} :
    packDirective name args = .ok w ↔ name = dataDirective ∧ packData args = .ok w := by
  by_cases hname : name = dataDirective
  · simp [packDirective, hname]
  · simp [packDirective, hname]

/-! ## The packer -/

/-- The word `w` belongs to an item: the operands that are needed are there, are numbers that
fit, and add up to the number of `w`. -/
inductive Packed (w : Word) : Item → Prop
  | data {args : List Operand} {v : Int} (h0 : args[0]? = some (Operand.number v))
      (hv : 0 ≤ v ∧ v < 2 ^ 8) (hw : (w.toNat : Int) = v * 2 ^ 24) :
      Packed w (.directive ".dw" args)
  | arith (op : Arithmetic) {args : List Operand} {rd rs rt : Register}
      (h0 : args[0]? = some (Operand.ofRegister rd)) (h1 : args[1]? = some (Operand.ofRegister rs))
      (h2 : args[2]? = some (Operand.ofRegister rt))
      (hw : w.toNat = rs.val * 2 ^ 21 + rt.val * 2 ^ 16 + rd.val * 2 ^ 11 + op.funct.toNat) :
      Packed w (.operation op.name args)
  | immediate (m : Mnemonic) (hm : m.spec.format = .I) {args : List Operand} {r : Register}
      {v : Int} (h1 : args[1]? = some (Operand.ofRegister r))
      (h2 : args[2]? = some (Operand.number v)) (hv : -2 ^ 15 ≤ v ∧ v < 2 ^ 15)
      (hw : (w.toNat : Int) =
        m.spec.opcode.toNat * 2 ^ 26 + r.val * 2 ^ 21 + r.val * 2 ^ 16 + v % 2 ^ 16) :
      Packed w (.operation m.name args)
  | jump {args : List Operand} {v : Int} (h0 : args[0]? = some (Operand.number v))
      (hv : 0 ≤ v ∧ v < 2 ^ 26) (hw : (w.toNat : Int) = 2 * 2 ^ 26 + v) :
      Packed w (.operation "j" args)

/-- The packer of an operation by the format of its instruction. -/
theorem packOperation_name (m : Mnemonic) :
    packOperation m.name args =
      match m.spec.format with
      | .R => packR args m.spec.funct
      | .I => packI args m.spec.opcode
      | .J => packJ args m.spec.opcode := by
  rewrite [packOperation, Mnemonic.ofName?_name]
  rfl

theorem opcode_j : ((Mnemonic.j.spec.opcode.toNat : Nat) : Int) = 2 := rfl

/-- **An item is packed to a word exactly when the word belongs to it.** -/
theorem pack_eq_ok_iff {item : Item} : item.pack = .ok w ↔ Packed w item := by
  constructor
  · intro h
    cases item with
    | label name => cases h
    | foreign value => cases h
    | directive name args =>
      obtain ⟨rfl, h⟩ := packDirective_eq_ok_iff.mp h
      obtain ⟨v, h0, hv, hw⟩ := packData_eq_ok_iff.mp h
      exact .data h0 hv ((Word.eq_ofData_iff hv).mp hw)
    | operation name args =>
      cases hname : Mnemonic.ofName? name with
      | none =>
        rw [pack, packOperation, hname] at h
        cases h
      | some m =>
        obtain rfl := Mnemonic.eq_name_of_ofName? hname
        rw [pack, packOperation_name] at h
        cases m with
        | arith op =>
          obtain ⟨rd, rs, rt, h0, h1, h2, hw⟩ := packR_eq_ok_iff.mp h
          exact .arith op h0 h1 h2 (Word.eq_ofR_iff.mp hw)
        | j =>
          obtain ⟨v, h0, hv, hw⟩ := packJ_eq_ok_iff.mp h
          have hnumber := (Word.eq_ofJ_iff hv).mp hw
          rw [opcode_j] at hnumber
          exact .jump h0 hv hnumber
        | addi | beq | access _ =>
          obtain ⟨r, v, h1, h2, hv, hw⟩ := packI_eq_ok_iff.mp h
          exact .immediate _ rfl h1 h2 hv (Word.eq_ofI_iff.mp hw)
  · intro h
    cases h with
    | data h0 hv hw =>
      refine packDirective_eq_ok_iff.mpr ⟨rfl, ?_⟩
      exact packData_eq_ok_iff.mpr ⟨_, h0, hv, (Word.eq_ofData_iff hv).mpr hw⟩
    | arith op h0 h1 h2 hw =>
      refine (packOperation_name (.arith op)).trans ?_
      exact packR_eq_ok_iff.mpr ⟨_, _, _, h0, h1, h2, Word.eq_ofR_iff.mpr hw⟩
    | immediate m hm h1 h2 hv hw =>
      refine (packOperation_name m).trans ?_
      rw [hm]
      exact packI_eq_ok_iff.mpr ⟨_, _, h1, h2, hv, Word.eq_ofI_iff.mpr hw⟩
    | jump h0 hv hw =>
      refine (packOperation_name .j).trans ?_
      rw [← opcode_j] at hw
      exact packJ_eq_ok_iff.mpr ⟨_, h0, hv, (Word.eq_ofJ_iff hv).mpr hw⟩

end Item
end MipsAssembler
