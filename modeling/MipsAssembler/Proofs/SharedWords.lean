import Mathlib
import MipsAssembler.Proofs.Grammar
import MipsAssembler.Proofs.Packing
import MipsAssembler.Proofs.WordText

/-!
# Items with the same word

A word does not say everything about the item it was made from.  An instruction with an
immediate puts one register into both register fields, so its first operand is lost; and a
byte of data can look like an instruction.  Nothing else is lost.  The relation `SameWord`
lists the pairs of items that cannot be told apart, and `sameWord_of_packed` and
`eq_of_sameWord` show that the list is complete and correct.

Data and instructions meet only where the lower 24 bits of an instruction are zero.  That
excludes arithmetic, whose function code stands in the lowest bits, and it leaves an
instruction with an immediate only if the register and the immediate are zero.  A jump has
two bits of its target above these, so four bytes of data look like jumps.

The second half of the file reads a word instead of comparing two: it is the word of some
item exactly when its fields pass one of four tests.
-/

namespace MipsAssembler
namespace Item

/-- The instructions with an immediate and their opcodes. -/
def immediateOpcodes : List (String × Int) := [("addi", 8), ("beq", 4), ("lb", 32), ("sb", 40)]

/-- The word of a byte of data is also that of an instruction. -/
inductive DataAsInstruction : Item → Item → Prop
  | immediate {name : String} {opcode : Int} {rest args : List Operand}
      (hname : (name, opcode) ∈ immediateOpcodes) (h1 : args[1]? = some (Operand.number 0))
      (h2 : args[2]? = some (Operand.number 0)) :
      DataAsInstruction (.directive ".dw" (.number (4 * opcode) :: rest)) (.operation name args)
  | jump {target : Int} {rest args : List Operand}
      (h0 : args[0]? = some (Operand.number target)) (htarget : target % 2 ^ 24 = 0) :
      DataAsInstruction (.directive ".dw" (.number (8 + target / 2 ^ 24) :: rest))
        (.operation "j" args)

/-- Two items have the same word: the same operation on the operands that are packed, the
same byte of data, or a byte of data and an instruction that it looks like. -/
inductive SameWord : Item → Item → Prop
  | arith {name : String} {args args' : List Operand}
      (hname : name ∈ ["add", "sub", "and", "or", "slt"]) (h0 : args[0]? = args'[0]?)
      (h1 : args[1]? = args'[1]?) (h2 : args[2]? = args'[2]?) :
      SameWord (.operation name args) (.operation name args')
  | immediate {name : String} {opcode : Int} {args args' : List Operand}
      (hname : (name, opcode) ∈ immediateOpcodes) (h1 : args[1]? = args'[1]?)
      (h2 : args[2]? = args'[2]?) : SameWord (.operation name args) (.operation name args')
  | jump {args args' : List Operand} (h0 : args[0]? = args'[0]?) :
      SameWord (.operation "j" args) (.operation "j" args')
  | data {v : Int} {rest rest' : List Operand} :
      SameWord (.directive ".dw" (.number v :: rest)) (.directive ".dw" (.number v :: rest'))
  | dataInstruction {s t : Item} (h : DataAsInstruction s t) : SameWord s t
  | instructionData {s t : Item} (h : DataAsInstruction t s) : SameWord s t

/-! ## The instruction table -/

theorem mem_immediateOpcodes_iff {name : String} {opcode : Int} :
    (name, opcode) ∈ immediateOpcodes ↔ ∃ m : Mnemonic,
      m.spec.format = .I ∧ m.name = name ∧ (m.spec.opcode.toNat : Int) = opcode := by
  constructor
  · intro h
    simp only [immediateOpcodes, List.mem_cons, Prod.mk.injEq, List.not_mem_nil, or_false] at h
    rcases h with ⟨rfl, rfl⟩ | ⟨rfl, rfl⟩ | ⟨rfl, rfl⟩ | ⟨rfl, rfl⟩
    · exact ⟨.addi, rfl, rfl, rfl⟩
    · exact ⟨.beq, rfl, rfl, rfl⟩
    · exact ⟨.access .lb, rfl, rfl, rfl⟩
    · exact ⟨.access .sb, rfl, rfl, rfl⟩
  · rintro ⟨m, hm, rfl, rfl⟩
    have hall : ∀ m ∈ Mnemonic.all, m.spec.format = .I →
        (m.name, (m.spec.opcode.toNat : Int)) ∈ immediateOpcodes := by decide
    exact hall m m.mem_all hm

/-- Instructions with an immediate are told apart by their opcodes, which are not those of
the other formats. -/
theorem opcode_of_format_I {m : Mnemonic} (hm : m.spec.format = .I) :
    (m.spec.opcode.toNat = 4 ∨ m.spec.opcode.toNat = 8 ∨ m.spec.opcode.toNat = 32 ∨
      m.spec.opcode.toNat = 40) ∧
    ∀ m' : Mnemonic, m'.spec.format = .I → m'.spec.opcode.toNat = m.spec.opcode.toNat → m' = m := by
  have hall : ∀ m ∈ Mnemonic.all, m.spec.format = .I →
      (m.spec.opcode.toNat = 4 ∨ m.spec.opcode.toNat = 8 ∨ m.spec.opcode.toNat = 32 ∨
        m.spec.opcode.toNat = 40) ∧
      ∀ m' ∈ Mnemonic.all, m'.spec.format = .I →
        m'.spec.opcode.toNat = m.spec.opcode.toNat → m' = m := by decide
  obtain ⟨hopcode, hunique⟩ := hall m m.mem_all hm
  exact ⟨hopcode, fun m' => hunique m' m'.mem_all⟩

theorem funct_cases (op : Arithmetic) :
    (op.funct.toNat = 32 ∨ op.funct.toNat = 34 ∨ op.funct.toNat = 36 ∨ op.funct.toNat = 37 ∨
      op.funct.toNat = 42) ∧ ∀ op' : Arithmetic, op'.funct.toNat = op.funct.toNat → op' = op := by
  constructor
  · cases op <;> decide
  · intro op'
    cases op <;> cases op' <;> decide

/-! ## The fields of a packed word -/

section Fields

variable {w : Word} {r rs rt rd : Register} {v : Int}

theorem fields_of_arith {op : Arithmetic}
    (hw : w.toNat = rs.val * 2 ^ 21 + rt.val * 2 ^ 16 + rd.val * 2 ^ 11 + op.funct.toNat) :
    w.opcode = 0 ∧ w.rs = rs.val ∧ w.rt = rt.val ∧ w.rd = rd.val ∧ w.shamt = 0 ∧
      w.funct = op.funct.toNat := by
  rw [Word.eq_ofR_iff.mpr hw]
  exact Word.fields_ofR rs rt rd op.funct

theorem fields_of_immediate {opcode : BitVec FieldWidth.opcode}
    (hw : (w.toNat : Int) =
      opcode.toNat * 2 ^ 26 + r.val * 2 ^ 21 + r.val * 2 ^ 16 + v % 2 ^ 16) :
    w.opcode = opcode.toNat ∧ w.rs = r.val ∧ w.rt = r.val ∧ (w.immediate : Int) = v % 2 ^ 16 := by
  obtain ⟨hopcode, hrs, hrt, himmediate⟩ := Word.fields_ofI opcode r r (BitVec.ofInt _ v)
  rw [Word.eq_ofI_iff.mpr hw]
  refine ⟨hopcode, hrs, hrt, ?_⟩
  rw [himmediate, Word.toNat_ofInt_immediate]

theorem fields_of_jump (hv : 0 ≤ v ∧ v < 2 ^ 26) (hw : (w.toNat : Int) = 2 * 2 ^ 26 + v) :
    w.opcode = 2 ∧ (w.target : Int) = v := by
  simp only [Word.opcode, Word.target, Word.field]
  omega

theorem fields_of_data (hv : 0 ≤ v ∧ v < 2 ^ 8) (hw : (w.toNat : Int) = v * 2 ^ 24) :
    (w.byte : Int) = v ∧ w.padding = 0 := by
  simp only [Word.byte, Word.padding, Word.field]
  omega

end Fields

/-! ## Items that share a word are on the list -/

section Shared

variable {w : Word} {s t : Item}

theorem exists_eq_cons_of_getElem?_zero {args : List Operand} {a : Operand}
    (h : args[0]? = some a) : ∃ rest, args = a :: rest := by
  cases args with
  | nil => cases h
  | cons b rest => exact ⟨rest, by rw [Option.some.inj h]⟩

/-- What can share the word of a byte of data. -/
theorem sameWord_of_packed_data {v : Int} {args : List Operand}
    (h0 : args[0]? = some (Operand.number v)) (hw : (w.toNat : Int) = v * 2 ^ 24)
    (ht : Packed w t) : SameWord (.directive ".dw" args) t := by
  obtain ⟨rest, rfl⟩ := exists_eq_cons_of_getElem?_zero h0
  cases ht with
  | @data args' v' h0' hv' hw' =>
    obtain ⟨rest', rfl⟩ := exists_eq_cons_of_getElem?_zero h0'
    obtain rfl : v = v' := by omega
    exact .data
  | @arith op args rd rs rt h0 h1 h2 hw' =>
    -- the function code stands below the byte
    have hfunct := (funct_cases op).1
    omega
  | @immediate m hm args r v' h1 h2 hv' hw' =>
    have hr : r.val < 32 := r.isLt
    have hregister : r.val = 0 := by omega
    have himmediate : v' = 0 := by omega
    have hdata : v = 4 * m.spec.opcode.toNat := by omega
    rw [Operand.ofRegister, hregister] at h1
    rw [himmediate] at h2
    rw [hdata]
    exact .dataInstruction (.immediate (mem_immediateOpcodes_iff.mpr ⟨m, hm, rfl, rfl⟩) h1 h2)
  | @jump args v' h0 hv' hw' =>
    have hdata : v = 8 + v' / 2 ^ 24 := by omega
    rw [hdata]
    exact .dataInstruction (.jump h0 (by omega))

theorem SameWord.symm (h : SameWord s t) : SameWord t s := by
  cases h with
  | arith hname h0 h1 h2 => exact .arith hname h0.symm h1.symm h2.symm
  | immediate hname h1 h2 => exact .immediate hname h1.symm h2.symm
  | jump h0 => exact .jump h0.symm
  | data => exact .data
  | dataInstruction h => exact .instructionData h
  | instructionData h => exact .dataInstruction h

/-- Two items with one word are a pair on the list: either one of them is data, or they have
the same opcode and then the same fields. -/
theorem sameWord_of_packed (hs : Packed w s) (ht : Packed w t) : SameWord s t := by
  cases hs with
  | data h0 hv hw => exact sameWord_of_packed_data h0 hw ht
  | @arith op args rd rs rt h0 h1 h2 hw =>
    obtain ⟨hopcode, hrs, hrt, hrd, -, hfunct⟩ := fields_of_arith hw
    cases ht with
    | data h0' hv' hw' => exact (sameWord_of_packed_data h0' hw' (.arith op h0 h1 h2 hw)).symm
    | @arith op' args' rd' rs' rt' h0' h1' h2' hw' =>
      obtain ⟨-, hrs', hrt', hrd', -, hfunct'⟩ := fields_of_arith hw'
      obtain rfl : op' = op := (funct_cases op).2 op' (hfunct'.symm.trans hfunct)
      obtain rfl : rs = rs' := Fin.ext (hrs.symm.trans hrs')
      obtain rfl : rt = rt' := Fin.ext (hrt.symm.trans hrt')
      obtain rfl : rd = rd' := Fin.ext (hrd.symm.trans hrd')
      exact .arith (Arithmetic.mem_names_iff.mpr ⟨op', rfl⟩) (h0.trans h0'.symm)
        (h1.trans h1'.symm) (h2.trans h2'.symm)
    | immediate m' hm' _ _ _ hw' =>
      have hopcode' := (fields_of_immediate hw').1
      have hcases := (opcode_of_format_I hm').1
      omega
    | jump _ hv' hw' =>
      have hopcode' := (fields_of_jump hv' hw').1
      omega
  | @immediate m hm args r v h1 h2 hv hw =>
    obtain ⟨hopcode, hr, -, himmediate⟩ := fields_of_immediate hw
    have hcases := (opcode_of_format_I hm).1
    cases ht with
    | data h0' hv' hw' => exact (sameWord_of_packed_data h0' hw' (.immediate m hm h1 h2 hv hw)).symm
    | arith op' _ _ _ hw' =>
      have hopcode' := (fields_of_arith hw').1
      omega
    | @immediate m' hm' args' r' v' h1' h2' hv' hw' =>
      obtain ⟨hopcode', hr', -, himmediate'⟩ := fields_of_immediate hw'
      obtain rfl : m' = m := (opcode_of_format_I hm).2 m' hm' (hopcode'.symm.trans hopcode)
      obtain rfl : r = r' := Fin.ext (hr.symm.trans hr')
      obtain rfl : v = v' := by omega
      exact .immediate (mem_immediateOpcodes_iff.mpr ⟨m', hm, rfl, rfl⟩) (h1.trans h1'.symm)
        (h2.trans h2'.symm)
    | jump _ hv' hw' =>
      have hopcode' := (fields_of_jump hv' hw').1
      omega
  | @jump args v h0 hv hw =>
    obtain ⟨hopcode, htarget⟩ := fields_of_jump hv hw
    cases ht with
    | data h0' hv' hw' => exact (sameWord_of_packed_data h0' hw' (.jump h0 hv hw)).symm
    | arith op' _ _ _ hw' =>
      have hopcode' := (fields_of_arith hw').1
      omega
    | immediate m' hm' _ _ _ hw' =>
      have hopcode' := (fields_of_immediate hw').1
      have hcases := (opcode_of_format_I hm').1
      omega
    | @jump args' v' h0' hv' hw' =>
      obtain ⟨-, htarget'⟩ := fields_of_jump hv' hw'
      obtain rfl : v = v' := htarget.symm.trans htarget'
      exact .jump (h0.trans h0'.symm)

/-! ## Items on the list share their word -/

/-- Only the operands that a format reads matter. -/
theorem get_congr {args args' : List Operand} {k : Nat} (h : args[k]? = args'[k]?) :
    Operand.get args k = Operand.get args' k := by
  rw [Operand.get, Operand.get, h]

variable {w' : Word}

/-- A byte of data that looks like an instruction has its word. -/
theorem eq_of_dataAsInstruction (h : DataAsInstruction s t) (hs : s.pack = .ok w)
    (ht : t.pack = .ok w') : w = w' := by
  cases h with
  | @immediate name opcode rest args hname h1 h2 =>
    obtain ⟨m, hm, rfl, rfl⟩ := mem_immediateOpcodes_iff.mp hname
    cases pack_eq_ok_iff.mp hs with
    | data h0 hv hw =>
      cases h0
      have hzero : args[1]? = some (Operand.ofRegister ⟨0, by decide⟩) := h1
      have hsum : (w.toNat : Int) = m.spec.opcode.toNat * 2 ^ 26 := by
        rw [hw]
        ring
      have hpacked : Packed w (.operation m.name args) :=
        .immediate m hm hzero h2 (by decide) (by simp [hsum])
      rw [pack_eq_ok_iff.mpr hpacked] at ht
      exact Except.ok.inj ht
  | @jump target rest args h0 htarget =>
    cases pack_eq_ok_iff.mp hs with
    | data hdata hv hw =>
      cases hdata
      obtain ⟨v, h0', hv', hw'⟩ := packJ_eq_ok_iff.mp ((packOperation_name .j).symm.trans ht)
      cases h0.symm.trans h0'
      have hnumber := (Word.eq_ofJ_iff hv').mp hw'
      rw [opcode_j] at hnumber
      exact BitVec.eq_of_toNat_eq (by omega)

theorem eq_of_sameWord (h : SameWord s t) (hs : s.pack = .ok w) (ht : t.pack = .ok w') :
    w = w' := by
  -- in the first four cases the packer does the same for both items
  have hsame (hpack : s.pack = t.pack) : w = w' :=
    Except.ok.inj (hs.symm.trans (hpack.trans ht))
  cases h with
  | arith hname h0 h1 h2 =>
    obtain ⟨op, rfl⟩ := Arithmetic.mem_names_iff.mp hname
    refine hsame ((packOperation_name (.arith op)).trans ?_)
    refine Eq.trans ?_ (packOperation_name (.arith op)).symm
    simp only [Mnemonic.spec, packR, get_congr h0, get_congr h1, get_congr h2]
  | immediate hname h1 h2 =>
    obtain ⟨m, hm, rfl, -⟩ := mem_immediateOpcodes_iff.mp hname
    refine hsame ((packOperation_name m).trans ?_)
    refine Eq.trans ?_ (packOperation_name m).symm
    simp only [hm, packI, get_congr h1, get_congr h2]
  | jump h0 =>
    refine hsame ((packOperation_name .j).trans ?_)
    refine Eq.trans ?_ (packOperation_name .j).symm
    simp only [Mnemonic.spec, packJ, get_congr h0]
  | data => exact hsame rfl
  | dataInstruction h => exact eq_of_dataAsInstruction h hs ht
  | instructionData h => exact (eq_of_dataAsInstruction h ht hs).symm

end Shared

/-! ## The words of items -/

/-- A word that belongs to an item passes one of four tests on its fields. -/
theorem Packed.fields {w : Word} {s : Item} (h : Packed w s) :
    w.padding = 0 ∨ (w.opcode = 0 ∧ w.shamt = 0 ∧ w.funct ∈ [32, 34, 36, 37, 42]) ∨
      (w.opcode ∈ [4, 8, 32, 40] ∧ w.rs = w.rt) ∨ w.opcode = 2 := by
  cases h with
  | data h0 hv hw => exact Or.inl (fields_of_data hv hw).2
  | arith op h0 h1 h2 hw =>
    obtain ⟨hopcode, -, -, -, hshamt, hfunct⟩ := fields_of_arith hw
    have hcases := (funct_cases op).1
    rw [← hfunct] at hcases
    exact Or.inr (Or.inl ⟨hopcode, hshamt, by simpa using hcases⟩)
  | immediate m hm h1 h2 hv hw =>
    obtain ⟨hopcode, hrs, hrt, -⟩ := fields_of_immediate hw
    have hcases := (opcode_of_format_I hm).1
    rw [← hopcode] at hcases
    exact Or.inr (Or.inr (Or.inl ⟨by simpa using hcases, hrs.trans hrt.symm⟩))
  | jump h0 hv hw => exact Or.inr (Or.inr (Or.inr (fields_of_jump hv hw).1))

section Image

variable {w : Word}

theorem packed_of_padding (h : w.padding = 0) :
    Packed w (.directive ".dw" [.number w.byte]) := by
  have hbyte : w.byte < 2 ^ 8 := w.field_lt 24 8
  have hsum := w.toNat_eq_fieldsData
  rw [h, Nat.add_zero] at hsum
  exact .data rfl ⟨Int.natCast_nonneg _, by exact_mod_cast hbyte⟩ (by exact_mod_cast hsum)

theorem exists_packed_of_funct (hopcode : w.opcode = 0) (hshamt : w.shamt = 0)
    (hfunct : w.funct ∈ [32, 34, 36, 37, 42]) : ∃ s, Packed w s := by
  have hop : ∃ op : Arithmetic, op.funct.toNat = w.funct := by
    simp only [List.mem_cons, List.not_mem_nil, or_false] at hfunct
    rcases hfunct with h | h | h | h | h <;> rw [h]
    exacts [⟨.add, rfl⟩, ⟨.sub, rfl⟩, ⟨.and, rfl⟩, ⟨.or, rfl⟩, ⟨.slt, rfl⟩]
  obtain ⟨op, hop⟩ := hop
  let rd : Register := ⟨w.rd, w.field_lt 11 5⟩
  let rs : Register := ⟨w.rs, w.field_lt 21 5⟩
  let rt : Register := ⟨w.rt, w.field_lt 16 5⟩
  have hsum : w.toNat =
      rs.val * 2 ^ 21 + rt.val * 2 ^ 16 + rd.val * 2 ^ 11 + op.funct.toNat := by
    show w.toNat = w.rs * 2 ^ 21 + w.rt * 2 ^ 16 + w.rd * 2 ^ 11 + op.funct.toNat
    rw [w.toNat_eq_fieldsR, hopcode, hshamt, hop]
    omega
  exact ⟨_, @Packed.arith w op [.ofRegister rd, .ofRegister rs, .ofRegister rt] rd rs rt
    rfl rfl rfl hsum⟩

theorem exists_packed_of_registers (hopcode : w.opcode ∈ [4, 8, 32, 40])
    (hregisters : w.rs = w.rt) : ∃ s, Packed w s := by
  have hm : ∃ m : Mnemonic, m.spec.format = .I ∧ m.spec.opcode.toNat = w.opcode := by
    simp only [List.mem_cons, List.not_mem_nil, or_false] at hopcode
    rcases hopcode with h | h | h | h <;> rw [h]
    exacts [⟨.beq, rfl, rfl⟩, ⟨.addi, rfl, rfl⟩, ⟨.access .lb, rfl, rfl⟩, ⟨.access .sb, rfl, rfl⟩]
  obtain ⟨m, hm, hopcode⟩ := hm
  let r : Register := ⟨w.rs, w.field_lt 21 5⟩
  let v : Int := Bits.signExtend w.immediate 16
  have himmediate : w.immediate < 2 ^ 16 := w.field_lt 0 16
  have hcongr : v % 2 ^ 16 = (w.immediate : Int) % 2 ^ 16 := Bits.signExtend_emod w.immediate 15
  have hsum : (w.toNat : Int) =
      m.spec.opcode.toNat * 2 ^ 26 + r.val * 2 ^ 21 + r.val * 2 ^ 16 + v % 2 ^ 16 := by
    have hfields := w.toNat_eq_fieldsI
    rw [← hregisters] at hfields
    rw [hcongr, Int.emod_eq_of_lt (Int.natCast_nonneg _) (by exact_mod_cast himmediate), hopcode]
    exact_mod_cast hfields
  have hv : -2 ^ 15 ≤ v ∧ v < 2 ^ 15 := Bits.fitsSigned_iff.mp (Bits.fitsSigned_signExtend _ 15)
  exact ⟨_, @Packed.immediate w m hm [.number 0, .ofRegister r, .number v] r v rfl rfl hv hsum⟩

theorem exists_packed_of_jump (hopcode : w.opcode = 2) : ∃ s, Packed w s := by
  have htarget : w.target < 2 ^ 26 := w.field_lt 0 26
  have hsum := w.toNat_eq_fieldsJ
  rw [hopcode] at hsum
  exact ⟨_, @Packed.jump w [.number w.target] w.target rfl
    ⟨Int.natCast_nonneg _, by exact_mod_cast htarget⟩ (by exact_mod_cast hsum)⟩

/-- The words of items, by their fields. -/
theorem exists_packed_iff : (∃ s, Packed w s) ↔
    w.padding = 0 ∨ (w.opcode = 0 ∧ w.shamt = 0 ∧ w.funct ∈ [32, 34, 36, 37, 42]) ∨
      (w.opcode ∈ [4, 8, 32, 40] ∧ w.rs = w.rt) ∨ w.opcode = 2 := by
  constructor
  · rintro ⟨s, hs⟩
    exact hs.fields
  · rintro (h | ⟨hopcode, hshamt, hfunct⟩ | ⟨hopcode, hregisters⟩ | hopcode)
    · exact ⟨_, packed_of_padding h⟩
    · exact exists_packed_of_funct hopcode hshamt hfunct
    · exact exists_packed_of_registers hopcode hregisters
    · exact exists_packed_of_jump hopcode

end Image

/-- **What a word tells about its item.**  Two items that are packed have the same word, as
text, exactly when they are the same operation on the operands that are packed, the same byte
of data, or a byte of data and an instruction that it looks like.  And the words that some
item is packed to are those whose low 24 bits are zero, those of an arithmetic operation,
those of an instruction with an immediate whose register fields are equal, and those of a
jump. -/
theorem pack_kernel_image :
    (∀ (s t : Item) (w w' : Word), s.pack = .ok w → t.pack = .ok w' →
      (w.toBinary = w'.toBinary ↔ SameWord s t)) ∧
    ∀ w : Word, (∃ s : Item, s.pack = .ok w) ↔
      w.padding = 0 ∨ (w.opcode = 0 ∧ w.shamt = 0 ∧ w.funct ∈ [32, 34, 36, 37, 42]) ∨
        (w.opcode ∈ [4, 8, 32, 40] ∧ w.rs = w.rt) ∨ w.opcode = 2 := by
  refine ⟨fun s t w w' hs ht => ?_, fun w => ?_⟩
  · rw [Word.toBinary_inj]
    refine ⟨?_, fun h => eq_of_sameWord h hs ht⟩
    rintro rfl
    exact sameWord_of_packed (pack_eq_ok_iff.mp hs) (pack_eq_ok_iff.mp ht)
  · simp only [pack_eq_ok_iff]
    exact exists_packed_iff

/-- The byte 11 looks like a jump, the byte 32 like an addition of zero whatever its first
operand is, and the byte 12 like no jump to the first slot. -/
theorem pack_kernel_image_data :
    SameWord (.directive ".dw" [.number 11]) (.operation "j" [.number (3 * 2 ^ 24)]) ∧
      SameWord (.operation "addi" [.name "any", .number 0, .number 0])
        (.directive ".dw" [.number 32, .number 7]) ∧
      ¬ SameWord (.directive ".dw" [.number 12]) (.operation "j" [.number 0]) := by
  have hpack {s : Item} {w : Word} (h : s.pack.toOption = some w) : s.pack = .ok w :=
    Outcome.eq_ok_of_toOption h
  have hjump := pack_kernel_image.1 (.directive ".dw" [.number 11])
    (.operation "j" [.number (3 * 2 ^ 24)]) 0x0b000000 0x0b000000 (hpack (by decide +kernel))
    (hpack (by decide +kernel))
  have haddi := pack_kernel_image.1 (.operation "addi" [.name "any", .number 0, .number 0])
    (.directive ".dw" [.number 32, .number 7]) 0x20000000 0x20000000 (hpack (by decide +kernel))
    (hpack (by decide +kernel))
  have hother := pack_kernel_image.1 (.directive ".dw" [.number 12]) (.operation "j" [.number 0])
    0x0c000000 0x08000000 (hpack (by decide +kernel)) (hpack (by decide +kernel))
  exact ⟨hjump.mp rfl, haddi.mp rfl, fun h => absurd (hother.mpr h) (by decide +kernel)⟩

end Item
end MipsAssembler
