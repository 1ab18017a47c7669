import Mathlib
import MipsAssembler.Proofs.Reading

/-!
# The instruction table in numbers

The rows of the instruction table are given by groups: an arithmetic operation has a row
because it is one, and its function code stands elsewhere.  Here the table is written out,
one row for each spelling, with the codes as numbers and the operands as the pattern that
names their form.  `InstructionSpec.ofName_eq_ok_iff` says that looking up a spelling finds
these rows and no others.
-/

namespace MipsAssembler

/-- A row that is written out: the spelling of the instruction, its word format, its two
codes, and the pattern of its operands. -/
structure InstructionRow where
  name : String
  format : WordFormat
  opcode : Nat
  funct : Nat
  pattern : String
  deriving DecidableEq, Repr

namespace InstructionRow

/-- The table. -/
def table : List InstructionRow :=
  [⟨"add", .R, 0b000000, 0b100000, "rd,rs,rt"⟩,
   ⟨"sub", .R, 0b000000, 0b100010, "rd,rs,rt"⟩,
   ⟨"and", .R, 0b000000, 0b100100, "rd,rs,rt"⟩,
   ⟨"or", .R, 0b000000, 0b100101, "rd,rs,rt"⟩,
   ⟨"slt", .R, 0b000000, 0b101010, "rd,rs,rt"⟩,
   ⟨"addi", .I, 0b001000, 0b000000, "rd,rs,imm"⟩,
   ⟨"beq", .I, 0b000100, 0b000000, "rs,rt,label"⟩,
   ⟨"lb", .I, 0b100000, 0b000000, "rd,mem"⟩,
   ⟨"sb", .I, 0b101000, 0b000000, "rd,mem"⟩,
   ⟨"j", .J, 0b000010, 0b000000, "label"⟩]

/-- A spelling and what was found for it, written out. -/
def of (name : String) (spec : InstructionSpec) : InstructionRow :=
  ⟨name, spec.format, spec.opcode.toNat, spec.funct.toNat, spec.form.name⟩

theorem nodup_names : (table.map name).Nodup := by decide

/-- The rows of the table are those of the instructions. -/
theorem mem_table_iff {row : InstructionRow} :
    row ∈ table ↔ ∃ m : Mnemonic, row = of m.name m.spec := by
  constructor
  · intro h
    simp only [table, List.mem_cons, List.not_mem_nil, or_false] at h
    rcases h with rfl | rfl | rfl | rfl | rfl | rfl | rfl | rfl | rfl | rfl
    · exact ⟨.arith .add, rfl⟩
    · exact ⟨.arith .sub, rfl⟩
    · exact ⟨.arith .and, rfl⟩
    · exact ⟨.arith .or, rfl⟩
    · exact ⟨.arith .slt, rfl⟩
    · exact ⟨.addi, rfl⟩
    · exact ⟨.beq, rfl⟩
    · exact ⟨.access .lb, rfl⟩
    · exact ⟨.access .sb, rfl⟩
    · exact ⟨.j, rfl⟩
  · rintro ⟨m, rfl⟩
    cases m with
    | arith op => cases op <;> decide
    | access op => cases op <;> decide
    | _ => decide

theorem of_name_mem (m : Mnemonic) : of m.name m.spec ∈ table := mem_table_iff.mpr ⟨m, rfl⟩

/-- The codes fit their fields. -/
theorem codes_lt : ∀ row ∈ table, row.opcode < 2 ^ 6 ∧ row.funct < 2 ^ 6 := by decide

/-- The rows with three registers are those of the arithmetic operations. -/
theorem exists_arithmetic_of_mem {name pattern : String} {opcode funct : Nat}
    (h : ⟨name, .R, opcode, funct, pattern⟩ ∈ table) :
    ∃ op : Arithmetic, name = op.name ∧ funct = op.funct.toNat := by
  obtain ⟨m, hm⟩ := mem_table_iff.mp h
  obtain ⟨rfl, hformat, -, rfl, -⟩ := InstructionRow.mk.inj hm
  cases m with
  | arith op => exact ⟨op, rfl, rfl⟩
  | _ => cases hformat

/-- The rows with an immediate are found by their format alone. -/
theorem exists_immediate_of_mem {name pattern : String} {opcode funct : Nat}
    (h : ⟨name, .I, opcode, funct, pattern⟩ ∈ table) :
    ∃ m : Mnemonic, m.spec.format = .I ∧ name = m.name ∧ opcode = m.spec.opcode.toNat := by
  obtain ⟨m, hm⟩ := mem_table_iff.mp h
  obtain ⟨rfl, hformat, rfl, -, -⟩ := InstructionRow.mk.inj hm
  exact ⟨m, hformat.symm, rfl, rfl⟩

/-- There is one jump. -/
theorem eq_jump_of_mem {name pattern : String} {opcode funct : Nat}
    (h : ⟨name, .J, opcode, funct, pattern⟩ ∈ table) : name = "j" ∧ opcode = 2 := by
  obtain ⟨m, hm⟩ := mem_table_iff.mp h
  obtain ⟨rfl, hformat, rfl, -, -⟩ := InstructionRow.mk.inj hm
  cases m with
  | j => exact ⟨rfl, rfl⟩
  | _ => cases hformat

theorem mem_names_iff {text : String} :
    text ∈ table.map name ↔ ∃ m : Mnemonic, m.name = text := by
  rw [List.mem_map]
  constructor
  · rintro ⟨row, hrow, rfl⟩
    obtain ⟨m, rfl⟩ := mem_table_iff.mp hrow
    exact ⟨m, rfl⟩
  · rintro ⟨m, rfl⟩
    exact ⟨of m.name m.spec, of_name_mem m, rfl⟩

end InstructionRow

theorem OperandForm.name_injective : Function.Injective OperandForm.name := by
  intro f g h
  cases f <;> cases g <;> first | rfl | exact absurd h (by decide)

/-- Writing a row out loses nothing. -/
theorem InstructionRow.of_inj {name name' : String} {spec spec' : InstructionSpec} :
    of name spec = of name' spec' ↔ name = name' ∧ spec = spec' := by
  constructor
  · intro h
    obtain ⟨format, opcode, funct, form⟩ := spec
    obtain ⟨format', opcode', funct', form'⟩ := spec'
    obtain ⟨hname, hformat, hopcode, hfunct, hform⟩ := InstructionRow.mk.inj h
    rw [InstructionSpec.mk.injEq]
    exact ⟨hname, hformat, BitVec.eq_of_toNat_eq hopcode, BitVec.eq_of_toNat_eq hfunct,
      OperandForm.name_injective hform⟩
  · rintro ⟨rfl, rfl⟩
    rfl

namespace InstructionSpec

variable {text : String}

/-- **Looking up a spelling finds its row of the table.** -/
theorem ofName_eq_ok_iff {spec : InstructionSpec} :
    ofName text = .ok spec ↔ InstructionRow.of text spec ∈ InstructionRow.table := by
  rw [InstructionRow.mem_table_iff, ofName]
  cases hname : Mnemonic.ofName? text with
  | none =>
    constructor
    · intro h
      cases h
    · rintro ⟨m, hm⟩
      obtain ⟨rfl, -⟩ := InstructionRow.of_inj.mp hm
      rw [Mnemonic.ofName?_name] at hname
      cases hname
  | some m =>
    obtain rfl := Mnemonic.eq_name_of_ofName? hname
    rw [Except.ok.injEq]
    constructor
    · rintro rfl
      exact ⟨m, rfl⟩
    · rintro ⟨m', hm'⟩
      obtain ⟨hm, rfl⟩ := InstructionRow.of_inj.mp hm'
      rw [hm, Mnemonic.ofName?_name, Option.some.injEq] at hname
      rw [hname]

/-- A look-up fails on the spellings that the table does not have, and says which one it was. -/
theorem ofName_eq_error_iff {e : UnknownMnemonic} :
    ofName text = .error e ↔ text ∉ InstructionRow.table.map InstructionRow.name ∧ e = ⟨text⟩ := by
  rw [InstructionRow.mem_names_iff, ofName]
  cases hname : Mnemonic.ofName? text with
  | none =>
    rw [Except.error.injEq, eq_comm, iff_and_self]
    rintro - ⟨m, rfl⟩
    rw [Mnemonic.ofName?_name] at hname
    cases hname
  | some m =>
    obtain rfl := Mnemonic.eq_name_of_ofName? hname
    simp

end InstructionSpec
end MipsAssembler
