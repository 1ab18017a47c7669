import Mathlib
import MipsAssembler.Proofs.FieldText
import MipsAssembler.Proofs.InstructionTable
import MipsAssembler.Proofs.Messages
import MipsAssembler.Proofs.Packing

/-!
# The operands that the packer reads

`Packing` says when an item has a word.  This file says the rest: which text the word is
shown as, and which fault there is when there is no word.

## Reading in order

The packer refuses some items without a look at their operands: a label, a spelling that no
table has, a value that is no part of a program.  From any other item it reads operands one
after another, each by its position and in a role: as a register, or as a number for one of
the fields.  `Item.reads?` is that list of reads.  The order is that of the fields in the
word, so three registers are read as operand 1, then 2, then 0, and operand 0 of an
instruction with an immediate is not read at all.

The fault of an item is that of the first read that is refused (`FirstRefused`), and what a
read refuses depends on the operand and the role alone (`Role.Refuses`).  Since the faults
behind a read do not depend on the value that was read, one lemma, `get_bind_eq_error_iff`,
takes a read off the front of a packer, and the four formats are chains of it.

## Fields in a row

A word is a number, and its text could be written in two ways: the number in 32 digits, or
the fields one after another, each in its own digits.  A text of a number has a least length
and no greatest one, so the second way gives 32 digits only because every field was checked
against its own width.  `Item.WordNumber` has the number of an item and the row of its fields
side by side, and `isBinary_joined` says that both ways agree.
-/

namespace MipsAssembler

/-! ## One read -/

namespace Operand

theorem exists_toRegister_iff {a : Operand} :
    (∃ r, a.toRegister = .ok r) ↔ ∃ v, a = .number v ∧ 0 ≤ v ∧ v < 32 := by
  constructor
  · rintro ⟨r, hr⟩
    have hlt : r.val < 32 := r.isLt
    exact ⟨r.val, toRegister_eq_ok_iff.mp hr, Int.natCast_nonneg _, by omega⟩
  · rintro ⟨v, rfl, hlow, hhigh⟩
    have hlt : v.toNat < registerCount := (Int.toNat_lt hlow).mpr hhigh
    refine ⟨⟨v.toNat, hlt⟩, toRegister_eq_ok_iff.mpr ?_⟩
    rw [ofRegister, Int.toNat_of_nonneg hlow]

theorem toRegister_number_of_not {n : Int} (h : ¬ (0 ≤ n ∧ n < 32)) :
    (number n).toRegister = .error (.invalidRegister (number n)) := by
  have hnone : Literal.register? n = none := dif_neg h
  rw [toRegister, hnone]

end Operand

/-- What an operand is read as. -/
inductive Role where
  | register
  | number (field : NumericField)
  deriving DecidableEq, Repr

namespace Role

/-- The numbers that a role admits. -/
def Admits : Role → Int → Prop
  | register, v => 0 ≤ v ∧ v < 32
  | number field, v => field.Holds v

/-- The faults of a read: there is no operand, a register is wanted and the operand is none,
a number is wanted and the operand is none, or the number does not fit its field. -/
inductive Refuses : Role → Option Operand → Fault → Prop
  | missing (role : Role) : Refuses role none .missingOperand
  | notRegister {a : Operand} (h : ∀ v, a = .number v → ¬ (0 ≤ v ∧ v < 32)) :
      Refuses .register (some a) (.invalidRegister a)
  | notNumber (field : NumericField) {a : Operand} (h : ∀ v, a ≠ .number v) :
      Refuses (.number field) (some a) (field.unresolved a)
  | overflow (field : NumericField) {v : Int} (h : ¬ field.Holds v) :
      Refuses (.number field) (some (Operand.number v)) (field.overflow v)

/-- The kinds of a refused read.  It is a fault of types only if a byte of data is wanted. -/
theorem Refuses.kind_cases {role : Role} {a : Option Operand} {fault : Fault}
    (h : role.Refuses a fault) :
    fault.kind = .internal ∨ (fault.kind = .missing ∧ a = none) ∨
      (fault.kind = .range ∧ ∃ field v, ¬ NumericField.Holds field v ∧ fault = field.overflow v) ∨
      fault.kind = .mistyped ∧ role = .number .data ∧ ∃ b, a = some b ∧ ∀ v, b ≠ .number v := by
  cases h with
  | missing => exact Or.inr (Or.inl ⟨rfl, rfl⟩)
  | notRegister _ => exact Or.inl rfl
  | notNumber field h =>
    cases field with
    | data => exact Or.inr (Or.inr (Or.inr ⟨rfl, rfl, _, rfl, h⟩))
    | _ => exact Or.inl rfl
  | overflow field h => exact Or.inr (Or.inr (Or.inl ⟨field.kind_overflow _, field, _, h, rfl⟩))

/-- A step reads operands in a role: it succeeds on the numbers that the role admits, and on
everything else it has the fault of the role. -/
structure ReadBy {β : Type} (role : Role) (step : Operand → Except Fault β) : Prop where
  accepts : ∀ a, (∃ b, step a = .ok b) ↔ ∃ v, a = .number v ∧ role.Admits v
  refuses : ∀ a fault, step a = .error fault ↔ role.Refuses (some a) fault

theorem readBy_toRegister : register.ReadBy Operand.toRegister where
  accepts _ := Operand.exists_toRegister_iff
  refuses a fault := by
    constructor
    · intro h
      cases a with
      | name _ | foreign _ =>
        cases h
        exact .notRegister fun v hv => by cases hv
      | number n =>
        have hn : ¬ (0 ≤ n ∧ n < 32) := by
          intro hn
          obtain ⟨r, hr⟩ := Operand.exists_toRegister_iff.mpr ⟨n, rfl, hn⟩
          rw [hr] at h
          cases h
        rw [Operand.toRegister_number_of_not hn] at h
        cases h
        refine .notRegister fun v hv => ?_
        cases hv
        exact hn
    · intro h
      cases h with
      | notRegister h =>
        cases a with
        | name _ | foreign _ => rfl
        | number n => exact Operand.toRegister_number_of_not (h n rfl)

/-- What reads for a field reads in the role of the field. -/
theorem readBy_of_field {n : Nat} {field : NumericField} {step : Operand → Except Fault (BitVec n)}
    (hstep : field.ReadBy step) : (number field).ReadBy step where
  accepts a := by
    simp only [hstep.eq_ok_iff]
    constructor
    · rintro ⟨bits, v, rfl, hv, -⟩
      exact ⟨v, rfl, hv⟩
    · rintro ⟨v, rfl, hv⟩
      exact ⟨_, v, rfl, hv, rfl⟩
  refuses a fault := by
    by_cases ha : ∀ v, a ≠ .number v
    · rw [hstep.other a ha, Except.error.injEq]
      constructor
      · rintro rfl
        exact .notNumber field ha
      · intro h
        cases h with
        | notNumber _ _ => rfl
        | overflow _ _ => exact absurd rfl (ha _)
    · push Not at ha
      obtain ⟨v, rfl⟩ := ha
      rw [hstep.number]
      by_cases hv : field.Holds v
      · rw [if_pos hv]
        constructor
        · intro h
          cases h
        · intro h
          cases h with
          | notNumber _ h => exact absurd rfl (h v)
          | overflow _ h => exact absurd hv h
      · rw [if_neg hv, Except.error.injEq]
        constructor
        · rintro rfl
          exact .overflow field hv
        · intro h
          cases h with
          | notNumber _ h => exact absurd rfl (h v)
          | overflow _ _ => rfl

end Role

/-! ## A row of reads -/

/-- The fault of a row of reads, each given by the position and the role of an operand: the
first read is refused, or it is accepted and a later one is the first to be refused. -/
inductive FirstRefused (args : List Operand) : List (Nat × Role) → Fault → Prop
  | here {k : Nat} {role : Role} {rest : List (Nat × Role)} {fault : Fault}
      (h : role.Refuses args[k]? fault) : FirstRefused args ((k, role) :: rest) fault
  | later {k : Nat} {role : Role} {rest : List (Nat × Role)} {fault : Fault} {v : Int}
      (hv : args[k]? = some (Operand.number v)) (hadmits : role.Admits v)
      (h : FirstRefused args rest fault) : FirstRefused args ((k, role) :: rest) fault

namespace FirstRefused

variable {args : List Operand} {rest : List (Nat × Role)} {fault : Fault}

theorem kind_cases (h : FirstRefused args rest fault) :
    fault.kind = .internal ∨ fault.kind = .missing ∨
      (fault.kind = .range ∧ ∃ field v, ¬ NumericField.Holds field v ∧ fault = field.overflow v) ∨
      fault.kind = .mistyped ∧ ∃ k b, (k, Role.number .data) ∈ rest ∧ args[k]? = some b ∧
        ∀ v, b ≠ .number v := by
  induction h with
  | here h =>
    refine h.kind_cases.imp_right (Or.imp And.left (Or.imp_right ?_))
    rintro ⟨hkind, rfl, b, hb, hnumber⟩
    exact ⟨hkind, _, b, List.mem_cons_self, hb, hnumber⟩
  | later _ _ _ ih =>
    refine ih.imp_right (Or.imp_right (Or.imp_right ?_))
    rintro ⟨hkind, k, b, hmem, hb, hnumber⟩
    exact ⟨hkind, k, b, List.mem_cons_of_mem _ hmem, hb, hnumber⟩

/-- When all reads are done there is no fault any more. -/
theorem pure_eq_error_iff (w : Word) :
    (pure w : Except Fault Word) = .error fault ↔ FirstRefused args [] fault := by
  constructor
  · intro h
    cases h
  · intro h
    cases h

/-- One read, and the reads behind it.  The value that was read goes into the word but has no
influence on which fault comes later. -/
theorem get_bind_eq_error_iff {β γ : Type} {k : Nat} {role : Role}
    {step : Operand → Except Fault β} {next : β → Except Fault γ} (hstep : role.ReadBy step)
    (hnext : ∀ b, next b = .error fault ↔ FirstRefused args rest fault) :
    (Operand.get args k >>= fun a => step a >>= next) = .error fault ↔
      FirstRefused args ((k, role) :: rest) fault := by
  constructor
  · intro h
    cases hk : args[k]? with
    | none =>
      rw [Operand.get, hk] at h
      cases h
      exact .here (hk ▸ .missing role)
    | some a =>
      rw [Operand.get_eq_ok_iff.mpr hk, Outcome.ok_bind] at h
      rcases Outcome.bind_eq_error_iff.mp h with hfault | ⟨b, hb, hlater⟩
      · exact .here (hk ▸ (hstep.refuses a fault).mp hfault)
      · obtain ⟨v, rfl, hv⟩ := (hstep.accepts a).mp ⟨b, hb⟩
        exact .later hk hv ((hnext b).mp hlater)
  · intro h
    cases h with
    | here h =>
      cases hk : args[k]? with
      | none =>
        rw [hk] at h
        cases h
        rw [Operand.get, hk]
        rfl
      | some a =>
        rw [hk] at h
        rw [Operand.get_eq_ok_iff.mpr hk, Outcome.ok_bind, (hstep.refuses a fault).mpr h]
        rfl
    | later hk hv h =>
      obtain ⟨b, hb⟩ := (hstep.accepts _).mpr ⟨_, rfl, hv⟩
      rw [Operand.get_eq_ok_iff.mpr hk, Outcome.ok_bind, hb, Outcome.ok_bind]
      exact (hnext b).mpr h

end FirstRefused

namespace Item

/-! ## The reads of an item -/

/-- The reads of a word format. -/
def formatReads : WordFormat → List (Nat × Role)
  | .R => [(1, .register), (2, .register), (0, .register)]
  | .I => [(1, .register), (2, .number .immediate)]
  | .J => [(0, .number .target)]

/-- The reads of an item in their order, if it is one whose operands are read. -/
def reads? : Item → Option (List (Nat × Role))
  | directive name _ => if name = ".dw" then some [(0, .number .data)] else none
  | operation name _ => (Mnemonic.ofName? name).map fun m => formatReads m.spec.format
  | _ => none

/-- What the positions of reads refer to. -/
def arguments : Item → List Operand
  | directive _ args => args
  | operation _ args => args
  | _ => []

/-- The fault of an item that is refused without a look at its operands. -/
def unread : Item → Fault
  | label name => .unplacedLabel name
  | directive name _ => .unknownDirective name
  | operation name _ => .unknownOperation name
  | foreign value => .foreignItem value.typeName

/-- The fault of an item. -/
inductive Refused : Item → Fault → Prop
  | unread {item : Item} (h : item.reads? = none) : Refused item item.unread
  | read {item : Item} {reads : List (Nat × Role)} {fault : Fault} (h : item.reads? = some reads)
      (hfirst : FirstRefused item.arguments reads fault) : Refused item fault

/-- Only a byte of data is read for the field of data. -/
theorem eq_directive_of_mem_reads? {item : Item} {reads : List (Nat × Role)} {k : Nat}
    (h : item.reads? = some reads) (hmem : (k, Role.number .data) ∈ reads) :
    ∃ args, item = .directive ".dw" args ∧ k = 0 := by
  cases item with
  | label name => cases h
  | foreign value => cases h
  | directive name args =>
    by_cases hname : name = ".dw"
    · subst hname
      cases h
      cases hmem with
      | head => exact ⟨args, rfl, rfl⟩
      | tail _ hmem => cases hmem
    · rw [reads?, if_neg hname] at h
      cases h
  | operation name args =>
    obtain ⟨m, -, rfl⟩ := Option.map_eq_some_iff.mp h
    cases hformat : m.spec.format <;> simp [hformat, formatReads] at hmem

/-- The kinds of the faults of an item. -/
theorem Refused.kind_cases {item : Item} {fault : Fault} (h : Refused item fault) :
    fault.kind = .internal ∨ fault.kind = .missing ∨
      (fault.kind = .range ∧ ∃ field v, ¬ NumericField.Holds field v ∧ fault = field.overflow v) ∨
      fault.kind = .mistyped ∧ ∃ args a, item = .directive ".dw" args ∧ args[0]? = some a ∧
        ∀ v, a ≠ .number v := by
  cases h with
  | unread _ => cases item <;> exact Or.inl rfl
  | read hreads hfirst =>
    refine hfirst.kind_cases.imp_right (Or.imp_right (Or.imp_right ?_))
    rintro ⟨hkind, k, a, hmem, ha, hnumber⟩
    obtain ⟨args, rfl, rfl⟩ := eq_directive_of_mem_reads? hreads hmem
    exact ⟨hkind, args, a, rfl, ha, hnumber⟩

/-- For an item with reads, its fault is that of the first one that is refused. -/
theorem refused_iff_of_reads? {item : Item} {reads : List (Nat × Role)} {fault : Fault}
    (h : item.reads? = some reads) :
    Refused item fault ↔ FirstRefused item.arguments reads fault := by
  constructor
  · intro hrefused
    cases hrefused with
    | unread hnone => cases h.symm.trans hnone
    | read h' hfirst =>
      cases h.symm.trans h'
      exact hfirst
  · exact .read h

theorem refused_iff_of_reads?_eq_none {item : Item} {fault : Fault} (h : item.reads? = none) :
    Refused item fault ↔ item.unread = fault := by
  constructor
  · intro hrefused
    cases hrefused with
    | unread _ => rfl
    | read h' _ => cases h.symm.trans h'
  · rintro rfl
    exact .unread h

/-! ## The faults of the formats -/

section Faults

variable {args : List Operand} {fault : Fault}

theorem packR_eq_error_iff {funct : BitVec FieldWidth.funct} :
    packR args funct = .error fault ↔ FirstRefused args (formatReads .R) fault := by
  refine FirstRefused.get_bind_eq_error_iff Role.readBy_toRegister fun rs => ?_
  refine FirstRefused.get_bind_eq_error_iff Role.readBy_toRegister fun rt => ?_
  refine FirstRefused.get_bind_eq_error_iff Role.readBy_toRegister fun rd => ?_
  exact FirstRefused.pure_eq_error_iff _

theorem packI_eq_error_iff {opcode : BitVec FieldWidth.opcode} :
    packI args opcode = .error fault ↔ FirstRefused args (formatReads .I) fault := by
  refine FirstRefused.get_bind_eq_error_iff Role.readBy_toRegister fun r => ?_
  refine FirstRefused.get_bind_eq_error_iff
    (Role.readBy_of_field NumericField.readBy_toImmediate) fun immediate => ?_
  exact FirstRefused.pure_eq_error_iff _

theorem packJ_eq_error_iff {opcode : BitVec FieldWidth.opcode} :
    packJ args opcode = .error fault ↔ FirstRefused args (formatReads .J) fault := by
  refine FirstRefused.get_bind_eq_error_iff
    (Role.readBy_of_field NumericField.readBy_toTarget) fun target => ?_
  exact FirstRefused.pure_eq_error_iff _

theorem packOperation_eq_error_iff (m : Mnemonic) :
    packOperation m.name args = .error fault ↔
      FirstRefused args (formatReads m.spec.format) fault := by
  rw [packOperation_name]
  cases m.spec.format with
  | R => exact packR_eq_error_iff
  | I => exact packI_eq_error_iff
  | J => exact packJ_eq_error_iff

theorem packData_eq_error_iff :
    packData args = .error fault ↔ FirstRefused args [(0, .number .data)] fault := by
  refine FirstRefused.get_bind_eq_error_iff
    (Role.readBy_of_field NumericField.readBy_toData) fun byte => ?_
  exact FirstRefused.pure_eq_error_iff _

end Faults

/-- The fault of the packer is the one that the reads of the item have. -/
theorem pack_eq_error_iff {item : Item} {fault : Fault} :
    item.pack = .error fault ↔ Refused item fault := by
  cases hreads : item.reads? with
  | none =>
    rw [refused_iff_of_reads?_eq_none hreads]
    have hpack : item.pack = .error item.unread := by
      cases item with
      | label name => rfl
      | foreign value => rfl
      | directive name args =>
        have hname : name ≠ ".dw" := by
          rintro rfl
          cases hreads
        exact if_neg hname
      | operation name args =>
        have hnone : Mnemonic.ofName? name = none := Option.map_eq_none_iff.mp hreads
        rw [pack, packOperation, hnone]
        rfl
    rw [hpack, Except.error.injEq]
  | some reads =>
    rw [refused_iff_of_reads? hreads]
    cases item with
    | label name => cases hreads
    | foreign value => cases hreads
    | directive name args =>
      by_cases hname : name = ".dw"
      · subst hname
        cases hreads
        exact packData_eq_error_iff
      · rw [reads?, if_neg hname] at hreads
        cases hreads
    | operation name args =>
      obtain ⟨m, hm, rfl⟩ := Option.map_eq_some_iff.mp hreads
      obtain rfl := Mnemonic.eq_name_of_ofName? hm
      exact packOperation_eq_error_iff m

/-! ## The number of an item -/

/-- The number that an item is packed to, and the fields of the word from the front, each a
number and its width in bits.  The number is the sum of the fields, each times the weight of
its lowest bit.  Operands that do not occur here may be anything or missing. -/
inductive WordNumber : Item → List (Int × Nat) → Nat → Prop
  | data {args : List Operand} {v : Nat} (h0 : args[0]? = some (Operand.number v))
      (hv : v < 2 ^ 8) :
      WordNumber (.directive ".dw" args) [(v, 8), (0, 24)] (v * 2 ^ 24)
  | arith {name pattern : String} {opcode funct : Nat}
      (hrow : ⟨name, .R, opcode, funct, pattern⟩ ∈ InstructionRow.table)
      {args : List Operand} {rd rs rt : Nat}
      (h0 : args[0]? = some (Operand.number rd)) (hrd : rd < 32)
      (h1 : args[1]? = some (Operand.number rs)) (hrs : rs < 32)
      (h2 : args[2]? = some (Operand.number rt)) (hrt : rt < 32) :
      WordNumber (.operation name args)
        [(0, 6), (rs, 5), (rt, 5), (rd, 5), (0, 5), (funct, 6)]
        (rs * 2 ^ 21 + rt * 2 ^ 16 + rd * 2 ^ 11 + funct)
  | immediate {name pattern : String} {opcode funct : Nat}
      (hrow : ⟨name, .I, opcode, funct, pattern⟩ ∈ InstructionRow.table)
      {args : List Operand} {r : Nat} {v : Int}
      (h1 : args[1]? = some (Operand.number r)) (hr : r < 32)
      (h2 : args[2]? = some (Operand.number v)) (hv : -2 ^ 15 ≤ v ∧ v < 2 ^ 15) :
      WordNumber (.operation name args)
        [(opcode, 6), (r, 5), (r, 5), (Bits.twosComplement v 16, 16)]
        (opcode * 2 ^ 26 + r * 2 ^ 21 + r * 2 ^ 16 + (v % 2 ^ 16).toNat)
  | jump {name pattern : String} {opcode funct : Nat}
      (hrow : ⟨name, .J, opcode, funct, pattern⟩ ∈ InstructionRow.table)
      {args : List Operand} {t : Nat}
      (h0 : args[0]? = some (Operand.number t)) (ht : t < 2 ^ 26) :
      WordNumber (.operation name args) [(opcode, 6), (t, 26)] (opcode * 2 ^ 26 + t)

theorem wordNumber_of_packed {w : Word} {item : Item} (h : Packed w item) :
    ∃ row, WordNumber item row w.toNat := by
  cases h with
  | @data args v h0 hv hw =>
    lift v to Nat using hv.1
    have hnumber : w.toNat = v * 2 ^ 24 := by exact_mod_cast hw
    rw [hnumber]
    exact ⟨_, .data h0 (by exact_mod_cast hv.2)⟩
  | @arith op args rd rs rt h0 h1 h2 hw =>
    rw [hw]
    exact ⟨_, .arith (InstructionRow.of_name_mem (.arith op)) h0 rd.isLt h1 rs.isLt h2 rt.isLt⟩
  | @immediate m hm args r v h1 h2 hv hw =>
    have hnumber : w.toNat =
        m.spec.opcode.toNat * 2 ^ 26 + r.val * 2 ^ 21 + r.val * 2 ^ 16 + (v % 2 ^ 16).toNat := by
      omega
    have hrow := InstructionRow.of_name_mem m
    rw [InstructionRow.of, hm] at hrow
    rw [hnumber]
    exact ⟨_, .immediate hrow h1 r.isLt h2 hv⟩
  | @jump args v h0 hv hw =>
    lift v to Nat using hv.1
    have hnumber : w.toNat = 2 * 2 ^ 26 + v := by omega
    rw [hnumber]
    exact ⟨_, .jump (InstructionRow.of_name_mem .j) h0 (by exact_mod_cast hv.2)⟩

theorem exists_word_toNat_eq {n : Nat} (h : n < 2 ^ 32) : ∃ w : Word, w.toNat = n :=
  ⟨BitVec.ofNat 32 n, (BitVec.toNat_ofNat n 32).trans (Nat.mod_eq_of_lt h)⟩

/-- The number of an item is below `2 ^ 32`, since each field fits below the next one, and the
word with that number belongs to the item. -/
theorem exists_packed_of_wordNumber {item : Item} {row : List (Int × Nat)} {n : Nat}
    (h : WordNumber item row n) : ∃ w : Word, w.toNat = n ∧ Packed w item := by
  cases h with
  | @data args v h0 hv =>
    obtain ⟨w, hw⟩ := exists_word_toNat_eq (n := v * 2 ^ 24) (by omega)
    exact ⟨w, hw, .data h0 (by omega) (by exact_mod_cast hw)⟩
  | @arith name pattern opcode funct hrow args rd rs rt h0 hrd h1 hrs h2 hrt =>
    have hfunct : funct < 2 ^ 6 := (InstructionRow.codes_lt _ hrow).2
    obtain ⟨w, hw⟩ :=
      exists_word_toNat_eq (n := rs * 2 ^ 21 + rt * 2 ^ 16 + rd * 2 ^ 11 + funct) (by omega)
    obtain ⟨op, rfl, rfl⟩ := InstructionRow.exists_arithmetic_of_mem hrow
    exact ⟨w, hw, @Packed.arith w op args ⟨rd, hrd⟩ ⟨rs, hrs⟩ ⟨rt, hrt⟩ h0 h1 h2 hw⟩
  | @immediate name pattern opcode funct hrow args r v h1 hr h2 hv =>
    have hopcode : opcode < 2 ^ 6 := (InstructionRow.codes_lt _ hrow).1
    obtain ⟨w, hw⟩ := exists_word_toNat_eq
      (n := opcode * 2 ^ 26 + r * 2 ^ 21 + r * 2 ^ 16 + (v % 2 ^ 16).toNat) (by omega)
    obtain ⟨m, hformat, rfl, rfl⟩ := InstructionRow.exists_immediate_of_mem hrow
    refine ⟨w, hw, .immediate m hformat (r := ⟨r, hr⟩) h1 h2 hv ?_⟩
    show (w.toNat : Int) = m.spec.opcode.toNat * 2 ^ 26 + r * 2 ^ 21 + r * 2 ^ 16 + v % 2 ^ 16
    omega
  | @jump name pattern opcode funct hrow args t h0 ht =>
    obtain ⟨rfl, rfl⟩ := InstructionRow.eq_jump_of_mem hrow
    obtain ⟨w, hw⟩ := exists_word_toNat_eq (n := 2 * 2 ^ 26 + t) (by omega)
    exact ⟨w, hw, .jump h0 (by omega) (by omega)⟩

/-! ## The fields in a row -/

/-- The texts of fields one after another, each at least as wide as the field. -/
def joined (row : List (Int × Nat)) : String :=
  String.join (row.map fun field => Bits.toBinary field.1 field.2)

theorem isBinary_joined_of_fields (fields : List Bits.Field) {n : Nat}
    (hbits : Bits.Field.bits fields = 32) (htotal : Bits.Field.total fields = n) :
    Bits.IsBinary 32 n (joined (fields.map fun f => (f.value, f.width))) := by
  obtain ⟨m, hm, hbinary⟩ := Bits.Field.isBinary_texts fields
  rw [htotal, Int.natCast_inj] at hm
  rw [hbits, hm, Bits.Field.texts] at hbinary
  rwa [joined, List.map_map]

/-- An immediate that fits stands in its field modulo `2 ^ 16`. -/
theorem twosComplement_immediate {v : Int} (hv : -2 ^ 15 ≤ v ∧ v < 2 ^ 15) :
    Bits.twosComplement v 16 = ((v % 2 ^ 16).toNat : Int) := by
  rw [Bits.twosComplement, Bits.weight_natCast]
  split <;> omega

/-- **The fields of an item in a row are its number in 32 binary digits.** -/
theorem isBinary_joined {item : Item} {row : List (Int × Nat)} {n : Nat}
    (h : WordNumber item row n) : Bits.IsBinary 32 n (joined row) := by
  cases h with
  | @data args v h0 hv =>
    refine isBinary_joined_of_fields
      [.ofNat v 8 (by decide) hv, .ofNat 0 24 (by decide) (by decide)] rfl ?_
    simp [Bits.Field.total_cons, Bits.Field.bits_cons]
  | @arith name pattern opcode funct hrow args rd rs rt h0 hrd h1 hrs h2 hrt =>
    have hfunct : funct < 2 ^ 6 := (InstructionRow.codes_lt _ hrow).2
    refine isBinary_joined_of_fields
      [.ofNat 0 6 (by decide) (by decide), .ofNat rs 5 (by decide) hrs, .ofNat rt 5 (by decide) hrt,
        .ofNat rd 5 (by decide) hrd, .ofNat 0 5 (by decide) (by decide),
        .ofNat funct 6 (by decide) hfunct] rfl ?_
    simp only [Bits.Field.total_cons, Bits.Field.bits_cons, Bits.Field.total_nil,
      Bits.Field.bits_nil, Bits.Field.value_ofNat, Bits.Field.width_ofNat]
    push_cast
    ring
  | @immediate name pattern opcode funct hrow args r v h1 hr h2 hv =>
    have hopcode : opcode < 2 ^ 6 := (InstructionRow.codes_lt _ hrow).1
    have hfield : (v % 2 ^ 16).toNat < 2 ^ 16 := by omega
    rw [twosComplement_immediate hv]
    generalize (v % 2 ^ 16).toNat = low at hfield ⊢
    refine isBinary_joined_of_fields
      [.ofNat opcode 6 (by decide) hopcode, .ofNat r 5 (by decide) hr, .ofNat r 5 (by decide) hr,
        .ofNat low 16 (by decide) hfield] rfl ?_
    simp only [Bits.Field.total_cons, Bits.Field.bits_cons, Bits.Field.total_nil,
      Bits.Field.bits_nil, Bits.Field.value_ofNat, Bits.Field.width_ofNat]
    push_cast
    ring
  | @jump name pattern opcode funct hrow args t h0 ht =>
    have hopcode : opcode < 2 ^ 6 := (InstructionRow.codes_lt _ hrow).1
    refine isBinary_joined_of_fields
      [.ofNat opcode 6 (by decide) hopcode, .ofNat t 26 (by decide) ht] rfl ?_
    simp [Bits.Field.total_cons, Bits.Field.bits_cons]

/-! ## The packer -/

/-- An item has a word exactly when it has a number. -/
theorem exists_pack_iff {item : Item} :
    (∃ w, item.pack = .ok w) ↔ ∃ row n, WordNumber item row n := by
  constructor
  · rintro ⟨w, hw⟩
    obtain ⟨row, hrow⟩ := wordNumber_of_packed (pack_eq_ok_iff.mp hw)
    exact ⟨row, w.toNat, hrow⟩
  · rintro ⟨row, n, hn⟩
    obtain ⟨w, -, hpacked⟩ := exists_packed_of_wordNumber hn
    exact ⟨w, pack_eq_ok_iff.mpr hpacked⟩

/-- The text of the word is the number in 32 binary digits. -/
theorem toBinary_pack_eq_ok_iff {item : Item} {text : String} :
    Word.toBinary <$> Fault.raising item.pack = .ok text ↔
      ∃ row n, WordNumber item row n ∧ Bits.IsBinary 32 n text := by
  rw [Outcome.map_eq_ok_iff]
  constructor
  · rintro ⟨w, hw, rfl⟩
    rw [Fault.raising_eq_ok_iff, pack_eq_ok_iff] at hw
    obtain ⟨row, hrow⟩ := wordNumber_of_packed hw
    exact ⟨row, w.toNat, hrow, w.isBinary_toBinary⟩
  · rintro ⟨row, n, hn, htext⟩
    obtain ⟨w, rfl, hpacked⟩ := exists_packed_of_wordNumber hn
    refine ⟨w, ?_, w.isBinary_toBinary.unique htext⟩
    rw [Fault.raising_eq_ok_iff, pack_eq_ok_iff]
    exact hpacked

/-- The text of the word is the row of the texts of its fields. -/
theorem toBinary_pack_eq_ok_iff_joined {item : Item} {text : String} :
    Word.toBinary <$> Fault.raising item.pack = .ok text ↔
      ∃ row n, WordNumber item row n ∧ text = joined row := by
  rw [toBinary_pack_eq_ok_iff]
  constructor
  · rintro ⟨row, n, hn, htext⟩
    exact ⟨row, n, hn, htext.unique (isBinary_joined hn)⟩
  · rintro ⟨row, n, hn, rfl⟩
    exact ⟨row, n, hn, isBinary_joined hn⟩

theorem raising_pack_eq_error_iff {item : Item} {fault : Fault} :
    Fault.raising item.pack = .error fault ↔
      ∃ cause, Refused item cause ∧ cause.RaisedAs fault := by
  simp only [Fault.raising_eq_error_iff, pack_eq_error_iff]

/-- **The packer, by its numbers and its reads.**  An item is packed exactly when it has a
number, and the word is shown as that number in 32 binary digits, which are the texts of the
fields one after another.  Otherwise the cause is the first operand, in the order of reading,
that is missing or wrong, or that the operands are not read at all.  What is raised is that
cause, unless it has to show an integer of more than 4300 digits.  The cause is internal, or a
missing operand, or a number that does not fit its field, or a byte of data that is no number
at all. -/
theorem pack_outcome (item : Item) :
    ((∃ w, item.pack = .ok w) ↔ ∃ row n, WordNumber item row n) ∧
      (∀ text, Word.toBinary <$> Fault.raising item.pack = .ok text ↔
        ∃ row n, WordNumber item row n ∧ Bits.IsBinary 32 n text) ∧
      (∀ text, Word.toBinary <$> Fault.raising item.pack = .ok text ↔
        ∃ row n, WordNumber item row n ∧ text = joined row) ∧
      (∀ fault, Fault.raising item.pack = .error fault ↔
        ∃ cause, Refused item cause ∧ cause.RaisedAs fault) ∧
      ∀ cause, Refused item cause → cause.kind = .internal ∨ cause.kind = .missing ∨
        (cause.kind = .range ∧
          ∃ field v, ¬ NumericField.Holds field v ∧ cause = field.overflow v) ∨
        cause.kind = .mistyped ∧ ∃ args a, item = .directive ".dw" args ∧ args[0]? = some a ∧
          ∀ v, a ≠ .number v :=
  ⟨exists_pack_iff, fun _ => toBinary_pack_eq_ok_iff, fun _ => toBinary_pack_eq_ok_iff_joined,
    fun _ => raising_pack_eq_error_iff, fun _ => Refused.kind_cases⟩

theorem not_holds_immediate_pow : ¬ NumericField.immediate.Holds (10 ^ 4300) := by
  intro h
  have hpow : (10 : Int) ^ 5 ≤ 10 ^ 4300 := pow_le_pow_right₀ (by decide) (by decide)
  have hlt := h.2
  omega

/-- A name for a byte of data, and an immediate that cannot be shown, are not refused with an
internal fault or a range fault. -/
theorem pack_mistyped_and_unshowable :
    Fault.raising (directive ".dw" [.name "x"]).pack = .error (.incomparableData "str") ∧
      (Fault.incomparableData "str").kind = .mistyped ∧
      Fault.raising (operation "addi" [.number 0, .number 0, .number (10 ^ 4300)]).pack =
        .error .unshowableNumber ∧
      Fault.unshowableNumber.kind = .unshowable := by
  refine ⟨rfl, rfl, ?_, rfl⟩
  refine raising_pack_eq_error_iff.mpr ⟨.immediateOutOfRange (10 ^ 4300), ?_, ?_⟩
  · refine .read rfl (.later (v := 0) rfl ⟨by decide, by decide⟩ (.here ?_))
    exact .overflow .immediate not_holds_immediate_pow
  · exact .unshowable rfl (le_abs_self _)

/-- Operand 2 is read before operand 0, and operand 0 of an immediate is not read. -/
example :
    (operation "add" [.name "x", .number 1, .number 32]).pack =
        .error (.invalidRegister (.number 32)) ∧
      (operation "addi" [.name "x", .number 1, .number (-1)]).pack = .ok 0x2021ffff := by
  exact ⟨rfl, rfl⟩

end Item
end MipsAssembler
