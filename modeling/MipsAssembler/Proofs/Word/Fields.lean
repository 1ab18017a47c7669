import Mathlib
import MipsAssembler.Proofs.Bits.SignExtension
import MipsAssembler.Word

/-!
# The fields of a word

A word is put together from bit vectors.  Whoever reads it sees a number below
`2 ^ 32` and cuts fields out of that number by division, knowing nothing of how it
was made.  `Word.field` is that reader, and the functions behind it are the fields
that the instruction formats have names for.

Two steps connect the reader with the packer.  First, joining bit vectors is
arithmetic: `toNat_ofR` and its companions write the number of a word as a sum of
its fields, each times the weight of its lowest bit.  Then the fields of such a sum
are what went into it, since every summand below a field is smaller than the weight
of the field; that is linear arithmetic with the bounds that the widths give.
-/

namespace MipsAssembler
namespace Word

/-! ## Reading a word as a number -/

/-- The number in the `width` bits of a word from bit `lowest` upwards. -/
def field (w : Word) (lowest width : Nat) : Nat := w.toNat / 2 ^ lowest % 2 ^ width

/-- The operation code, in the top six bits. -/
def opcode (w : Word) : Nat := w.field 26 6

/-- The first register field. -/
def rs (w : Word) : Nat := w.field 21 5

/-- The second register field. -/
def rt (w : Word) : Nat := w.field 16 5

/-- The third register field. -/
def rd (w : Word) : Nat := w.field 11 5

/-- The shift amount. -/
def shamt (w : Word) : Nat := w.field 6 5

/-- The function code, in the low six bits. -/
def funct (w : Word) : Nat := w.field 0 6

/-- The low 16 bits. -/
def immediate (w : Word) : Nat := w.field 0 16

/-- The low 26 bits. -/
def target (w : Word) : Nat := w.field 0 26

/-- The byte of data, in the top eight bits. -/
def byte (w : Word) : Nat := w.field 24 8

/-- What stands below the byte of data. -/
def padding (w : Word) : Nat := w.field 0 24

/-! ## The number of a word made from fields -/

/-- Joining bit vectors shifts the first one up by the width of the second. -/
theorem toNat_append_eq {m n : Nat} (x : BitVec m) (y : BitVec n) :
    (x ++ y).toNat = x.toNat * 2 ^ n + y.toNat := by
  rw [BitVec.toNat_append, ← Nat.shiftLeft_add_eq_or_of_lt y.isLt, Nat.shiftLeft_eq]

theorem toNat_ofR (rs rt rd : Register) (funct : BitVec FieldWidth.funct) :
    (ofR rs rt rd funct).toNat =
      rs.val * 2 ^ 21 + rt.val * 2 ^ 16 + rd.val * 2 ^ 11 + funct.toNat := by
  change ((0 : BitVec 6) ++ (registerField rs : BitVec 5) ++ (registerField rt : BitVec 5) ++
    (registerField rd : BitVec 5) ++ (0 : BitVec 5) ++ (funct : BitVec 6)).toNat = _
  rw [toNat_append_eq, toNat_append_eq, toNat_append_eq, toNat_append_eq, toNat_append_eq]
  change ((((0 * 2 ^ 5 + rs.val) * 2 ^ 5 + rt.val) * 2 ^ 5 + rd.val) * 2 ^ 5 + 0) * 2 ^ 6 +
    funct.toNat = _
  ring

theorem toNat_ofI (opcode : BitVec FieldWidth.opcode) (rs rt : Register)
    (immediate : BitVec FieldWidth.immediate) :
    (ofI opcode rs rt immediate).toNat =
      opcode.toNat * 2 ^ 26 + rs.val * 2 ^ 21 + rt.val * 2 ^ 16 + immediate.toNat := by
  change ((opcode : BitVec 6) ++ (registerField rs : BitVec 5) ++ (registerField rt : BitVec 5) ++
    (immediate : BitVec 16)).toNat = _
  rw [toNat_append_eq, toNat_append_eq, toNat_append_eq]
  change ((opcode.toNat * 2 ^ 5 + rs.val) * 2 ^ 5 + rt.val) * 2 ^ 16 + immediate.toNat = _
  ring

theorem toNat_ofJ (opcode : BitVec FieldWidth.opcode) (target : BitVec FieldWidth.target) :
    (ofJ opcode target).toNat = opcode.toNat * 2 ^ 26 + target.toNat :=
  toNat_append_eq opcode target

theorem toNat_ofData (byte : BitVec FieldWidth.data) :
    (ofData byte).toNat = byte.toNat * 2 ^ 24 :=
  (toNat_append_eq byte (0 : BitVec 24)).trans (Nat.add_zero _)

/-! ## The fields that went in -/

theorem fields_ofR (rs rt rd : Register) (funct : BitVec FieldWidth.funct) :
    (ofR rs rt rd funct).opcode = 0 ∧ (ofR rs rt rd funct).rs = rs.val ∧
      (ofR rs rt rd funct).rt = rt.val ∧ (ofR rs rt rd funct).rd = rd.val ∧
      (ofR rs rt rd funct).shamt = 0 ∧ (ofR rs rt rd funct).funct = funct.toNat := by
  have hrs : rs.val < 32 := rs.isLt
  have hrt : rt.val < 32 := rt.isLt
  have hrd : rd.val < 32 := rd.isLt
  have hfunct : funct.toNat < 64 := funct.isLt
  simp only [Word.opcode, Word.rs, Word.rt, Word.rd, Word.shamt, Word.funct, field, toNat_ofR]
  omega

theorem fields_ofI (opcode : BitVec FieldWidth.opcode) (rs rt : Register)
    (immediate : BitVec FieldWidth.immediate) :
    (ofI opcode rs rt immediate).opcode = opcode.toNat ∧
      (ofI opcode rs rt immediate).rs = rs.val ∧ (ofI opcode rs rt immediate).rt = rt.val ∧
      (ofI opcode rs rt immediate).immediate = immediate.toNat := by
  have hopcode : opcode.toNat < 64 := opcode.isLt
  have hrs : rs.val < 32 := rs.isLt
  have hrt : rt.val < 32 := rt.isLt
  have himmediate : immediate.toNat < 65536 := immediate.isLt
  simp only [Word.opcode, Word.rs, Word.rt, Word.immediate, field, toNat_ofI]
  omega

theorem fields_ofJ (opcode : BitVec FieldWidth.opcode) (target : BitVec FieldWidth.target) :
    (ofJ opcode target).opcode = opcode.toNat ∧ (ofJ opcode target).target = target.toNat := by
  have hopcode : opcode.toNat < 64 := opcode.isLt
  have htarget : target.toNat < 67108864 := target.isLt
  simp only [Word.opcode, Word.target, field, toNat_ofJ]
  omega

theorem fields_ofData (byte : BitVec FieldWidth.data) :
    (ofData byte).byte = byte.toNat ∧ (ofData byte).padding = 0 := by
  have hbyte : byte.toNat < 256 := byte.isLt
  simp only [Word.byte, Word.padding, field, toNat_ofData]
  omega

/-! ## A word is its fields

The fields of a format cut the word into pieces that leave nothing out. -/

theorem field_lt (w : Word) (lowest width : Nat) : w.field lowest width < 2 ^ width :=
  Nat.mod_lt _ (Nat.two_pow_pos width)

theorem toNat_eq_fieldsR (w : Word) :
    w.toNat = w.opcode * 2 ^ 26 + w.rs * 2 ^ 21 + w.rt * 2 ^ 16 + w.rd * 2 ^ 11 +
      w.shamt * 2 ^ 6 + w.funct := by
  have hw : w.toNat < 2 ^ 32 := w.isLt
  simp only [Word.opcode, Word.rs, Word.rt, Word.rd, Word.shamt, Word.funct, field]
  omega

theorem toNat_eq_fieldsI (w : Word) :
    w.toNat = w.opcode * 2 ^ 26 + w.rs * 2 ^ 21 + w.rt * 2 ^ 16 + w.immediate := by
  have hw : w.toNat < 2 ^ 32 := w.isLt
  simp only [Word.opcode, Word.rs, Word.rt, Word.immediate, field]
  omega

theorem toNat_eq_fieldsJ (w : Word) : w.toNat = w.opcode * 2 ^ 26 + w.target := by
  have hw : w.toNat < 2 ^ 32 := w.isLt
  simp only [Word.opcode, Word.target, field]
  omega

theorem toNat_eq_fieldsData (w : Word) : w.toNat = w.byte * 2 ^ 24 + w.padding := by
  have hw : w.toNat < 2 ^ 32 := w.isLt
  simp only [Word.byte, Word.padding, field]
  omega

/-! ## Integers that were cut to a field -/

/-- An integer that fits an unsigned field is the number in it. -/
theorem toNat_ofInt_of_fitsUnsigned {v : Int} {n : Nat} (h : Bits.fitsUnsigned v n = true) :
    ((BitVec.ofInt n v).toNat : Int) = v := by
  obtain ⟨hlow, hhigh⟩ := Bits.fitsUnsigned_iff.mp h
  rw [Bits.weight_eq] at hhigh
  rw [BitVec.toNat_ofInt, Int.emod_eq_of_lt hlow hhigh, Int.toNat_of_nonneg hlow]

/-- An integer that fits a signed field is the number in it, read with a sign. -/
theorem signExtend_toNat_ofInt {v : Int} {n : Nat} (h : Bits.fitsSigned v (n + 1) = true) :
    Bits.signExtend ((BitVec.ofInt (n + 1) v).toNat : Int) (n + 1) = v := by
  apply Bits.signExtend_eq_of_emod_eq h
  have hcut : ((BitVec.ofInt (n + 1) v).toNat : Int) = v % (Bits.weight (n + 1) : Int) := by
    rw [BitVec.toNat_ofInt, ← Bits.weight_eq]
    exact Bits.low_cast v (n + 1)
  rw [hcut, Int.emod_emod_of_dvd _ (dvd_refl _)]

end Word
end MipsAssembler
