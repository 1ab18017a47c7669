import Mathlib
import MipsAssembler.Listing.BinaryNumeral
import MipsAssembler.Proofs.SignedDigits

/-!
# Reading binary numerals

A word that is given as text is read generously, and this module says how generously.  What is read
is taken apart into `Parts`: a sign or none, a mark `0b` or `0B` or none, and digits.  The optional
underscores are parts too.  One belongs to the mark, and each of the others to the digit behind it,
so none can stand in front of the first digit, at the end, or next to another one.  A word spells
these parts if it is their text with blanks around it.

The reader keeps only whether there is a minus and which digits there are, which is a
`SignedDigits 2`.  So a word that spells parts is read as the value of these digits
(`value?_of_spelledBy`), and whatever else was written has no influence on it; and every plain text
that is read spells some parts (`exists_spelledBy_of_value?`).

The reader goes through the digits with one bit of memory, whether the last character was a digit.
`exists_later_of_digits` is the induction over its run: behind a digit there may be any row of later
digits, and elsewhere only one that does not begin with an underscore.
-/

namespace MipsAssembler
namespace BinaryNumeral

/-! ## Numerals taken apart -/

/-- A sign that is written out. -/
inductive Sign where
  | plus | minus
  deriving DecidableEq, Repr

def Sign.text : Sign → List Char
  | plus => ['+']
  | minus => ['-']

/-- What may stand in front of the digits: `0b` or `0B`, and perhaps an underscore. -/
structure Mark where
  capital : Bool
  underscore : Bool
  deriving DecidableEq, Repr

def Mark.text (mark : Mark) : List Char :=
  ['0', if mark.capital then 'B' else 'b'] ++ if mark.underscore then ['_'] else []

/-- A digit behind the first one, and whether there is an underscore between it and the digit
before. -/
structure LaterDigit where
  underscore : Bool
  digit : Fin 2
  deriving DecidableEq, Repr

def LaterDigit.text (d : LaterDigit) : List Char :=
  (if d.underscore then ['_'] else []) ++ [d.digit.val.digitChar]

/-- The parts of a binary numeral. -/
structure Parts where
  sign : Option Sign
  mark : Option Mark
  first : Fin 2
  later : List LaterDigit
  deriving DecidableEq, Repr

/-- The blanks of a plain text. -/
def blanks : List Char := [' ', '\t', '\n', '\r']

/-- An ASCII text without control characters, except for tabs, line feeds and carriage returns. -/
def IsPlain (text : String) : Prop :=
  ∀ c ∈ text.toList, c.toNat < 127 ∧ (32 ≤ c.toNat ∨ c ∈ blanks)

instance (text : String) : Decidable (IsPlain text) :=
  decidable_of_iff
    (text.toList.all fun c => decide (c.toNat < 127 ∧ (32 ≤ c.toNat ∨ c ∈ blanks)))
    (by simp only [IsPlain, List.all_eq_true, decide_eq_true_iff])

namespace Parts

/-- The digits with their underscores. -/
def row (p : Parts) : List Char := p.first.val.digitChar :: p.later.flatMap LaterDigit.text

/-- The numeral as it is written. -/
def text (p : Parts) : List Char := p.sign.elim [] Sign.text ++ (p.mark.elim [] Mark.text ++ p.row)

/-- The numeral without all that is optional in it. -/
def signedDigits (p : Parts) : SignedDigits 2 where
  negative := decide (p.sign = some .minus)
  digits := p.first :: p.later.map LaterDigit.digit
  digits_ne_nil := List.cons_ne_nil _ _

/-- The word is the numeral, with blanks around it. -/
def SpelledBy (p : Parts) (word : String) : Prop :=
  ∃ before after : List Char, (∀ c ∈ before, c ∈ blanks) ∧ (∀ c ∈ after, c ∈ blanks) ∧
    word.toList = before ++ p.text ++ after

end Parts

/-! ## Reading the digits -/

section Digits

variable {afterDigit : Bool} {value n : Nat} {cs : List Char}

/-- Later digits are read as if there were no underscores. -/
theorem digits_true_later (value : Nat) (later : List LaterDigit) :
    digits true value (later.flatMap LaterDigit.text) =
      some (Nat.ofDigitChars 2 (SignedDigits.row (later.map LaterDigit.digit)) value) := by
  induction later generalizing value with
  | nil => rfl
  | cons d later ih =>
    obtain ⟨underscore, digit⟩ := d
    have hrow : SignedDigits.row ((⟨underscore, digit⟩ :: later).map LaterDigit.digit) =
        digit.val.digitChar :: SignedDigits.row (later.map LaterDigit.digit) := rfl
    rw [hrow, Nat.ofDigitChars_cons]
    fin_cases digit <;> cases underscore <;> exact ih _

theorem digits_false_row (p : Parts) :
    digits false 0 p.row = some p.signedDigits.magnitude := by
  have hmagnitude : p.signedDigits.magnitude =
      Nat.ofDigitChars 2 (SignedDigits.row (p.later.map LaterDigit.digit)) p.first.val := by
    rw [SignedDigits.magnitude, ← SignedDigits.ofDigitChars_row (by decide)]
    show Nat.ofDigitChars 2 (p.first.val.digitChar :: _) 0 = _
    rw [Nat.ofDigitChars_cons_digitChar_of_lt_ten (by omega), Nat.mul_zero, Nat.zero_add]
    rfl
  rw [hmagnitude, ← digits_true_later]
  obtain ⟨sign, mark, first, later⟩ := p
  fin_cases first <;> rfl

/-- A run of the reader that ends well has gone over a row of digits. -/
theorem exists_later_of_digits (h : digits afterDigit value cs = some n) :
    ∃ later : List LaterDigit, cs = later.flatMap LaterDigit.text ∧
      (afterDigit = false → ∃ digit rest, later = ⟨false, digit⟩ :: rest) := by
  fun_induction digits afterDigit value cs with
  | case1 value => exact ⟨[], rfl, fun hfalse => by cases hfalse⟩
  | case2 => cases h
  | case3 afterDigit value cs ih =>
    obtain ⟨later, rfl, -⟩ := ih h
    exact ⟨⟨false, 0⟩ :: later, rfl, fun _ => ⟨0, later, rfl⟩⟩
  | case4 afterDigit value cs ih =>
    obtain ⟨later, rfl, -⟩ := ih h
    exact ⟨⟨false, 1⟩ :: later, rfl, fun _ => ⟨1, later, rfl⟩⟩
  | case5 value cs ih =>
    -- the underscore goes to the digit behind it
    obtain ⟨later, rfl, hfirst⟩ := ih h
    obtain ⟨digit, rest, rfl⟩ := hfirst rfl
    exact ⟨⟨true, digit⟩ :: rest, rfl, fun hfalse => by cases hfalse⟩
  | case6 => cases h
  | case7 => cases h

end Digits

/-! ## The mark and the sign -/

section Reader

variable {cs : List Char} {n : Nat} {v : Int}

/-- The mark is skipped.  Without one, the digits are not taken for one, since a `b` cannot come
second. -/
theorem magnitude?_mark (p : Parts) :
    magnitude? (p.mark.elim [] Mark.text ++ p.row) = digits false 0 p.row := by
  obtain ⟨sign, mark, first, later⟩ := p
  cases mark with
  | none =>
    rcases later with _ | ⟨⟨underscore, digit⟩, later⟩
    · fin_cases first <;> rfl
    · fin_cases first <;> cases underscore <;> fin_cases digit <;> rfl
  | some mark =>
    obtain ⟨capital, underscore⟩ := mark
    cases capital <;> cases underscore <;> fin_cases first <;> rfl

theorem exists_mark_of_magnitude? (h : magnitude? cs = some n) :
    ∃ (mark : Option Mark) (ds : List Char),
      cs = mark.elim [] Mark.text ++ ds ∧ digits false 0 ds = some n := by
  unfold magnitude? at h
  split at h
  · exact ⟨some ⟨false, true⟩, _, rfl, h⟩
  · exact ⟨some ⟨true, true⟩, _, rfl, h⟩
  · exact ⟨some ⟨false, false⟩, _, rfl, h⟩
  · exact ⟨some ⟨true, false⟩, _, rfl, h⟩
  · exact ⟨none, _, rfl, h⟩

theorem signed?_minus (cs : List Char) :
    signed? ('-' :: cs) = (magnitude? cs).map fun m : Nat => -(m : Int) := by
  rw [signed?]
  cases magnitude? cs <;> rfl

/-- The text of a numeral is read as its value. -/
theorem signed?_text (p : Parts) : signed? p.text = some p.signedDigits.value := by
  have hread : magnitude? (p.mark.elim [] Mark.text ++ p.row) = some p.signedDigits.magnitude :=
    (magnitude?_mark p).trans (digits_false_row p)
  obtain ⟨sign, mark, first, later⟩ := p
  cases sign with
  | none =>
    -- the text begins with a zero or with the first digit, which is not a sign
    have hsign : signed? (mark.elim [] Mark.text ++ Parts.row ⟨none, mark, first, later⟩) =
        (magnitude? (mark.elim [] Mark.text ++ Parts.row ⟨none, mark, first, later⟩)).map
          Int.ofNat := by
      cases mark with
      | none => fin_cases first <;> rfl
      | some mark => rfl
    exact hsign.trans (congrArg (Option.map Int.ofNat) hread)
  | some sign =>
    cases sign with
    | plus => exact congrArg (Option.map Int.ofNat) hread
    | minus => exact (signed?_minus _).trans (congrArg (Option.map fun m : Nat => -(m : Int)) hread)

theorem exists_sign_of_signed? (h : signed? cs = some v) :
    ∃ (sign : Option Sign) (ds : List Char) (n : Nat),
      cs = sign.elim [] Sign.text ++ ds ∧ magnitude? ds = some n := by
  unfold signed? at h
  split at h
  · next ds =>
    rcases hds : magnitude? ds with _ | n
    · rw [hds] at h
      cases h
    · exact ⟨some .minus, ds, n, rfl, hds⟩
  · next ds =>
    obtain ⟨n, hds, -⟩ := Option.map_eq_some_iff.mp h
    exact ⟨some .plus, ds, n, rfl, hds⟩
  · obtain ⟨n, hcs, -⟩ := Option.map_eq_some_iff.mp h
    exact ⟨none, cs, n, rfl, hcs⟩

/-- Only the texts of numerals are read. -/
theorem exists_text_of_signed? (h : signed? cs = some v) : ∃ p : Parts, p.text = cs := by
  obtain ⟨sign, ds, n, rfl, hmagnitude⟩ := exists_sign_of_signed? h
  obtain ⟨mark, ds, rfl, hdigits⟩ := exists_mark_of_magnitude? hmagnitude
  obtain ⟨later, rfl, hfirst⟩ := exists_later_of_digits hdigits
  obtain ⟨first, later, rfl⟩ := hfirst rfl
  exact ⟨⟨sign, mark, first, later⟩, rfl⟩

end Reader

/-! ## Blanks around a numeral -/

section Blanks

variable {before after cs ds : List Char} {c : Char} {word : String}

theorem dropWhile_isSpace_eq_self (h : ∀ c ∈ cs.head?, isSpace c = false) :
    cs.dropWhile isSpace = cs := by
  cases cs with
  | nil => rfl
  | cons c cs =>
    rw [List.dropWhile_cons_of_neg]
    simp [h c rfl]

theorem strip_append (hbefore : ∀ c ∈ before, isSpace c = true)
    (hafter : ∀ c ∈ after, isSpace c = true) (hne : ds ≠ [])
    (hds : ∀ c ∈ ds, isSpace c = false) : strip (before ++ ds ++ after) = ds := by
  have hfront : (ds ++ after).dropWhile isSpace = ds ++ after := by
    refine dropWhile_isSpace_eq_self fun c hc => hds c (List.mem_of_mem_head? ?_)
    rwa [List.head?_append_of_ne_nil ds hne] at hc
  have hback : ds.reverse.dropWhile isSpace = ds.reverse :=
    dropWhile_isSpace_eq_self fun c hc => hds c (List.mem_reverse.mp (List.mem_of_mem_head? hc))
  have hafter : ∀ c ∈ after.reverse, isSpace c = true :=
    fun c hc => hafter c (List.mem_reverse.mp hc)
  rw [strip, List.append_assoc, List.dropWhile_append_of_pos hbefore, hfront, List.reverse_append,
    List.dropWhile_append_of_pos hafter, hback, List.reverse_reverse]

theorem exists_eq_append_strip (cs : List Char) :
    ∃ before after, (∀ c ∈ before, isSpace c = true) ∧ (∀ c ∈ after, isSpace c = true) ∧
      cs = before ++ strip cs ++ after := by
  refine ⟨cs.takeWhile isSpace, (cs.dropWhile isSpace).rtakeWhile isSpace,
    fun c => List.mem_takeWhile_imp, fun c => List.mem_rtakeWhile_imp, ?_⟩
  show cs = cs.takeWhile isSpace ++ (cs.dropWhile isSpace).rdropWhile isSpace ++ _
  rw [List.append_assoc, List.rdropWhile_append_rtakeWhile, List.takeWhile_append_dropWhile]

theorem isSpace_of_mem_blanks (h : c ∈ blanks) : isSpace c = true := by
  simp only [blanks, List.mem_cons, List.not_mem_nil, or_false] at h
  rcases h with rfl | rfl | rfl | rfl <;> rfl

/-- The reader knows two more blanks, but they are not in a plain text. -/
theorem IsPlain.mem_blanks (h : IsPlain word) (hc : c ∈ word.toList) (hspace : isSpace c = true) :
    c ∈ blanks := by
  rcases (h c hc).2 with hprintable | hblank
  · have hcases : c = ' ' ∨ ('\x09' ≤ c ∧ c ≤ '\x0d') := by simpa [isSpace] using hspace
    rcases hcases with rfl | ⟨-, hhigh⟩
    · decide
    · have hhigh : c.toNat ≤ 13 := hhigh
      omega
  · exact hblank

/-- The characters of numerals. -/
def alphabet : List Char := ['+', '-', '0', '1', 'b', 'B', '_']

theorem digitChar_mem_alphabet (d : Fin 2) : d.val.digitChar ∈ alphabet := by
  fin_cases d <;> decide

theorem Sign.text_subset (sign : Sign) : sign.text ⊆ alphabet := by
  cases sign <;> decide

theorem Mark.text_subset (mark : Mark) : mark.text ⊆ alphabet := by
  obtain ⟨capital, underscore⟩ := mark
  cases capital <;> cases underscore <;> decide

theorem LaterDigit.text_subset (d : LaterDigit) : d.text ⊆ alphabet := by
  refine List.append_subset.mpr ⟨?_, List.cons_subset.mpr ⟨?_, List.nil_subset alphabet⟩⟩
  · split <;> decide
  · exact digitChar_mem_alphabet d.digit

theorem Parts.text_subset (p : Parts) : p.text ⊆ alphabet := by
  refine List.append_subset.mpr ⟨?_, List.append_subset.mpr ⟨?_, List.cons_subset.mpr ⟨?_, ?_⟩⟩⟩
  · cases p.sign with
    | none => exact List.nil_subset alphabet
    | some sign => exact sign.text_subset
  · cases p.mark with
    | none => exact List.nil_subset alphabet
    | some mark => exact mark.text_subset
  · exact digitChar_mem_alphabet p.first
  · intro c hc
    obtain ⟨d, -, hd⟩ := List.mem_flatMap.mp hc
    exact d.text_subset hd

theorem Parts.isSpace_eq_false_of_mem_text {p : Parts} (h : c ∈ p.text) : isSpace c = false := by
  have halphabet : alphabet.all fun c => !isSpace c := by decide
  simpa using List.all_eq_true.mp halphabet c (p.text_subset h)

end Blanks

/-! ## The texts that are read -/

section Words

variable {word : String}

/-- A word that spells a numeral is read as its value. -/
theorem value?_of_spelledBy {p : Parts} (h : p.SpelledBy word) :
    value? word = some p.signedDigits.value := by
  obtain ⟨before, after, hbefore, hafter, hword⟩ := h
  have hne : p.text ≠ [] := by
    apply List.append_ne_nil_of_right_ne_nil
    exact List.append_ne_nil_of_right_ne_nil _ (List.cons_ne_nil _ _)
  have hstrip : strip (before ++ p.text ++ after) = p.text :=
    strip_append (fun c hc => isSpace_of_mem_blanks (hbefore c hc))
      (fun c hc => isSpace_of_mem_blanks (hafter c hc)) hne
      fun c => Parts.isSpace_eq_false_of_mem_text
  rw [value?, hword, hstrip, signed?_text]

/-- A plain text that is read spells a numeral. -/
theorem exists_spelledBy_of_value? {v : Int} (hplain : IsPlain word) (h : value? word = some v) :
    ∃ p : Parts, p.SpelledBy word := by
  obtain ⟨before, after, hbefore, hafter, hword⟩ := exists_eq_append_strip word.toList
  obtain ⟨p, hp⟩ := exists_text_of_signed? h
  refine ⟨p, before, after, fun c hc => ?_, fun c hc => ?_, hp ▸ hword⟩
  · refine hplain.mem_blanks ?_ (hbefore c hc)
    rw [hword]
    exact List.mem_append_left _ (List.mem_append_left _ hc)
  · refine hplain.mem_blanks ?_ (hafter c hc)
    rw [hword]
    exact List.mem_append_right _ hc

/-- Digits behind a minus or nothing are parts without anything optional in them. -/
theorem exists_parts_eq (w : SignedDigits 2) :
    ∃ p : Parts, p.text = w.text.toList ∧ p.signedDigits = w := by
  obtain ⟨negative, digits, hne⟩ := w
  obtain ⟨first, later, rfl⟩ := List.exists_cons_of_ne_nil hne
  refine ⟨⟨if negative then some .minus else none, none, first,
    later.map fun d => ⟨false, d⟩⟩, ?_, ?_⟩
  · have hlater : (later.map fun d => (⟨false, d⟩ : LaterDigit)).flatMap LaterDigit.text =
        SignedDigits.row later := by
      rw [List.flatMap_map]
      exact List.flatMap_pure_eq_map _ _
    rw [SignedDigits.toList_text, Parts.text, Parts.row, hlater]
    cases negative <;> rfl
  · have hdigits : (later.map fun d => (⟨false, d⟩ : LaterDigit)).map LaterDigit.digit = later := by
      rw [List.map_map]
      exact List.map_id later
    simp only [Parts.signedDigits, hdigits]
    cases negative <;> rfl

theorem value?_text (w : SignedDigits 2) : value? w.text = some w.value := by
  obtain ⟨p, htext, hvalue⟩ := exists_parts_eq w
  have hspelled : p.SpelledBy w.text := by
    refine ⟨[], [], by simp, by simp, ?_⟩
    rw [htext, List.nil_append, List.append_nil]
  rw [value?_of_spelledBy hspelled, hvalue]

end Words

end BinaryNumeral
end MipsAssembler
