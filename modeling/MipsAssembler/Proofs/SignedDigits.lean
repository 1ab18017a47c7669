import Mathlib

/-!
# Numerals taken apart

A numeral in base `b` is an optional minus and a row of digits, most significant first.
`SignedDigits b` is a numeral taken apart in this way, with digits that are numbers below `b`,
so that there is nothing in it but a numeral.  It can be put together again as a text, and it has
a value: the sum of its digits, each times the power of `b` that belongs to its place, which is
`Nat.ofDigits` of the standard library on the reversed row.

The readers of the assembler do not take a numeral apart.  They go through its characters from
left to right and multiply as they go, which is `Nat.ofDigitChars`; `ofDigitChars_row` says that
this is the same number.  What was read before a row of digits counts `b ^ k` times if there are
`k` of them (`ofDigitChars_eq_add`), and this is the one induction behind all that is said about
rows that are joined or cut.
-/

namespace MipsAssembler

/-! ## Reading a row of digits -/

/-- Digits that are read behind the number `init`. -/
theorem ofDigitChars_eq_add (b : Nat) (cs : List Char) (init : Nat) :
    Nat.ofDigitChars b cs init = b ^ cs.length * init + Nat.ofDigitChars b cs 0 := by
  induction cs generalizing init with
  | nil => simp [Nat.ofDigitChars_nil]
  | cons c cs ih =>
    rw [Nat.ofDigitChars_cons, Nat.ofDigitChars_cons, ih, ih (b * 0 + _), List.length_cons]
    ring

/-- A row of `k` digits is read as a number below `b ^ k`. -/
theorem ofDigitChars_lt {b : Nat} {cs : List Char} (h : ∀ c ∈ cs, c.toNat - '0'.toNat < b) :
    Nat.ofDigitChars b cs 0 < b ^ cs.length := by
  induction cs with
  | nil => simp [Nat.ofDigitChars_nil]
  | cons c cs ih =>
    have hc := h c List.mem_cons_self
    have hcs := ih fun d hd => h d (List.mem_cons_of_mem c hd)
    rw [Nat.ofDigitChars_cons, Nat.mul_zero, Nat.zero_add, ofDigitChars_eq_add, List.length_cons]
    calc b ^ cs.length * (c.toNat - '0'.toNat) + Nat.ofDigitChars b cs 0
        < b ^ cs.length * (c.toNat - '0'.toNat) + b ^ cs.length := Nat.add_lt_add_left hcs _
      _ = b ^ cs.length * (c.toNat - '0'.toNat + 1) := by ring
      _ ≤ b ^ cs.length * b := Nat.mul_le_mul_left _ hc
      _ = b ^ (cs.length + 1) := (pow_succ b cs.length).symm

/-! ## Numerals -/

/-- A numeral in base `b`: whether it has a minus, and its digits, of which there is at least
one. -/
structure SignedDigits (b : Nat) where
  negative : Bool
  digits : List (Fin b)
  digits_ne_nil : digits ≠ []

namespace SignedDigits

variable {b : Nat}

/-- Digits as characters. -/
def row (digits : List (Fin b)) : List Char := digits.map fun d => d.val.digitChar

/-- The numeral as a text. -/
def text (w : SignedDigits b) : String :=
  String.ofList ((if w.negative then ['-'] else []) ++ row w.digits)

/-- The number that the digits stand for by their places. -/
def magnitude (w : SignedDigits b) : Nat := Nat.ofDigits b (w.digits.reverse.map Fin.val)

/-- The number that the numeral stands for. -/
def value (w : SignedDigits b) : Int := if w.negative then -(w.magnitude : Int) else w.magnitude

@[simp] theorem length_row (digits : List (Fin b)) : (row digits).length = digits.length :=
  List.length_map _

@[simp] theorem toList_text (w : SignedDigits b) :
    w.text.toList = (if w.negative then ['-'] else []) ++ row w.digits :=
  String.toList_ofList

theorem row_ne_nil (w : SignedDigits b) : row w.digits ≠ [] := by
  simp [row, w.digits_ne_nil]

/-- Every row of characters that are digits is the row of some digits. -/
theorem exists_row_eq {cs : List Char} (h : ∀ c ∈ cs, ∃ d : Fin b, d.val.digitChar = c) :
    ∃ digits : List (Fin b), row digits = cs := by
  have hrange : cs ∈ Set.range (List.map fun d : Fin b => d.val.digitChar) := by
    rw [Set.range_list_map]
    exact h
  exact hrange

/-- Reading digits from left to right gives their value by places. -/
theorem ofDigitChars_row (hb : b ≤ 10) (digits : List (Fin b)) :
    Nat.ofDigitChars b (row digits) 0 = Nat.ofDigits b (digits.reverse.map Fin.val) := by
  induction digits with
  | nil => rfl
  | cons d digits ih =>
    have hd : d.val < 10 := d.isLt.trans_le hb
    have hcons : row (d :: digits) = d.val.digitChar :: row digits := rfl
    rw [hcons, Nat.ofDigitChars_cons_digitChar_of_lt_ten hd, ofDigitChars_eq_add, ih, length_row,
      List.map_reverse, List.map_reverse, List.map_cons, Nat.ofDigits_reverse_cons, List.length_map]
    ring

/-! ## Zeros in front -/

section Zeros

variable [NeZero b]

/-- Zeros in front of the other digits add nothing to their value by places. -/
theorem ofDigits_dropWhile_zero (digits : List (Fin b)) :
    Nat.ofDigits b ((digits.dropWhile (· = 0)).reverse.map Fin.val) =
      Nat.ofDigits b (digits.reverse.map Fin.val) := by
  induction digits with
  | nil => rfl
  | cons d digits ih =>
    by_cases hd : d = 0
    · rw [List.dropWhile_cons_of_pos (by simpa using hd), ih, hd, List.map_reverse,
        List.map_reverse, List.map_cons, Nat.ofDigits_reverse_cons, Fin.val_zero, Nat.mul_zero,
        Nat.add_zero]
    · rw [List.dropWhile_cons_of_neg (by simpa using hd)]

/-- Numerals of one sign have the same value if their digits differ only in the zeros in
front. -/
theorem value_congr {w w' : SignedDigits b} (hnegative : w.negative = w'.negative)
    (hdigits : w.digits.dropWhile (· = 0) = w'.digits.dropWhile (· = 0)) : w.value = w'.value := by
  have hmagnitude : w.magnitude = w'.magnitude := by
    rw [magnitude, magnitude, ← ofDigits_dropWhile_zero w.digits, hdigits, ofDigits_dropWhile_zero]
  rw [value, value, hnegative, hmagnitude]

end Zeros

end SignedDigits
end MipsAssembler
