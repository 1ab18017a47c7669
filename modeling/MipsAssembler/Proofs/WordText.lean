import Mathlib
import MipsAssembler.Listing
import MipsAssembler.Proofs.BinaryReading
import MipsAssembler.Proofs.Bits.SignExtension
import MipsAssembler.Proofs.Outcome

/-!
# Words as text

A word is shown as 32 binary digits or as eight hexadecimal ones.  Padding gives only
a least length, so that the length is exact rests on the number being small enough for
it; and a hexadecimal line can also be made from the binary text of a word, by reading
that text back.  The facts proved here are that both texts have their exact length and
only digits of their base, that the binary text is read back as the number of the
word, and that the two ways to a hexadecimal line agree.  `Bits.IsBinary` says what it means
for a text to be a number in a fixed count of binary digits; there is only one such text.
Reading back needs no such count: the binary text of any integer, with a minus in front if it
is negative, is read back at every width.

A hexadecimal listing also determines its words (`Listing.joined_hex_inj`).  Padded digits
determine a number that fits them, which is seen by taking off the last digit; and no line
is empty or has a line feed in it, so a joined listing can be cut into its lines again, and
only the listing without lines is the empty text.

The digits of a number are those of the standard library, so the arguments go through
its lemmas on them; only the alphabet of the digits in a base is missing there and is
`exists_digitChar_of_mem_toDigits`.
-/

namespace MipsAssembler

/-- The digits of hexadecimal lines. -/
def hexDigits : List Char :=
  ['0', '1', '2', '3', '4', '5', '6', '7', '8', '9', 'a', 'b', 'c', 'd', 'e', 'f']

namespace Bits

/-! ## Padded digits -/

/-- Every character of a number in base `b` is one of the first `b` digits. -/
theorem exists_digitChar_of_mem_toDigits {b n : Nat} {c : Char} (hb : 1 < b)
    (h : c ∈ Nat.toDigits b n) : ∃ d < b, c = d.digitChar := by
  induction n using Nat.base_induction b hb with
  | single m hm =>
    rw [Nat.toDigits_of_lt_base hm, List.mem_singleton] at h
    exact ⟨m, hm, h⟩
  | digit m k hk hm ih =>
    rw [← Nat.toDigits_append_toDigits hb hm hk, List.mem_append] at h
    rcases h with h | h
    · exact ih h
    · rw [Nat.toDigits_of_lt_base hk, List.mem_singleton] at h
      exact ⟨k, hk, h⟩

theorem length_padded (width : Nat) (text : List Char) :
    (padded width text).length = max width text.length := by
  rw [padded, List.length_append, List.length_replicate]
  omega

theorem eq_zero_or_mem_of_mem_padded {width : Nat} {text : List Char} {c : Char}
    (h : c ∈ padded width text) : c = '0' ∨ c ∈ text := by
  rw [padded, List.mem_append] at h
  rcases h with h | h
  · exact Or.inl (List.eq_of_mem_replicate h)
  · exact Or.inr h

/-- A padded number below `b ^ width` has exactly `width` digits. -/
theorem length_padded_digits {b width x : Nat} (hb : 1 < b) (hwidth : 0 < width)
    (hx : x < b ^ width) : (padded width (digits b x)).length = width := by
  rw [length_padded]
  exact max_eq_left ((Nat.length_toDigits_le_iff hb hwidth).mpr hx)

theorem mem_padded_digits_two {width x : Nat} {c : Char} (h : c ∈ padded width (digits 2 x)) :
    c = '0' ∨ c = '1' := by
  rcases eq_zero_or_mem_of_mem_padded h with h | h
  · exact Or.inl h
  · obtain ⟨d, hd, rfl⟩ := exists_digitChar_of_mem_toDigits (by decide) h
    interval_cases d
    · exact Or.inl rfl
    · exact Or.inr rfl

theorem padded_digits_ne_nil (b width x : Nat) : padded width (digits b x) ≠ [] :=
  List.append_ne_nil_of_right_ne_nil _ Nat.toDigits_ne_nil

theorem mem_padded_digits_sixteen {width x : Nat} {c : Char}
    (h : c ∈ padded width (digits 16 x)) : c ∈ hexDigits := by
  rcases eq_zero_or_mem_of_mem_padded h with rfl | h
  · decide
  · obtain ⟨d, hd, rfl⟩ := exists_digitChar_of_mem_toDigits (by decide) h
    interval_cases d <;> decide

/-- Zeros in front do not change the value of a row of digits. -/
theorem ofDigitChars_padded_digits {b width x : Nat} (hb : 1 < b) (hb' : b ≤ 10) :
    Nat.ofDigitChars b (padded width (digits b x)) 0 = x := by
  rw [padded, Nat.ofDigitChars_append, Nat.ofDigitChars_replicate_zero, Nat.mul_zero]
  exact Nat.ofDigitChars_toDigits hb hb'

/-- The last of the padded digits is that of the remainder, and the others are those of the
quotient. -/
theorem padded_digits_succ {b width : Nat} (hb : 1 < b) (hwidth : 0 < width) (x : Nat) :
    padded (width + 1) (digits b x) =
      padded width (digits b (x / b)) ++ [(x % b).digitChar] := by
  by_cases hx : x < b
  · rw [digits, digits, Nat.toDigits_of_lt_base hx, Nat.div_eq_of_lt hx, Nat.toDigits_zero,
      Nat.mod_eq_of_lt hx, padded, padded, List.length_singleton, List.length_singleton,
      Nat.add_sub_cancel, ← List.replicate_succ', Nat.sub_add_cancel hwidth]
  · rw [digits, digits, Nat.toDigits_of_base_le hb (Nat.le_of_not_lt hx), padded, padded,
      List.length_append, List.length_singleton, Nat.add_sub_add_right, List.append_assoc]

theorem digitChar_inj : ∀ d < 16, ∀ e < 16, Nat.digitChar d = Nat.digitChar e → d = e := by
  decide

/-- Padded digits tell numbers below `b ^ width` apart. -/
theorem padded_digits_inj {b width x y : Nat} (hb : 1 < b) (hb' : b ≤ 16) (hwidth : 0 < width)
    (hx : x < b ^ width) (hy : y < b ^ width)
    (h : padded width (digits b x) = padded width (digits b y)) : x = y := by
  have hdigit {m n : Nat} (hm : m < b) (hn : n < b) (hmn : m.digitChar = n.digitChar) : m = n :=
    digitChar_inj m (hm.trans_le hb') n (hn.trans_le hb') hmn
  induction width, hwidth using Nat.le_induction generalizing x y with
  | base =>
    rw [Nat.succ_eq_add_one, zero_add, pow_one] at hx hy
    rw [digits, digits, Nat.toDigits_of_lt_base hx, Nat.toDigits_of_lt_base hy] at h
    exact hdigit hx hy (List.singleton_inj.mp h)
  | succ width hwidth ih =>
    rw [padded_digits_succ hb hwidth, padded_digits_succ hb hwidth] at h
    obtain ⟨hquotient, hremainder⟩ := List.append_inj' h rfl
    have hpos : 0 < b := Nat.zero_lt_of_lt hb
    rw [pow_succ] at hx hy
    have hdiv : x / b = y / b :=
      ih (Nat.div_lt_of_lt_mul (by rwa [mul_comm])) (Nat.div_lt_of_lt_mul (by rwa [mul_comm]))
        hquotient
    have hmod : x % b = y % b :=
      hdigit (Nat.mod_lt x hpos) (Nat.mod_lt y hpos) (List.singleton_inj.mp hremainder)
    rw [← Nat.div_add_mod x b, hdiv, hmod, Nat.div_add_mod]

theorem toList_toBinary_natCast (x width : Nat) :
    (toBinary (x : Int) width).toList = padded width (digits 2 x) := by
  rw [toBinary, if_neg (by omega), Int.natAbs_natCast, String.toList_ofList]

theorem low32_natCast {x : Nat} (h : x < 2 ^ 32) : low32 (x : Int) = x := by
  have hx : (x : Int) < (weight 32 : Int) := by exact_mod_cast h
  rw [low32, low, Int.emod_eq_of_lt (Int.natCast_nonneg x) hx, Int.toNat_natCast]

end Bits

/-! ## Reading binary digits -/

namespace BinaryNumeral

/-- The characters of a plain binary numeral. -/
def AllBinary (cs : List Char) : Prop := ∀ c ∈ cs, c = '0' ∨ c = '1'

theorem AllBinary.tail {c : Char} {cs : List Char} (h : AllBinary (c :: cs)) : AllBinary cs :=
  fun d hd => h d (List.mem_cons_of_mem c hd)

/-- Binary digits are those of a numeral of either sign. -/
theorem exists_signedDigits_of_allBinary {cs : List Char} (h : AllBinary cs) (hne : cs ≠ [])
    (negative : Bool) :
    ∃ w : SignedDigits 2, w.negative = negative ∧ SignedDigits.row w.digits = cs ∧
      w.magnitude = Nat.ofDigitChars 2 cs 0 := by
  obtain ⟨ds, rfl⟩ : ∃ ds : List (Fin 2), SignedDigits.row ds = cs := by
    refine SignedDigits.exists_row_eq fun c hc => ?_
    rcases h c hc with rfl | rfl
    · exact ⟨0, rfl⟩
    · exact ⟨1, rfl⟩
  have hds : ds ≠ [] := by
    rintro rfl
    exact hne rfl
  exact ⟨⟨negative, ds, hds⟩, rfl, rfl, (SignedDigits.ofDigitChars_row (by decide) ds).symm⟩

/-- A nonempty text of binary digits is read as the number it spells. -/
theorem value?_of_allBinary {text : String} (h : AllBinary text.toList) (hne : text.toList ≠ []) :
    value? text = some (Nat.ofDigitChars 2 text.toList 0 : Int) := by
  obtain ⟨w, hnegative, hrow, hmagnitude⟩ := exists_signedDigits_of_allBinary h hne false
  have htext : text = w.text := by
    apply String.toList_injective
    rw [SignedDigits.toList_text, hnegative, hrow]
    rfl
  rw [← hmagnitude, htext, value?_text, SignedDigits.value, hnegative]
  rfl

end BinaryNumeral

/-! ## Binary text of a fixed length -/

namespace Bits

theorem allBinary_padded_digits (width x : Nat) :
    BinaryNumeral.AllBinary (padded width (digits 2 x)) :=
  fun _ hc => mem_padded_digits_two hc

/-- The text is the number `n` in `width` binary digits. -/
structure IsBinary (width n : Nat) (text : String) : Prop where
  length_eq : text.length = width
  allBinary : BinaryNumeral.AllBinary text.toList
  value_eq : Nat.ofDigitChars 2 text.toList 0 = n

/-- Two rows of binary digits of one length, each behind a number, differ in value as soon as
they differ in a digit or in that number. -/
theorem ofDigitChars_two_inj {cs ds : List Char} {a b : Nat} (hcs : BinaryNumeral.AllBinary cs)
    (hds : BinaryNumeral.AllBinary ds) (hlength : cs.length = ds.length)
    (h : Nat.ofDigitChars 2 cs a = Nat.ofDigitChars 2 ds b) : a = b ∧ cs = ds := by
  induction cs generalizing ds a b with
  | nil =>
    obtain rfl : ds = [] := List.eq_nil_of_length_eq_zero hlength.symm
    exact ⟨h, rfl⟩
  | cons c cs ih =>
    cases ds with
    | nil => cases hlength
    | cons d ds =>
      rw [Nat.ofDigitChars_cons, Nat.ofDigitChars_cons] at h
      obtain ⟨hhead, rfl⟩ := ih hcs.tail hds.tail (Nat.succ.inj hlength) h
      -- the first digits are the parities of what stands before the rest
      rcases hcs c List.mem_cons_self with rfl | rfl <;>
        rcases hds d List.mem_cons_self with rfl | rfl <;>
        simp at hhead ⊢ <;> omega

/-- A number has one text of a given length. -/
theorem IsBinary.unique {width n : Nat} {text text' : String} (h : IsBinary width n text)
    (h' : IsBinary width n text') : text = text' := by
  have hlength : text.toList.length = text'.toList.length := by
    rw [String.length_toList, String.length_toList, h.length_eq, h'.length_eq]
  have hvalue := h.value_eq.trans h'.value_eq.symm
  exact String.toList_injective
    (ofDigitChars_two_inj h.allBinary h'.allBinary hlength hvalue).2

/-- A number that fits is shown in the digits that were asked for. -/
theorem isBinary_toBinary {width m : Nat} (hwidth : 0 < width) (hm : m < 2 ^ width) :
    IsBinary width m (toBinary (m : Int) width) where
  length_eq := by
    rw [← String.length_toList, toList_toBinary_natCast]
    exact length_padded_digits (by decide) hwidth hm
  allBinary := by
    rw [toList_toBinary_natCast]
    exact allBinary_padded_digits width m
  value_eq := by
    rw [toList_toBinary_natCast]
    exact ofDigitChars_padded_digits (by decide) (by decide)

/-! ## Reading binary text back -/

/-- Binary text is an optional minus and padded digits. -/
theorem toBinary_eq (x : Int) (n : Nat) :
    ∃ width, toBinary x n =
      String.ofList ((if x < 0 then ['-'] else []) ++ padded width (digits 2 x.natAbs)) := by
  unfold toBinary
  split
  · exact ⟨n - 1, rfl⟩
  · exact ⟨n, rfl⟩

/-- Binary text is a numeral in base two for the integer. -/
theorem exists_signedDigits_toBinary (x : Int) (n : Nat) :
    ∃ w : SignedDigits 2, toBinary x n = w.text ∧ w.value = x := by
  obtain ⟨width, htext⟩ := toBinary_eq x n
  obtain ⟨w, hnegative, hrow, hmagnitude⟩ := BinaryNumeral.exists_signedDigits_of_allBinary
    (allBinary_padded_digits width x.natAbs) (padded_digits_ne_nil 2 width x.natAbs)
    (decide (x < 0))
  rw [ofDigitChars_padded_digits (by decide) (by decide)] at hmagnitude
  refine ⟨w, ?_, ?_⟩
  · rw [htext, SignedDigits.text, hnegative, hrow]
    simp only [decide_eq_true_eq]
  · rw [SignedDigits.value, hnegative, hmagnitude]
    simp only [decide_eq_true_eq]
    split <;> omega

/-- Binary text is read back as the integer, whatever its width. -/
theorem value?_toBinary (x : Int) (n : Nat) :
    BinaryNumeral.value? (toBinary x n) = some x := by
  obtain ⟨w, htext, rfl⟩ := exists_signedDigits_toBinary x n
  rw [htext, BinaryNumeral.value?_text]

/-- The hexadecimal line for a binary text is that of its integer. -/
theorem hexOfText_toBinary_int (x : Int) (n : Nat) :
    Listing.hexOfText (toBinary x n) = .ok (hex32 x) := by
  rw [Listing.hexOfText, value?_toBinary]

/-! ## Hexadecimal text -/

theorem low32_lt (x : Int) : low32 x < 16 ^ 8 := low_lt x 32

theorem toList_hex32 (x : Int) : (hex32 x).toList = padded 8 (digits 16 (low32 x)) :=
  String.toList_ofList

theorem length_hex32 (x : Int) : (hex32 x).length = 8 := by
  rw [← String.length_toList, toList_hex32]
  exact length_padded_digits (by decide) (by decide) (low32_lt x)

theorem mem_hexDigits_of_mem_hex32 {x : Int} {c : Char} (h : c ∈ (hex32 x).toList) :
    c ∈ hexDigits := by
  rw [toList_hex32] at h
  exact mem_padded_digits_sixteen h

/-- Hexadecimal text tells as much as the low 32 bits. -/
theorem hex32_eq_iff {x y : Int} : hex32 x = hex32 y ↔ low32 x = low32 y := by
  constructor
  · intro h
    have hlist := congrArg String.toList h
    rw [toList_hex32, toList_hex32] at hlist
    exact padded_digits_inj (by decide) (by decide) (by decide) (low32_lt x) (low32_lt y) hlist
  · intro h
    rw [hex32, hex32, h]

end Bits

/-! ## The two texts of a word -/

namespace Word

/-- The binary text of a word is its number in 32 digits. -/
theorem isBinary_toBinary (w : Word) : Bits.IsBinary 32 w.toNat w.toBinary :=
  Bits.isBinary_toBinary (by decide) w.isLt

theorem length_toBinary (w : Word) : w.toBinary.length = 32 := w.isBinary_toBinary.length_eq

theorem allBinary_toBinary (w : Word) : BinaryNumeral.AllBinary w.toBinary.toList :=
  w.isBinary_toBinary.allBinary

/-- The binary text of a word is read back as its number. -/
theorem value?_toBinary (w : Word) : BinaryNumeral.value? w.toBinary = some (w.toNat : Int) :=
  Bits.value?_toBinary w.toNat 32

/-- Words with the same binary text are the same. -/
theorem toBinary_inj {w w' : Word} : w.toBinary = w'.toBinary ↔ w = w' := by
  refine ⟨fun h => ?_, congrArg toBinary⟩
  have hvalue := value?_toBinary w
  rw [h, value?_toBinary, Option.some.injEq] at hvalue
  exact BitVec.eq_of_toNat_eq (Int.ofNat.inj hvalue.symm)

/-- A hexadecimal line made from the binary text of a word is that of the word. -/
theorem hexOfText_toBinary (w : Word) : Listing.hexOfText w.toBinary = .ok w.toHex :=
  Bits.hexOfText_toBinary_int w.toNat 32

theorem length_toHex (w : Word) : w.toHex.length = 8 := Bits.length_hex32 w.toNat

theorem mem_hexDigits_of_mem_toHex {w : Word} {c : Char} (h : c ∈ w.toHex.toList) :
    c ∈ hexDigits := Bits.mem_hexDigits_of_mem_hex32 h

/-- Words with the same hexadecimal text are the same. -/
theorem toHex_inj {w w' : Word} : w.toHex = w'.toHex ↔ w = w' := by
  refine ⟨fun h => ?_, congrArg toHex⟩
  have hlow := Bits.hex32_eq_iff.mp h
  rw [Bits.low32_natCast w.isLt, Bits.low32_natCast w'.isLt] at hlow
  exact BitVec.eq_of_toNat_eq hlow

end Word

/-! ## The lines of a listing -/

namespace Listing

/-- The lines for words are those for their binary texts. -/
theorem Format.linesOfText_toBinary (format : Format) (words : List Word) :
    format.linesOfText (words.map Word.toBinary) = .ok (format.lines words) := by
  have hline (w : Word) : format.lineOfText w.toBinary = .ok (format.line w) := by
    cases format with
    | hex => exact w.hexOfText_toBinary
    | bin => rfl
  induction words with
  | nil => rfl
  | cons w words ih =>
    rw [linesOfText] at ih ⊢
    rw [List.map_cons, List.mapM_cons, hline, Outcome.ok_bind, ih]
    rfl

/-- The lines of a text that was printed without a line feed at its end; the empty text
has none. -/
def printedLines (text : String) : List (List Char) :=
  if text = "" then [] else text.toList.splitOn '\n'

/-- Lines that are joined can be told apart again. -/
theorem printedLines_joined {lines : List String} (hne : ∀ line ∈ lines, line ≠ "")
    (hnewline : ∀ line ∈ lines, '\n' ∉ line.toList) :
    printedLines (joined lines) = lines.map String.toList := by
  have hlist : (joined lines).toList = ['\n'].intercalate (lines.map String.toList) :=
    String.toList_intercalate
  cases lines with
  | nil => rfl
  | cons line rest =>
    have hsplit :
        (joined (line :: rest)).toList.splitOn '\n' = (line :: rest).map String.toList := by
      rw [hlist]
      refine List.splitOn_intercalate '\n' (fun l hl => ?_) (by simp)
      obtain ⟨line', hline', rfl⟩ := List.mem_map.mp hl
      exact hnewline line' hline'
    have htext : joined (line :: rest) ≠ "" := by
      intro hempty
      rw [hempty] at hsplit
      have hline : ([] : List Char) = line.toList := (List.cons.inj hsplit).1
      exact hne line List.mem_cons_self (String.toList_eq_nil_iff.mp hline.symm)
    rw [printedLines, if_neg htext, hsplit]

/-- The lines of a hexadecimal listing are the words. -/
theorem printedLines_hex (words : List Word) :
    printedLines (joined (Format.hex.lines words)) = words.map fun w => w.toHex.toList := by
  rw [printedLines_joined, Format.lines, List.map_map]
  · rfl
  · intro line hline hempty
    obtain ⟨w, -, rfl⟩ := List.mem_map.mp hline
    have hlength := w.length_toHex
    rw [show w.toHex = "" from hempty] at hlength
    exact absurd hlength (by decide)
  · intro line hline hmem
    obtain ⟨w, -, rfl⟩ := List.mem_map.mp hline
    exact absurd (Word.mem_hexDigits_of_mem_toHex hmem) (by decide)

/-- A hexadecimal listing determines its words, also when there are none. -/
theorem joined_hex_inj {words words' : List Word} :
    joined (Format.hex.lines words) = joined (Format.hex.lines words') ↔ words = words' := by
  refine ⟨fun h => ?_, fun h => by rw [h]⟩
  have hlines := congrArg printedLines h
  rw [printedLines_hex, printedLines_hex] at hlines
  refine List.map_injective_iff.mpr (fun w w' hw => ?_) hlines
  exact Word.toHex_inj.mp (String.toList_injective hw)

end Listing
end MipsAssembler
