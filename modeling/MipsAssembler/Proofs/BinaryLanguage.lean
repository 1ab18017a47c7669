import Mathlib
import MipsAssembler.Proofs.FieldText

/-!
# The texts that have a hexadecimal line

The line for a word that is given as text is that of the integer that the text spells in binary.
How such a text may be written is said by `BinaryNumeral.Parts`.  Here this is turned into a
statement about lines: which texts have one, which line it is, and when two texts have the same.
A line shows the remainder of the integer on division by `2 ^ 32` and nothing else, so the number of
digits in the text does not matter, nor do the parts of it that do not belong to the value.
-/

namespace MipsAssembler

/-! ## Eight hexadecimal digits -/

namespace Bits

theorem low32_cast (v : Int) : (low32 v : Int) = v % 2 ^ 32 := low_cast v 32

theorem isHexText_hex32 (v : Int) : Listing.IsHexText (hex32 v) :=
  ⟨length_hex32 v, fun _ => mem_hexDigits_of_mem_hex32⟩

/-- The digits of a hexadecimal line stand for the remainder on division by `2 ^ 32`. -/
theorem exists_row_hex32 (v : Int) :
    ∃ ds : List (Fin 16), (hex32 v).toList = SignedDigits.row ds ∧
      ((Nat.ofDigits 16 (ds.reverse.map Fin.val) : Nat) : Int) = v % 2 ^ 32 := by
  obtain ⟨ds, hlength, hds, hlt⟩ := (isHexText_hex32 v).exists_row
  refine ⟨ds, hds.symm, ?_⟩
  have hpadded := padded_digits_row (by decide) (List.ne_nil_of_length_eq_add_one hlength)
  rw [hlength, hds, toList_hex32] at hpadded
  have hlt : Nat.ofDigits 16 (ds.reverse.map Fin.val) < 16 ^ 8 := hlt
  rw [← low32_cast,
    padded_digits_inj (by decide) (by decide) (by decide) (low32_lt v) hlt hpadded.symm]

end Bits

/-! ## The language of hexadecimal listings -/

namespace Listing

open BinaryNumeral

section Language

variable {word : String} {p : Parts}

theorem hexOfText_of_spelledBy (h : p.SpelledBy word) :
    hexOfText word = .ok (Bits.hex32 p.signedDigits.value) := by
  rw [hexOfText, value?_of_spelledBy h]

theorem hexOfText_of_not_spelled (hword : IsPlain word) (h : ¬ ∃ p : Parts, p.SpelledBy word) :
    hexOfText word = .error ⟨word⟩ := by
  rw [hexOfText]
  rcases hvalue : value? word with _ | v
  · rfl
  · exact absurd (exists_spelledBy_of_value? hword hvalue) h

theorem hexOfText_eq_ok_iff {line : String} (hword : IsPlain word) :
    hexOfText word = .ok line ↔
      ∃ p : Parts, p.SpelledBy word ∧ line = Bits.hex32 p.signedDigits.value := by
  constructor
  · intro h
    by_cases hspelled : ∃ p : Parts, p.SpelledBy word
    · obtain ⟨p, hp⟩ := hspelled
      exact ⟨p, hp, Except.ok.inj (h.symm.trans (hexOfText_of_spelledBy hp))⟩
    · cases h.symm.trans (hexOfText_of_not_spelled hword hspelled)
  · rintro ⟨p, hp, rfl⟩
    exact hexOfText_of_spelledBy hp

theorem hexOfText_eq_error_iff (hword : IsPlain word) :
    hexOfText word = .error ⟨word⟩ ↔ ¬ ∃ p : Parts, p.SpelledBy word := by
  refine ⟨?_, hexOfText_of_not_spelled hword⟩
  rintro h ⟨p, hp⟩
  cases h.symm.trans (hexOfText_of_spelledBy hp)

theorem hexOfText_eq_iff {word' : String} {p' : Parts} (h : p.SpelledBy word)
    (h' : p'.SpelledBy word') :
    hexOfText word = hexOfText word' ↔
      p.signedDigits.value % 2 ^ 32 = p'.signedDigits.value % 2 ^ 32 := by
  rw [hexOfText_of_spelledBy h, hexOfText_of_spelledBy h', Except.ok.injEq, Bits.hex32_eq_iff,
    ← Int.natCast_inj, Bits.low32_cast, Bits.low32_cast]

/-- **The words that have a hexadecimal line, and their lines.**  A plain text has one exactly if,
but for blanks around it, it is an optional sign, an optional mark with an optional underscore, and
binary digits with no more than one underscore between two of them; any other is refused and named
in the fault.  The line is that of the number that the digits spell with their sign: eight
hexadecimal digits for its remainder on division by `2 ^ 32`.  So words have the same line if they
agree in their minus and in their digits from the first one that is not a zero, and it does not
matter what else is written; and in general they have the same line exactly if their values have
the same remainder. -/
theorem hexOfText_language (word : String) (hword : IsPlain word) :
    (∀ line, hexOfText word = .ok line ↔
      ∃ p : Parts, p.SpelledBy word ∧ line = Bits.hex32 p.signedDigits.value) ∧
    (hexOfText word = .error ⟨word⟩ ↔ ¬ ∃ p : Parts, p.SpelledBy word) ∧
    ∀ p : Parts, p.SpelledBy word →
      (∃ line, hexOfText word = .ok line ∧ IsHexText line ∧
        ∃ ds : List (Fin 16), line.toList = SignedDigits.row ds ∧
          ((Nat.ofDigits 16 (ds.reverse.map Fin.val) : Nat) : Int) =
            p.signedDigits.value % 2 ^ 32) ∧
      ∀ (word' : String) (p' : Parts), p'.SpelledBy word' →
        (p.signedDigits.negative = p'.signedDigits.negative →
          p.signedDigits.digits.dropWhile (· = 0) = p'.signedDigits.digits.dropWhile (· = 0) →
          hexOfText word = hexOfText word') ∧
        (hexOfText word = hexOfText word' ↔
          p.signedDigits.value % 2 ^ 32 = p'.signedDigits.value % 2 ^ 32) := by
  refine ⟨fun line => hexOfText_eq_ok_iff hword, hexOfText_eq_error_iff hword, fun p hp => ?_⟩
  refine ⟨?_, fun word' p' hp' => ⟨fun hnegative hdigits => ?_, hexOfText_eq_iff hp hp'⟩⟩
  · exact ⟨_, hexOfText_of_spelledBy hp, Bits.isHexText_hex32 _, Bits.exists_row_hex32 _⟩
  · rw [hexOfText_eq_iff hp hp', SignedDigits.value_congr hnegative hdigits]

/-- All that is optional at once, in front of minus five; and an underscore too many. -/
theorem hexOfText_language_marked :
    IsPlain " \t-0B_1_01\r\n" ∧ hexOfText " \t-0B_1_01\r\n" = .ok "fffffffb" ∧
      hexOfText " \t-0B_1_01\r\n" = hexOfText "-00101" ∧
      IsPlain "0b__1" ∧ ¬ ∃ p : Parts, p.SpelledBy "0b__1" := by
  have hplain : IsPlain " \t-0B_1_01\r\n" := by decide +kernel
  have hplain' : IsPlain "0b__1" := by decide +kernel
  have hmarked : (⟨some .minus, some ⟨true, true⟩, 1, [⟨true, 0⟩, ⟨false, 1⟩]⟩ : Parts).SpelledBy
      " \t-0B_1_01\r\n" :=
    ⟨[' ', '\t'], ['\r', '\n'], by simp [blanks], by simp [blanks], by decide +kernel⟩
  have hbare : (⟨some .minus, none, 0, [⟨false, 0⟩, ⟨false, 1⟩, ⟨false, 0⟩, ⟨false, 1⟩]⟩ :
      Parts).SpelledBy "-00101" :=
    ⟨[], [], by simp, by simp, by decide +kernel⟩
  obtain ⟨hok, -, hresult⟩ := hexOfText_language _ hplain
  refine ⟨hplain, (hok _).mpr ⟨_, hmarked, by decide +kernel⟩, ?_, hplain', ?_⟩
  · exact ((hresult _ hmarked).2 _ _ hbare).1 rfl (by decide)
  · exact (hexOfText_language _ hplain').2.1.mp rfl

end Language

end Listing
end MipsAssembler
