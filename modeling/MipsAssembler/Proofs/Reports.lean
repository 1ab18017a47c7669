import Mathlib
import MipsAssembler.Proofs.FaultOrigin

/-!
# Reports lose nothing

There are three ways to ask for the words of a source.  `assemble` and `assembleListing`
stop with a fault; `assembleReport` always returns, and puts a diagnostic in the place of
the fault.  This file compares the three.

A report is made by a function that cannot stop, so that it always returns needs no proof.
What does need one is that nothing is hidden by it.

* A fault that is turned into a diagnostic is one of the source.  There are four kinds of
  those, each with a word of its own; a missing operand, and whatever else would be a mistake
  of the assembler itself, is of another kind and does not occur (`exists_word_of_assemble`).
* The listing in a report is made from words that are 32 binary digits each, and reading
  such a text does not fail (`Listing.Format.linesOfText_toBinary`).
* The listing is a text, and the words can be recovered from it
  (`Listing.joined_hex_inj`).  This includes the program without words, whose listing is the
  empty text and different from that of every other program.
-/

namespace MipsAssembler

section

variable {source : String}

/-- The kind of a fault of the source, and the word that a diagnostic shows for it. -/
theorem exists_word_of_assemble {fault : Fault} (h : assemble source = .error fault) :
    ∃ word, (fault.kind, word) ∈
        [(Fault.Kind.lex, "lex"), (.reading, "syntax"), (.resolution, "resolution"),
          (.range, "range")] ∧
      fault.kind.word? = some word := by
  have hkind := (assemble_eq_error_iff.mp h).kind_mem
  cases hfault : fault.kind with
  | lex => exact ⟨"lex", by decide, rfl⟩
  | reading => exact ⟨"syntax", by decide, rfl⟩
  | resolution => exact ⟨"resolution", by decide, rfl⟩
  | range => exact ⟨"range", by decide, rfl⟩
  | _ =>
    rw [hfault] at hkind
    exact absurd hkind (by decide)

/-- An operand is never found missing. -/
theorem ne_missingOperand_of_assemble {fault : Fault} (h : assemble source = .error fault) :
    fault ≠ .missingOperand := by
  rintro rfl
  exact absurd (assemble_eq_error_iff.mp h).kind_mem (by decide)

theorem assembleListing_eq_error {fault : Fault} (h : assemble source = .error fault) :
    assembleListing source = .error fault := by
  rw [assembleListing, h]
  rfl

theorem assembleReport_of_ok {words : List Word} (h : assemble source = .ok words)
    (file : Option String) :
    assembleReport source file =
      ⟨some (Listing.joined (Listing.Format.hex.lines words)), words, []⟩ := by
  rw [assembleReport, h, Report.ofResult]

theorem assembleReport_of_error {fault : Fault} (h : assemble source = .error fault)
    (file : Option String) :
    assembleReport source file = ⟨none, [], [.ofFault fault file]⟩ := by
  rw [assembleReport, h, Report.ofResult]

/-- A report is good exactly if the source assembles. -/
theorem assembleReport_ok_iff (file : Option String) :
    (assembleReport source file).ok = true ↔ ∃ words, assemble source = .ok words := by
  rcases Outcome.ok_or_error (assemble source) with ⟨words, h⟩ | ⟨fault, h⟩
  · rw [assembleReport_of_ok h]
    exact ⟨fun _ => ⟨words, h⟩, fun _ => rfl⟩
  · rw [assembleReport_of_error h, h]
    constructor
    · intro hok
      cases hok
    · rintro ⟨_, hwords⟩
      cases hwords

end

/-- A listing is the empty text for the program without words only. -/
theorem Listing.joined_hex_eq_empty_iff {words : List Word} :
    joined (Format.hex.lines words) = "" ↔ words = [] := by
  have hnil : joined (Format.hex.lines []) = "" := rfl
  rw [← hnil]
  exact joined_hex_inj

/-- **A report says what the two ways that can fail say.**  It is good exactly if the source
assembles.  Then it has the words, no diagnostics, and the listing, which is made of the
binary texts of the words and tells programs with different words apart.  Otherwise it has
one diagnostic and nothing else: an error, with the word for the kind of the fault, which is one
of four, with its message and the file, and without a hint. -/
theorem assembleReport_agrees (source : String) (file : Option String) :
    ((assembleReport source file).ok = true ↔ ∃ words, assemble source = .ok words) ∧
    (∀ words, assemble source = .ok words →
      ∃ lines output,
        Listing.Format.hex.linesOfText (words.map Word.toBinary) = .ok lines ∧
        output = Listing.joined lines ∧ (output = "" ↔ words = []) ∧
        assembleListing source = .ok output ∧
        assembleReport source file = ⟨some output, words, []⟩ ∧
        ∀ other otherFile words', assemble other = .ok words' →
          ((assembleReport other otherFile).output = (assembleReport source file).output ↔
            words' = words)) ∧
    ∀ fault, assemble source = .error fault →
      fault ≠ .missingOperand ∧ assembleListing source = .error fault ∧
      ∃ word, (fault.kind, word) ∈
          [(Fault.Kind.lex, "lex"), (.reading, "syntax"), (.resolution, "resolution"),
            (.range, "range")] ∧
        assembleReport source file =
          ⟨none, [],
            [{ severity := "error"
               message := fault.message
               kind := some word
               hint := none
               file := file }]⟩ := by
  refine ⟨assembleReport_ok_iff file, fun words h => ?_, fun fault h => ?_⟩
  · refine ⟨_, _, Listing.Format.hex.linesOfText_toBinary words, rfl,
      Listing.joined_hex_eq_empty_iff, assembleListing_eq_ok h, assembleReport_of_ok h file, ?_⟩
    intro other otherFile words' h'
    rw [assembleReport_of_ok h, assembleReport_of_ok h', Option.some.injEq]
    exact Listing.joined_hex_inj
  · obtain ⟨word, hmem, hword⟩ := exists_word_of_assemble h
    refine ⟨ne_missingOperand_of_assemble h, assembleListing_eq_error h, word, hmem, ?_⟩
    rw [assembleReport_of_error h, ← hword]
    rfl

end MipsAssembler
