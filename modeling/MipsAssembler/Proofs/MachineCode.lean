import Mathlib
import MipsAssembler.Assembly
import MipsAssembler.Proofs.LinkOutcome
import MipsAssembler.Proofs.WordText

/-!
# The machine code of a source text

From the text to the words: if a text assembles, then its statements that take slots
and its words correspond one to one, and the word in a slot encodes the statement
there.  For a branch this includes that the distance in its word, counted from the
slot behind it, ends at the label it names, and for a jump that the target in its word
is where its label stands; in both cases the label is declared exactly once.

All the work is done slot by slot in `SlotWords` and pass by pass in `LinkOutcome`.
What is added here is that the stages are run one after another on the same program,
and that packing keeps the positions.
-/

namespace MipsAssembler

/-- The stages of an assembly that succeeds. -/
theorem assemble_eq_ok_iff {source : String} {words : List Word} :
    assemble source = .ok words ↔
      ∃ tokens program, Token.scan source = .ok tokens ∧ Statement.read tokens = .ok program ∧
        (link (Statement.toItems program) >>= Item.packAll) = .ok words := by
  constructor
  · intro h
    obtain ⟨tokens, hscan, h⟩ := Outcome.bind_eq_ok_iff.mp h
    obtain ⟨program, hread, h⟩ := Outcome.bind_eq_ok_iff.mp h
    exact ⟨tokens, program, hscan, hread, h⟩
  · rintro ⟨tokens, program, hscan, hread, h⟩
    refine Outcome.bind_eq_ok_iff.mpr ⟨tokens, hscan, ?_⟩
    exact Outcome.bind_eq_ok_iff.mpr ⟨program, hread, h⟩

namespace Statement

/-- The words of a program stand in its slots. -/
theorem length_words {program : List Statement} {words : List Word}
    (h : (link (toItems program) >>= Item.packAll) = .ok words) :
    words.length = (slots program).length := by
  obtain ⟨resolved, hlink, hpack⟩ := Outcome.bind_eq_ok_iff.mp h
  obtain ⟨l, hlayout, hresolved⟩ := Outcome.bind_eq_ok_iff.mp hlink
  rw [(Outcome.mapM_eq_ok_iff.mp hpack).1]
  exact length_resolve (Layout.describes_of_ofItems hlayout) hresolved

/-- The word in a slot encodes the statement in that slot. -/
theorem encodes_of_words {program : List Statement} {words : List Word}
    (h : (link (toItems program) >>= Item.packAll) = .ok words) {slot : Nat} {s : Statement}
    {w : Word} (hs : (slots program)[slot]? = some s) (hw : words[slot]? = some w) :
    s.Encodes (toItems program) slot w := by
  obtain ⟨resolved, hlink, hpack⟩ := Outcome.bind_eq_ok_iff.mp h
  obtain ⟨l, hlayout, hresolved⟩ := Outcome.bind_eq_ok_iff.mp hlink
  obtain ⟨item, hitem, houtcomes⟩ :=
    outcomes_of_resolve (Layout.describes_of_ofItems hlayout) hresolved hs
  obtain ⟨w', hw', hitemPack⟩ := (Outcome.mapM_eq_ok_iff.mp hpack).2 slot item hitem
  rw [hw] at hw'
  cases hw'
  exact houtcomes.encodes hitemPack

end Statement

/-- **The words of a text are its machine code.**  There is one word for each statement
that takes a slot.  The binary text of the word in a slot is read as the number of the
word, and the fields of this number encode the statement in that slot, among the labels of
the whole program. -/
theorem assemble_encodes (source : String) (words : List Word)
    (h : assemble source = .ok words) :
    ∃ tokens program, Token.scan source = .ok tokens ∧ Statement.read tokens = .ok program ∧
      words.length = (Statement.slots program).length ∧
      ∀ (slot : Nat) (s : Statement) (w : Word), (Statement.slots program)[slot]? = some s →
        words[slot]? = some w →
          BinaryNumeral.value? w.toBinary = some (w.toNat : Int) ∧
            s.Encodes (Statement.toItems program) slot w := by
  obtain ⟨tokens, program, hscan, hread, hwords⟩ := assemble_eq_ok_iff.mp h
  exact ⟨tokens, program, hscan, hread, Statement.length_words hwords,
    fun slot s w hs hw => ⟨w.value?_toBinary, Statement.encodes_of_words hwords hs hw⟩⟩

/-- A text with a branch forwards to the end of the program and a jump backwards, and
with every other kind of word between them. -/
theorem assemble_encodes_loop :
    let source := "start: addi $1, $0, -3\nloop: beq $1, $2, end\nadd $3, $4, $5\n" ++
      "lb $6, -8($7)\n.dw 200\nj loop\nend:"
    let words : List Word := [0x2000fffd, 0x10210004, 0x00851820, 0x80e7fff8, 0xc8000000, 0x08000001]
    assemble source = .ok words ∧
      ∃ tokens program, Token.scan source = .ok tokens ∧ Statement.read tokens = .ok program ∧
        words.length = (Statement.slots program).length ∧
        ∀ (slot : Nat) (s : Statement) (w : Word), (Statement.slots program)[slot]? = some s →
          words[slot]? = some w →
            BinaryNumeral.value? w.toBinary = some (w.toNat : Int) ∧
              s.Encodes (Statement.toItems program) slot w := by
  intro source words
  have h : assemble source = .ok words := Outcome.eq_ok_of_toOption (by decide +kernel)
  exact ⟨h, assemble_encodes source words h⟩

end MipsAssembler
