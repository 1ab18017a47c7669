import MipsAssembler.Diagnostic
import MipsAssembler.Listing
import MipsAssembler.Packing
import MipsAssembler.Resolution
import MipsAssembler.Statement.Reader
import MipsAssembler.Trace

/-!
# From source text to words

The assembler is the composition of its stages: scan, read, lay out and resolve,
pack.  The first fault of any stage is the fault of the whole.

There are three ways to ask for it.  `assemble` gives the words or the fault.
`assembleTraced` does the same work and also tells what happened; the lemma
`assembleTraced_result` says that the two agree.  `assembleReport` never fails: a
fault becomes a diagnostic.
-/

namespace MipsAssembler

/-- The words of a source text. -/
def assemble (source : String) : Except Fault (List Word) := do
  let tokens ← Token.scan source
  let program ← Statement.read tokens
  let slots ← link (Statement.toItems program)
  Item.packAll slots

/-- The hexadecimal listing of a source text, without a line feed at its end. -/
def assembleListing (source : String) : Except Fault String := do
  let words ← assemble source
  return Listing.joined (Listing.Format.hex.lines words)

/-- The words of a program that was read from so many tokens, and what happened on the
way to them. -/
def assembleProgramTraced (tokens : Nat) (program : List Statement) : Run (List Word) := do
  let layout ← Run.ofProgress Trace.ofLayout (Layout.place (Statement.toItems program))
  let slots ← Run.ofProgress Trace.ofResolved (layout.table.resolveAll layout.slots)
  let words ← Run.ofExcept (Item.packAll slots)
  Run.report (.assembled tokens program.length words.length)
  return words

/-- The words of a source text, and what happened on the way to them. -/
def assembleTraced (source : String) : Run (List Word) := do
  let tokens ← Run.ofExcept (Token.scan source)
  Run.report (.scanned tokens.length)
  let program ← Run.ofExcept (Statement.read tokens)
  Run.report (.parsed program.length)
  assembleProgramTraced tokens.length program

/-- The traced assembler computes what the plain one does. -/
theorem assembleTraced_result (source : String) :
    (assembleTraced source).result = assemble source := by
  have last (r : Except Fault (List Word)) :
      (r >>= fun words => (Except.ok () : Except Fault Unit) >>= fun _ => .ok words) = r := by
    cases r <;> rfl
  simp only [assembleTraced, assembleProgramTraced, assemble, link, Layout.ofItems,
    LabelTable.resolve, bind_assoc, Run.result_bind, Run.result_ofExcept, Run.result_report,
    Run.result_ofProgress, Run.result_pure, last]
  rfl

/-! ## Reports -/

/-- The outcome of an assembly that cannot fail: words and their listing, or the
diagnostics that stand in their place. -/
structure Report where
  output : Option String
  words : List Word
  diagnostics : List Diagnostic
  deriving Repr

/-- A report is good if it has an output and no diagnostics. -/
def Report.ok (r : Report) : Bool := r.output.isSome && r.diagnostics.isEmpty

/-- The report on the words of a file, or on the fault found in it. -/
def Report.ofResult (file : Option String) : Except Fault (List Word) → Report
  | .ok words => ⟨some (Listing.joined (Listing.Format.hex.lines words)), words, []⟩
  | .error fault => ⟨none, [], [.ofFault fault file]⟩

/-- The report on a source text. -/
def assembleReport (source : String) (file : Option String) : Report :=
  .ofResult file (assemble source)

end MipsAssembler
