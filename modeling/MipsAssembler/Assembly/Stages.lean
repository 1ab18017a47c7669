import MipsAssembler.Assembly

/-!
# Intermediate results

For inspection it is useful to see what every stage of an assembly produced, up to
the one that failed.  `stages` runs them one after another and keeps their results in
order; the fault, if there is one, belongs to the stage behind the last result.
-/

namespace MipsAssembler

/-- What one stage of an assembly produced. -/
inductive Stage where
  | tokens (tokens : List Token)
  | statements (program : List Statement)
  | layout (layout : Layout)
  | resolved (slots : List Item)
  | words (words : List Word)
  | listing (lines : List String)

/-- The results of the stages that succeeded, and the fault of the one that did not. -/
structure Stages where
  done : List Stage
  fault : Option Fault

namespace Stages

/-- All stages went through. -/
def complete : Stages := ⟨[], none⟩

/-- A stage with its result, followed by the stages that need it. -/
def step {α : Type} (result : Except Fault α) (stage : α → Stage) (next : α → Stages) : Stages :=
  match result with
  | .error fault => ⟨[], some fault⟩
  | .ok a =>
    let rest := next a
    ⟨stage a :: rest.done, rest.fault⟩

end Stages

/-- The results of all stages of an assembly, with the hexadecimal listing last. -/
def stages (source : String) : Stages :=
  Stages.step (Token.scan source) .tokens fun tokens =>
  Stages.step (Statement.read tokens) .statements fun program =>
  Stages.step (Layout.ofItems (Statement.toItems program)) .layout fun layout =>
  Stages.step (layout.table.resolve layout.slots) .resolved fun slots =>
  Stages.step (Item.packAll slots) .words fun words =>
  Stages.step (.ok (Listing.Format.hex.lines words)) .listing fun _ =>
  Stages.complete

end MipsAssembler
