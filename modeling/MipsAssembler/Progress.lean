import MipsAssembler.Fault

/-!
# How far a pass came

A pass over a program can stop in the middle.  For its caller that is a fault and
nothing else, but the trace of a run also tells what the pass had done before it
stopped.  A `Progress` keeps both: what was reached, and the fault that ended the
pass, if one did.  `toExcept` forgets the partial result.
-/

namespace MipsAssembler

/-- What a pass had produced when it ended, and the fault that stopped it. -/
structure Progress (α : Type) where
  reached : α
  fault : Option Fault
  deriving Repr

namespace Progress

/-- The result of a pass that went through, or its fault. -/
def toExcept {α : Type} (p : Progress α) : Except Fault α :=
  match p.fault with
  | none => .ok p.reached
  | some fault => .error fault

end Progress
end MipsAssembler
