import MipsAssembler.Layout

/-!
# The trace of a run

A run can be traced.  The scanner and the reader report one event each when they are
done; placing labels reports every label, and resolving references every branch, as
it happens; and the whole run reports its totals at the end.  A stage that fails
leaves the events it had reported, so the trace of a failed run shows how far it
came.

A `Run` is a result together with its trace, and runs compose: the second one starts
only if the first succeeded, and its events follow.  The two passes over items are
brought in by `ofProgress`, which reads their events off what they reached.
-/

namespace MipsAssembler
namespace Trace

/-- How important an event is. -/
inductive Level where
  | debug | info
  deriving DecidableEq, Repr, Inhabited

/-- The part of the assembler that reports an event. -/
inductive Channel where
  | scanner | reader | linker | assembler
  deriving DecidableEq, Repr, Inhabited

/-- Something that happened during a run. -/
inductive Event where
  | scanned (tokens : Nat)
  | parsed (statements : Nat)
  | placed (label : String) (slot : Int)
  | branched (slot : Nat) (distance : Int)
  | assembled (tokens statements words : Nat)
  | written (words : Nat) (path : String)
  deriving DecidableEq, Repr, Inhabited

/-- The word for a level. -/
def Level.name : Level → String
  | debug => "DEBUG"
  | info => "INFO"

namespace Event

/-- Only the writing of a file is more than a detail. -/
def level : Event → Level
  | written .. => .info
  | _ => .debug

/-- Who reports an event. -/
def channel : Event → Channel
  | scanned _ => .scanner
  | parsed _ => .reader
  | placed .. | branched .. => .linker
  | assembled .. | written .. => .assembler

/-- An event as a line of text. -/
def message : Event → String
  | scanned tokens => s!"tokenize: {tokens} tokens"
  | parsed statements => s!"parse: {statements} símbolos"
  | placed label slot => s!"etiqueta {label} -> pc {slot}"
  | branched slot distance => s!"beq en pc {slot} -> offset {distance}"
  | assembled tokens statements words =>
    s!"assemble: {tokens} tokens, {statements} símbolos, {words} palabras"
  | written words path => s!"{words} palabras -> {path}"

end Event

/-- The labels that a layout has placed, in the order in which that happened. -/
def ofLayout (layout : Layout) : List Event :=
  layout.table.entries.reverse.map fun entry => .placed entry.1 entry.2

/-- The event of a resolved item in a slot, if it is a branch. -/
def resolvedBranch? (slot : Nat) : Item → Option Event
  | .operation name [_, _, .number distance] =>
    if name = Mnemonic.beq.name then some (.branched slot distance) else none
  | _ => none

/-- The branches among the resolved items, in the order of their slots. -/
def ofResolved (items : List Item) : List Event :=
  items.zipIdx.filterMap fun entry => resolvedBranch? entry.2 entry.1

end Trace

/-- A result and the events that were reported on the way to it. -/
structure Run (α : Type) where
  trace : List Trace.Event
  result : Except Fault α

namespace Run

/-- A step that reports nothing. -/
def ofExcept {α : Type} (result : Except Fault α) : Run α := ⟨[], result⟩

/-- A report. -/
def report (event : Trace.Event) : Run Unit := ⟨[event], .ok ()⟩

/-- A pass whose events are read off what it reached. -/
def ofProgress {α : Type} (events : α → List Trace.Event) (p : Progress α) : Run α :=
  ⟨events p.reached, p.toExcept⟩

/-- One run after another. -/
def andThen {α β : Type} (first : Run α) (next : α → Run β) : Run β :=
  match first.result with
  | .error fault => ⟨first.trace, .error fault⟩
  | .ok a =>
    let second := next a
    ⟨first.trace ++ second.trace, second.result⟩

instance : Monad Run where
  pure a := ⟨[], .ok a⟩
  bind := andThen

@[simp] theorem result_pure {α : Type} (a : α) : (pure a : Run α).result = .ok a := rfl

@[simp] theorem result_ofExcept {α : Type} (result : Except Fault α) :
    (ofExcept result).result = result := rfl

@[simp] theorem result_report (event : Trace.Event) : (report event).result = .ok () := rfl

@[simp] theorem result_ofProgress {α : Type} (events : α → List Trace.Event) (p : Progress α) :
    (ofProgress events p).result = p.toExcept := rfl

/-- Tracing does not change what a run computes. -/
@[simp] theorem result_bind {α β : Type} (first : Run α) (next : α → Run β) :
    (first >>= next).result = first.result >>= fun a => (next a).result := by
  change (andThen first next).result = _
  unfold andThen
  cases first.result <;> rfl

end Run
end MipsAssembler
