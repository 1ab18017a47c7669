import MipsAssembler.Fault
import MipsAssembler.Text.Uppercase

/-!
# Diagnostics

A diagnostic is a fault made ready to be shown: a severity, the message, and where
they are known the kind of the fault, a hint and the file.  Tokens carry no
positions, so the file is all that is said about the place.

The rendering is one line.  A file is shown whenever there is one, even if its name
is empty; a kind and a hint are shown only if they are not empty.
-/

namespace MipsAssembler

/-- A problem made ready to be shown. -/
structure Diagnostic where
  severity : String
  message : String
  kind : Option String
  hint : Option String
  file : Option String
  deriving DecidableEq, Repr, Inhabited

namespace Diagnostic

/-- The severity of everything that stops an assembly. -/
def error : String := "error"

/-- The diagnostic for a problem of a known kind. -/
def ofKind (kind : Fault.Kind) (message : String) (file hint : Option String) : Diagnostic where
  severity := error
  message := message
  kind := kind.word?
  hint := hint
  file := file

/-- The diagnostic for a fault in a file; faults come without hints. -/
def ofFault (fault : Fault) (file : Option String) : Diagnostic :=
  ofKind fault.kind fault.message file none

/-- An optional part of the line, left out when it is absent or empty. -/
def part (text : Option String) (wrap : String → String) : String :=
  match text with
  | some t => if t = "" then "" else wrap t
  | none => ""

/-- A diagnostic as one line, without a line feed at its end. -/
def render (d : Diagnostic) : String :=
  let place := match d.file with
    | some file => file ++ ": "
    | none => ""
  let kind := part d.kind fun k => "[" ++ k ++ "]"
  let hint := part d.hint fun h => "  (pista: " ++ h ++ ")"
  place ++ Text.upper d.severity ++ kind ++ ": " ++ d.message ++ hint

end Diagnostic
end MipsAssembler
