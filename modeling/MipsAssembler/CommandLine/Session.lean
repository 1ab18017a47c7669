import MipsAssembler.Assembly
import MipsAssembler.CommandLine.Arguments
import MipsAssembler.FileSystem
import MipsAssembler.Text.Newline

/-!
# Running a command line

A run reads the source, assembles it, and prints the listing or writes it to a file.
It ends with an exit code: `0` if all went well, `1` if the source has a fault, `2` if
it could not be read or the command line was not understood, and `3` if the output could
not be written.  There are three more ways to end, in which the run breaks off without an
exit code of its own.  A source whose bytes are not valid UTF-8 is not a text at all.  An
output without a name cannot even be looked for, which is noticed only when the listing is to
be written, so a source that cannot be assembled is reported first.  And a path with a null
character in it is none that the system could be asked for; this too is noticed when the path
is needed and not before.

Files are reached through a `FileAccess`, in whatever monad the caller works in.  The
program proper uses the files of the system; `run` uses a `FileSystem` and is a
function.  The body of a run is the same for both.
-/

namespace MipsAssembler
namespace CommandLine

/-- The ways to use files: a file is opened and read to its end, or opened and written. -/
structure FileAccess (m : Type → Type) where
  read : String → m (Except FileError ByteArray)
  write : String → ByteArray → m (Except FileError Unit)

/-- How a run ends. -/
inductive Ending where
  | exit (code : Nat)
  | undecodable
  | unnamedOutput
  | nullInPath
  deriving DecidableEq, Repr, Inhabited

/-- What is seen of a run. -/
structure Outcome where
  ending : Ending
  stdout : String
  stderr : String
  log : List Trace.Event
  deriving DecidableEq, Repr, Inhabited

namespace Outcome

/-- A run that ends with a code. -/
def exit (code : Nat) (stdout stderr : String) (log : List Trace.Event) : Outcome :=
  ⟨.exit code, stdout, stderr, log⟩

end Outcome

/-- The text of a source file, if its bytes are one. -/
def decodeSource (bytes : ByteArray) : Option String :=
  (String.fromUTF8? bytes).map Text.unifyNewlines

/-- The trace as far as it is shown. -/
def Settings.visible (s : Settings) (trace : List Trace.Event) : List Trace.Event :=
  if s.verbose then trace else []

/-- Whether a path has a null character in it. -/
def hasNull (path : String) : Bool := path.toList.contains '\x00'

/-- What is said about a source that cannot be read. -/
def unreadableSource (path : String) (e : FileError) : String :=
  s!"ERROR: no pude leer {path}: {e.message path}\n"

/-- What is said about an output that cannot be written. -/
def unwritableOutput (path : String) (e : FileError) : String :=
  s!"ERROR al escribir salidas: {e.message path}\n"

/-- The diagnostics of a report, one to a line. -/
def diagnosticLines (r : Report) : String :=
  String.join (r.diagnostics.map fun d => d.render ++ "\n")

section
variable {m : Type → Type} [Monad m]

/-- The listing is printed or written. -/
def deliver (access : FileAccess m) (s : Settings) (words : List Word)
    (trace : List Trace.Event) : m Outcome := do
  let lines := s.format.lines words
  match s.output with
  | none => return .exit 0 (Listing.joined lines ++ "\n") "" (s.visible trace)
  | some path =>
    if hasNull path then return ⟨.nullInPath, "", "", s.visible trace⟩
    else
      match ← access.write path (Listing.fileText lines).toUTF8 with
      | .error e => return .exit 3 "" (unwritableOutput path e) (s.visible trace)
      | .ok () => return .exit 0 "" "" (s.visible (trace ++ [.written words.length path]))

/-- A run on a source with known bytes. -/
def executeOn (access : FileAccess m) (s : Settings) (bytes : ByteArray) : m Outcome :=
  match decodeSource bytes with
  | none => return ⟨.undecodable, "", "", []⟩
  | some text =>
    let traced := assembleTraced text
    match traced.result with
    | .error fault =>
      let report := Report.ofResult (some s.source) (.error fault)
      return .exit 1 "" (diagnosticLines report) (s.visible traced.trace)
    | .ok words => deliver access s words traced.trace

/-- A run with known settings. -/
def execute (access : FileAccess m) (s : Settings) : m Outcome := do
  if hasNull s.source then return ⟨.nullInPath, "", "", []⟩
  else
    match ← access.read s.source with
    | .error e => return .exit 2 "" (unreadableSource s.source e) []
    | .ok bytes => executeOn access s bytes

/-- A run whose output has no name: it goes as far as one that prints its listing, and
breaks off where that would succeed. -/
def executeUnnamed (access : FileAccess m) (s : Settings) : m Outcome := do
  let outcome ← execute access { s with output := none }
  if outcome.ending = .exit 0 then
    return { outcome with ending := .unnamedOutput, stdout := "" }
  else
    return outcome

/-- A run of the program on its arguments. -/
def runWith (access : FileAccess m) (argv : List String) : m Outcome :=
  match understand argv with
  | .error .help => return .exit 0 helpText "" []
  | .error (.refused e) => return .exit 2 "" e.report []
  | .ok (.run settings) => execute access settings
  | .ok (.runUnnamed settings) => executeUnnamed access settings

end

/-- The files of a model. -/
def modelAccess : FileAccess (StateM FileSystem) where
  read path := return (← get).read path
  write path bytes := modifyGet fun fs => fs.write path bytes

/-- A run on a model of the files: what is seen of it, and the files afterwards. -/
def run (fs : FileSystem) (argv : List String) : Outcome × FileSystem :=
  (runWith modelAccess argv).run fs

end CommandLine
end MipsAssembler
