import MipsAssembler.CommandLine.Usage
import MipsAssembler.Text.DecimalDigit

/-!
# Understanding arguments

Arguments are understood in two steps.

First every argument is classified by itself.  A double dash ends the switches: it is a
separator, and all behind it is plain.  An argument that begins with a dash is a switch
if it is spelled like one, or like one followed by an equals sign and a text, or if it
is the beginning of exactly one long spelling, or if it begins with a short spelling; a
short spelling may be followed directly by a text.  What begins with a dash and is no
switch is still plain if it looks like a negative number or contains a space, and a lone
dash is plain too.  A beginning of several long spellings is refused here, before
anything is done.

Then the classified arguments are gone through from left to right.  A text attached to a
switch is its value if the switch takes one.  Otherwise, if the switch is spelled short,
the text is read as further letters, each a switch of its own, and whether an equals sign
stood before it makes no difference.  A switch that takes a value and has no text takes
the next argument, if that is plain.  The first plain argument that is left is the
source, and a separator directly before or behind it belongs to it; all others are
strays.  Asking for help ends the matter at once, and so does an error, so what comes
later is not looked at.  Only at the end are a missing source and then the strays
reported.

An attached value that is nothing but a double dash counts as no value at all.  The switch
has then been given, but with nothing: the form of the listing is no longer hexadecimal,
so it is binary, and there is an output to be written, but no name for it.
-/

namespace MipsAssembler
namespace CommandLine

/-! ## Classification -/

/-- A switch in an argument, how it is spelled, and the text attached to it. -/
structure SwitchUse where
  switch : Switch
  short : Bool
  attached : Option (List Char)
  deriving DecidableEq, Repr, Inhabited

/-- An argument by itself. -/
inductive Argument where
  | plain (text : String)
  | separator
  | use (u : SwitchUse)
  | unknown (text : String)
  deriving DecidableEq, Repr, Inhabited

/-- Whether a text looks like a negative number: a minus and digits, or a minus and a
decimal fraction.  One line feed may follow. -/
def looksNegative (cs : List Char) : Bool :=
  let body := if cs.getLast? = some '\n' then cs.dropLast else cs
  match body with
  | '-' :: rest =>
    let fraction := rest.dropWhile Text.isDecimalDigit
    match fraction with
    | [] => !rest.isEmpty
    | '.' :: digits => !digits.isEmpty && digits.all Text.isDecimalDigit
    | _ => false
  | _ => false

/-- An argument that begins with a dash and is no switch. -/
def dashed (text : String) : Argument :=
  if looksNegative text.toList || text.toList.contains ' ' then .plain text else .unknown text

/-- The part of a text before its first equals sign. -/
def beforeEquals (cs : List Char) : List Char := cs.takeWhile (· != '=')

/-- The part of a text behind its first equals sign, if it has one. -/
def behindEquals (cs : List Char) : Option (List Char) :=
  match cs.dropWhile (· != '=') with
  | '=' :: text => some text
  | _ => none

/-- An argument that begins with two dashes, and may abbreviate a long spelling. -/
def classifyLong (text : String) : Except UsageError Argument :=
  let cs := text.toList
  let candidates := Switch.all.filter fun s => (beforeEquals cs).isPrefixOf s.long.toList
  match candidates with
  | [] => .ok (dashed text)
  | [s] => .ok (.use ⟨s, false, behindEquals cs⟩)
  | several => .error (.ambiguousAbbreviation text (several.map Switch.long))

/-- An argument that begins with one dash, where `c` is the next character and `cs` what
follows. -/
def classifyShort (text : String) (c : Char) (cs : List Char) : Argument :=
  match Switch.ofLetter? c with
  | some s => .use ⟨s, true, some cs⟩
  | none => dashed text

/-- An argument before the separator. -/
def classify (text : String) : Except UsageError Argument :=
  match text.toList with
  | '-' :: c :: cs =>
    let spelling := beforeEquals (c :: cs)
    match Switch.ofSpelling? text,
        Switch.ofSpelling? (String.ofList ('-' :: spelling)), behindEquals (c :: cs) with
    | some s, _, _ => .ok (.use ⟨s, c != '-', none⟩)
    | none, some s, some attached => .ok (.use ⟨s, c != '-', some attached⟩)
    | none, _, _ => if c = '-' then classifyLong text else .ok (classifyShort text c cs)
  | _ => .ok (.plain text)

/-- All arguments of a command line. -/
def classifyAll : List String → Except UsageError (List Argument)
  | [] => .ok []
  | text :: rest =>
    if text = "--" then .ok (.separator :: rest.map .plain)
    else do
      let first ← classify text
      let others ← classifyAll rest
      return first :: others

/-! ## Switches with their values -/

/-- What the switches in one argument amount to: the switches with their values, and how
many of the next arguments were taken. -/
structure Expansion where
  uses : List (Switch × String)
  taken : Nat
  deriving DecidableEq, Repr, Inhabited

/-- A switch with no text attached, where `next` is what comes behind it. -/
def expandAlone (next : List Argument) (s : Switch) : Except UsageError Expansion :=
  if s.takesValue then
    match next with
    | .plain value :: _ => .ok ⟨[(s, value)], 1⟩
    | _ => .error (.missingValue s)
  else .ok ⟨[(s, "")], 0⟩

/-- A switch with a text attached, where `next` is what comes behind the argument. -/
def expandAttached (next : List Argument) (s : Switch) (short : Bool) :
    List Char → Except UsageError Expansion
  | [] => if s.takesValue then .ok ⟨[(s, "")], 0⟩ else .error (.unwantedValue s "")
  | c :: cs =>
    if s.takesValue then .ok ⟨[(s, String.ofList (c :: cs))], 0⟩
    else
      match if short then Switch.ofLetter? c else none with
      | none => .error (.unwantedValue s (String.ofList (c :: cs)))
      | some s' => do
        let rest ← if cs.isEmpty then expandAlone next s' else expandAttached next s' true cs
        return { rest with uses := (s, "") :: rest.uses }

/-- The switches of one argument. -/
def SwitchUse.expand (u : SwitchUse) (next : List Argument) : Except UsageError Expansion :=
  match u.attached with
  | none => expandAlone next u.switch
  | some text => expandAttached next u.switch u.short text

/-! ## The whole command line -/

/-- Where the listing goes. -/
inductive Destination where
  | console
  | file (path : String)
  | unnamed
  deriving DecidableEq, Repr, Inhabited

/-- What is known of the settings while arguments are gone through. -/
structure Draft where
  source : Option String
  output : Destination
  format : Listing.Format
  verbose : Bool
  strays : List String
  deriving DecidableEq, Repr, Inhabited

/-- Nothing has been said yet. -/
def Draft.initial : Draft := ⟨none, .console, .hex, false, []⟩

/-- Why arguments are not gone through to the end. -/
inductive Stop where
  | help
  | refused (e : UsageError)
  deriving DecidableEq, Repr, Inhabited

/-- The value that counts as none. -/
def noValue : String := "--"

/-- The form of the listing that a value selects. -/
def formatOfValue? (value : String) : Option Listing.Format :=
  if value = noValue then some .bin else Listing.Format.ofName? value

/-- The destination that a value names. -/
def destinationOfValue (value : String) : Destination :=
  if value = noValue then .unnamed else .file value

/-- A switch takes effect; a later value replaces an earlier one. -/
def Draft.apply (d : Draft) (use : Switch × String) : Except Stop Draft :=
  match use.1 with
  | .help => .error .help
  | .output => .ok { d with output := destinationOfValue use.2 }
  | .format =>
    match formatOfValue? use.2 with
    | some format => .ok { d with format := format }
    | none => .error (.refused (.unknownFormat use.2))
  | .verbose => .ok { d with verbose := true }

/-- An argument that nothing asked for. -/
def Draft.stray (d : Draft) (text : String) : Draft := { d with strays := d.strays ++ [text] }

/-- The arguments behind the source: a separator right behind it belongs to it. -/
def behindSource : List Argument → List Argument
  | .separator :: rest => rest
  | rest => rest

/-- At most a separator is left out. -/
theorem length_behindSource_le (arguments : List Argument) :
    (behindSource arguments).length ≤ arguments.length := by
  unfold behindSource
  split <;> simp

/-- The settings after the given arguments. -/
def Draft.advance (d : Draft) : List Argument → Except Stop Draft
  | [] => .ok d
  | .unknown text :: rest => (d.stray text).advance rest
  | .plain text :: rest =>
    match d.source with
    | some _ => (d.stray text).advance rest
    | none => { d with source := some text }.advance (behindSource rest)
  | .separator :: rest =>
    if d.source.isNone && !rest.isEmpty then d.advance rest
    else (d.stray "--").advance rest
  | .use u :: rest =>
    match u.expand rest with
    | .error e => .error (.refused e)
    | .ok expansion =>
      match expansion.uses.foldlM Draft.apply d with
      | .error stop => .error stop
      | .ok d' => d'.advance (rest.drop expansion.taken)
termination_by arguments => arguments.length
decreasing_by
  all_goals
    have := length_behindSource_le rest
    simp only [List.length_cons, List.length_drop]
    omega

/-- What a command line amounts to: a run with settings, or one that has an output to
write and no name for it. -/
inductive Command where
  | run (s : Settings)
  | runUnnamed (s : Settings)
  deriving DecidableEq, Repr, Inhabited

/-- The run with a given destination, where `s` has none yet. -/
def Command.ofDestination (s : Settings) : Destination → Command
  | .console => .run s
  | .file path => .run { s with output := some path }
  | .unnamed => .runUnnamed s

/-- The command, once all arguments have been gone through. -/
def Draft.finish (d : Draft) : Except Stop Command :=
  match d.source with
  | none => .error (.refused .missingSource)
  | some source =>
    if d.strays.isEmpty then .ok (.ofDestination ⟨source, none, d.format, d.verbose⟩ d.output)
    else .error (.refused (.unrecognized d.strays))

/-- What a command line asks for. -/
def understand (argv : List String) : Except Stop Command :=
  match classifyAll argv with
  | .error e => .error (.refused e)
  | .ok arguments => do
    let d ← Draft.initial.advance arguments
    d.finish

end CommandLine
end MipsAssembler
