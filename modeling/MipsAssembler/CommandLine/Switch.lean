import MipsAssembler.Listing

/-!
# Switches and settings

The command line knows four switches, each with a short and a long spelling, and one
positional argument, the source.  Two of the switches take a value.  The settings are
what a command line that can be run amounts to.
-/

namespace MipsAssembler
namespace CommandLine

/-- The switches. -/
inductive Switch where
  | help | output | format | verbose
  deriving DecidableEq, Repr, Inhabited

namespace Switch

/-- All switches, in the order in which they are shown. -/
def all : List Switch := [help, output, format, verbose]

/-- The letter of the short spelling. -/
def letter : Switch → Char
  | help => 'h'
  | output => 'o'
  | format => 'f'
  | verbose => 'v'

/-- The short spelling. -/
def short (s : Switch) : String := String.ofList ['-', s.letter]

/-- The long spelling. -/
def long : Switch → String
  | help => "--help"
  | output => "--output"
  | format => "--format"
  | verbose => "--verbose"

/-- Both spellings, as they are shown in messages. -/
def display (s : Switch) : String := s.short ++ "/" ++ s.long

/-- Whether a switch takes a value. -/
def takesValue : Switch → Bool
  | output | format => true
  | help | verbose => false

/-- The switch with a given letter. -/
def ofLetter? (c : Char) : Option Switch := all.find? (·.letter == c)

/-- The switch with a given spelling, short or long. -/
def ofSpelling? (text : String) : Option Switch :=
  all.find? fun s => s.short == text || s.long == text

end Switch

/-- What is to be done: which file to assemble, where to put the listing (on the
standard output if nowhere is named), in which form, and whether to show the trace. -/
structure Settings where
  source : String
  output : Option String
  format : Listing.Format
  verbose : Bool
  deriving DecidableEq, Repr, Inhabited

end CommandLine
end MipsAssembler
