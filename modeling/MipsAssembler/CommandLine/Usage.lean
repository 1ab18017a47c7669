import MipsAssembler.CommandLine.Switch
import MipsAssembler.Text.Quoted

/-!
# Usage

The texts that explain the command line: the usage line, the help, and what is said
about a command line that cannot be understood.
-/

namespace MipsAssembler
namespace CommandLine

/-- The name under which the program presents itself. -/
def programName : String := "mips32-asm"

/-- The usage line. -/
def usageLine : String :=
  "usage: mips32-asm [-h] [-o OUTPUT] [-f \x7bhex,bin\x7d] [-v] source\n"

/-- The help. -/
def helpText : String :=
  usageLine ++
  "\n" ++
  "Ensamblador MIPS32 (subconjunto) a palabras hexadecimales\n" ++
  "\n" ++
  "positional arguments:\n" ++
  "  source                archivo .asm/.s de entrada\n" ++
  "\n" ++
  "options:\n" ++
  "  -h, --help            show this help message and exit\n" ++
  "  -o OUTPUT, --output OUTPUT\n" ++
  "                        archivo de salida (por defecto, salida estándar)\n" ++
  "  -f \x7bhex,bin\x7d, --format \x7bhex,bin\x7d\n" ++
  "                        formato del listado: hex (8 dígitos) o bin (32 bits\n" ++
  "                        ASCII)\n" ++
  "  -v, --verbose         traza DEBUG de las etapas\n"

/-- Why a command line was not understood. -/
inductive UsageError where
  | ambiguousAbbreviation (given : String) (candidates : List String)
  | missingValue (switch : Switch)
  | unwantedValue (switch : Switch) (given : String)
  | unknownFormat (given : String)
  | missingSource
  | unrecognized (arguments : List String)
  deriving DecidableEq, Repr, Inhabited

namespace UsageError

/-- The sentence shown for an error. -/
def message : UsageError → String
  | ambiguousAbbreviation given candidates =>
    "ambiguous option: " ++ given ++ " could match " ++ String.intercalate ", " candidates
  | missingValue switch => "argument " ++ switch.display ++ ": expected one argument"
  | unwantedValue switch given =>
    "argument " ++ switch.display ++ ": ignored explicit argument " ++ Text.quoted given
  | unknownFormat given =>
    "argument " ++ Switch.format.display ++ ": invalid choice: " ++ Text.quoted given ++
      " (choose from 'hex', 'bin')"
  | missingSource => "the following arguments are required: source"
  | unrecognized arguments => "unrecognized arguments: " ++ String.intercalate " " arguments

/-- What is printed for an error: the usage line, and the sentence behind the name of
the program. -/
def report (e : UsageError) : String :=
  usageLine ++ programName ++ ": error: " ++ e.message ++ "\n"

end UsageError
end CommandLine
end MipsAssembler
