import MipsAssembler.Bits
import MipsAssembler.Listing.BinaryNumeral
import MipsAssembler.Text.Quoted
import MipsAssembler.Word

/-!
# Listings

A listing shows one word to a line, either as eight hexadecimal digits or as 32
binary ones.  Printed lines are joined by line feeds; in a file every line ends with
one, so an empty program gives an empty file.

Words that come as text are listed too.  A binary listing shows such a text as it
is.  A hexadecimal one reads it as a binary numeral of any length and sign, and shows
its low 32 bits.
-/

namespace MipsAssembler

/-- A word as 32 binary digits. -/
def Word.toBinary (w : Word) : String := Bits.toBinary (w.toNat : Int) FieldWidth.word

/-- A word as eight hexadecimal digits. -/
def Word.toHex (w : Word) : String := Bits.hex32 (w.toNat : Int)

namespace Listing

/-- The two forms of a listing. -/
inductive Format where
  | hex | bin
  deriving DecidableEq, Repr, Inhabited

/-- The word for a form on the command line. -/
def Format.name : Format → String
  | hex => "hex"
  | bin => "bin"

/-- The form with a given name. -/
def Format.ofName? : String → Option Format
  | "hex" => some hex
  | "bin" => some bin
  | _ => none

/-- The line for a word. -/
def Format.line : Format → Word → String
  | hex, w => w.toHex
  | bin, w => w.toBinary

/-- A word text that is no binary numeral. -/
structure UnreadableWord where
  text : String
  deriving DecidableEq, Repr, Inhabited

/-- The text shown for an unreadable word.  At most 200 characters of the quotation
are shown. -/
def UnreadableWord.message (e : UnreadableWord) : String :=
  let quotation := String.ofList ((Text.quoted e.text).toList.take 200)
  s!"invalid literal for int() with base 2: {quotation}"

/-- The hexadecimal line for a word given as text. -/
def hexOfText (text : String) : Except UnreadableWord String :=
  match BinaryNumeral.value? text with
  | some n => .ok (Bits.hex32 n)
  | none => .error ⟨text⟩

/-- The line for a word given as text. -/
def Format.lineOfText : Format → String → Except UnreadableWord String
  | hex, text => hexOfText text
  | bin, text => .ok text

/-- The lines for words given as text, up to the first one that cannot be read. -/
def Format.linesOfText (format : Format) (words : List String) :
    Except UnreadableWord (List String) :=
  words.mapM format.lineOfText

/-- The lines for a list of words. -/
def Format.lines (format : Format) (words : List Word) : List String := words.map format.line

/-- Lines as they are printed, with line feeds between them. -/
def joined (lines : List String) : String := String.intercalate "\n" lines

/-- Lines as they are written to a file, each with its line feed. -/
def fileText (lines : List String) : String := String.join (lines.map (· ++ "\n"))

end Listing
end MipsAssembler
