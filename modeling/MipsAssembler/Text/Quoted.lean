import MipsAssembler.Text.Printable

/-!
# Quoted text

Paths and arguments are quoted in messages so that a reader sees exactly which
characters they hold.  A text is put between single quotes, unless it contains one
and contains no double quote: then double quotes are used and nothing inside needs
escaping.  The enclosing quote and the backslash are escaped by a backslash, the
three common control characters by their letters, and every other character
without a visible form by its number, in the shortest of three widths.
-/

namespace MipsAssembler
namespace Text

def singleQuote : Char := '\x27'
def doubleQuote : Char := '\x22'
def backslash : Char := '\x5c'

/-- The quote that is put around a text. -/
def quoteFor (cs : List Char) : Char :=
  if cs.contains singleQuote && !cs.contains doubleQuote then doubleQuote else singleQuote

/-- The last `width` hexadecimal digits of a number, in lower case. -/
def hexDigits (width n : Nat) : List Char :=
  let ds := Nat.toDigits 16 n
  List.replicate (width - ds.length) '0' ++ ds

/-- A character by its number, with two, four or eight digits. -/
def numericEscape (c : Char) : List Char :=
  let code := c.toNat
  if code < 0x100 then backslash :: 'x' :: hexDigits 2 code
  else if code < 0x10000 then backslash :: 'u' :: hexDigits 4 code
  else backslash :: 'U' :: hexDigits 8 code

/-- A character as it stands between quotes of the given kind. -/
def escape (quote c : Char) : List Char :=
  if c = quote || c = backslash then [backslash, c]
  else if c = '\n' then [backslash, 'n']
  else if c = '\r' then [backslash, 'r']
  else if c = '\t' then [backslash, 't']
  else if isPrintable c then [c]
  else numericEscape c

/-- A text in quotes. -/
def quoted (text : String) : String :=
  let cs := text.toList
  let quote := quoteFor cs
  String.ofList (quote :: (cs.flatMap (escape quote) ++ [quote]))

end Text
end MipsAssembler
