import MipsAssembler.Fault

/-!
# Tokens

A source text is cut into words and commas.  Blanks separate words, and a word
also ends at a comma; the comma is then a token of its own.  A comma that does
not end a word is a fault, so in a successful scan every comma token stands
directly behind the word it closes, and a text such as `a ,b` is refused.

A `#` opens a comment, which runs up to the end of its line, but only where a
word could begin: inside a word it is a character like any other.

`scan` goes over the text once, keeping what it has found in reverse.  Positions
count characters from zero and are used for one thing only, to say where a stray
comma stands.
-/

namespace MipsAssembler

/-- A word or a comma. -/
abbrev Token := String

namespace Token

/-- The token that separates operands. -/
def comma : Token := ","

/-- The characters between words. -/
def blanks : List Char := [' ', '\t', '\n', '\r']

/-- Whether a character separates words. -/
def isBlank (c : Char) : Bool := blanks.contains c

/-- Whether a text is a nonempty stretch of the sequence space, tab, line feed,
carriage return.  On single characters this is `isBlank`. -/
def isBlankStretch (text : String) : Bool :=
  text.toList != [] && (List.range blanks.length).any fun k =>
    text.toList.isPrefixOf (blanks.drop k)

/-- Whether a word goes on through a character. -/
def continuesWord (c : Char) : Bool := !isBlank c && c != ','

/-- Whether a comment goes on through a character. -/
def continuesComment (c : Char) : Bool := c != '\n'

/-- The scan of the characters `cs`, the first of which stands at `position`,
after the tokens `found` (the latest first).  The scan is at a place where a word
could begin. -/
def scanFrom (position : Nat) (found : List Token) :
    List Char → Except Fault (List Token)
  | [] => .ok found.reverse
  | c :: cs =>
    if c = '#' then
      let body := cs.takeWhile continuesComment
      scanFrom (position + 1 + body.length) found (cs.dropWhile continuesComment)
    else if isBlank c then
      scanFrom (position + 1) found cs
    else if c = ',' then
      .error (.emptyToken position)
    else
      let body := cs.takeWhile continuesWord
      let word := String.ofList (c :: body)
      let rest := cs.dropWhile continuesWord
      if rest.head? = some ',' then
        scanFrom (position + 1 + body.length + 1) (comma :: word :: found) rest.tail
      else
        scanFrom (position + 1 + body.length) (word :: found) rest
termination_by cs => cs.length
decreasing_by
  all_goals
    have hw := (List.dropWhile_suffix (l := cs) continuesWord).length_le
    have hc := (List.dropWhile_suffix (l := cs) continuesComment).length_le
    simp only [List.length_cons, List.length_tail]
    omega

/-- The tokens of a source text, or the place of its first stray comma. -/
def scan (text : String) : Except Fault (List Token) := scanFrom 0 [] text.toList

end Token
end MipsAssembler
