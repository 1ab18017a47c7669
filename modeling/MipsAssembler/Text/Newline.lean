/-!
# Line ends

A file may end its lines with a line feed, a carriage return, or the two together
in that order.  Reading a file as text turns each of the three into one line feed,
so what is scanned contains no carriage return at all, and positions count the
characters after this step.
-/

namespace MipsAssembler
namespace Text

/-- The characters `done`, latest first, followed by the rest of the text with
every line end turned into a line feed. -/
def unifyNewlinesOnto (done : List Char) : List Char → List Char
  | [] => done.reverse
  | '\r' :: '\n' :: cs => unifyNewlinesOnto ('\n' :: done) cs
  | '\r' :: cs => unifyNewlinesOnto ('\n' :: done) cs
  | c :: cs => unifyNewlinesOnto (c :: done) cs

/-- A text with every line end turned into a line feed. -/
def unifyNewlines (text : String) : String :=
  String.ofList (unifyNewlinesOnto [] text.toList)

end Text
end MipsAssembler
