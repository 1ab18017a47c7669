import MipsAssembler.Operand

/-!
# What can go wrong

Assembly stops at the first fault.  A `Fault` is the cause, as data: which rule
was broken and what was found instead.  The wording is one function, `message`,
and the stage to which a fault is ascribed is another, `kind`.  Keeping the two
apart from the cause means that a statement about when a fault arises never has
to mention a sentence of text.

A fault quotes at most one thing, and its message is a sentence around that.  When
what is to be quoted is a number that is too long to be written, there is no
message, and what is raised in the place of the fault is that the number cannot be
shown.  Source text does not lead to such numbers, since it cannot spell them.

The faults of the last two groups cannot be provoked by source text either.  They
are the answers to items that no reader would have built: a label that was never
placed, an operation with operands of the wrong sort, or with too few of them.
-/

namespace MipsAssembler

/-- The causes for which assembly stops. -/
inductive Fault where
  -- scanning
  | emptyToken (position : Nat)
  -- reading
  | expectedNumeral (found : String)
  | numeralTooLong (length : Nat)
  | expectedRegister (found : String)
  | noSuchRegister (found : String)
  | expectedLabel
  | labelStartsWithDigit (found : String)
  | labelContainsColon (found : String)
  | expectedAccess (found : String)
  | expectedComma (found : String)
  | unknownInstruction (found : String)
  -- placing and resolving labels
  | duplicateLabel (name : String)
  | undeclaredLabel (reference : Operand)
  -- packing values into fields
  | negativeData (value : Int)
  | dataTooLarge (value : Int)
  | immediateOutOfRange (value : Int)
  | targetOutOfRange (value : Int)
  -- packing items that no reader builds
  | unplacedLabel (name : String)
  | unknownDirective (name : String)
  | unknownOperation (name : String)
  | invalidRegister (found : Operand)
  | unresolvedImmediate (found : Operand)
  | unresolvedTarget (found : Operand)
  | foreignItem (typeName : String)
  -- operands that cannot be read, compared, looked up or shown at all
  | missingOperand
  | incomparableData (typeName : String)
  | unhashableReference (typeName : String)
  | unshowableNumber
  deriving DecidableEq, Repr, Inhabited

namespace Fault

/-- The stage to which a fault is ascribed; `internal` is for what earlier stages should
have excluded.  The last three kinds are not faults that the assembler looks for: an
operand is missing, is of a type with which nothing can be done, or is a number that
cannot be shown. -/
inductive Kind where
  | lex | reading | resolution | range | internal
  | missing | mistyped | unshowable
  deriving DecidableEq, Repr, Inhabited

/-- The word for a kind in diagnostics, if it is one that the assembler looks for. -/
def Kind.word? : Kind → Option String
  | lex => some "lex"
  | reading => some "syntax"
  | resolution => some "resolution"
  | range => some "range"
  | internal => some "internal"
  | missing | mistyped | unshowable => none

/-- The kind of a fault.  A numeral that is too long and a register number that
is too large are well formed, so they count as range faults although the reader
finds them. -/
def kind : Fault → Kind
  | emptyToken _ => .lex
  | expectedNumeral _ | expectedRegister _ | expectedLabel | labelStartsWithDigit _
  | labelContainsColon _ | expectedAccess _ | expectedComma _ | unknownInstruction _ => .reading
  | duplicateLabel _ | undeclaredLabel _ => .resolution
  | numeralTooLong _ | noSuchRegister _ | negativeData _ | dataTooLarge _
  | immediateOutOfRange _ | targetOutOfRange _ => .range
  | unplacedLabel _ | unknownDirective _ | unknownOperation _ | invalidRegister _
  | unresolvedImmediate _ | unresolvedTarget _ | foreignItem _ => .internal
  | missingOperand => .missing
  | incomparableData _ | unhashableReference _ => .mistyped
  | unshowableNumber => .unshowable

/-! ## Messages -/

/-- What a fault quotes. -/
def quoted? : Fault → Option Operand
  | emptyToken count | numeralTooLong count => some (.number count)
  | expectedNumeral text | expectedRegister text | noSuchRegister text
  | labelStartsWithDigit text | labelContainsColon text | expectedAccess text
  | expectedComma text | unknownInstruction text | duplicateLabel text | unplacedLabel text
  | unknownDirective text | unknownOperation text | foreignItem text | incomparableData text
  | unhashableReference text => some (.name text)
  | negativeData value | dataTooLarge value | immediateOutOfRange value
  | targetOutOfRange value => some (.number value)
  | undeclaredLabel operand | invalidRegister operand | unresolvedImmediate operand
  | unresolvedTarget operand => some operand
  | expectedLabel | missingOperand | unshowableNumber => none

/-- The sentence for a fault: what stands before the quoted text, and what behind it. -/
def wording : Fault → String × String
  | emptyToken _ => ("token vacío en la posición ", "")
  | expectedNumeral _ => ("se esperaba un número, encontrado: '", "'")
  | numeralTooLong _ => ("número demasiado largo (", " caracteres)")
  | expectedRegister _ => ("se esperaba un registro, encontrado: '", "'")
  | noSuchRegister _ => ("se esperaba un registro $0..$31, encontrado: '", "'")
  | expectedLabel => ("se esperaba una etiqueta, encontrado: '", "'")
  | labelStartsWithDigit _ =>
    ("las etiquetas no pueden empezar con un número; encontrado: '", "'")
  | labelContainsColon _ => ("carácter inválido en la etiqueta: '", "'")
  | expectedAccess _ => ("se esperaba un acceso offset(registro), encontrado: '", "'")
  | expectedComma _ => ("se esperaba una coma, encontrado: '", "'")
  | unknownInstruction _ => ("instrucción desconocida: '", "'")
  | duplicateLabel _ => ("múltiples declaraciones de la etiqueta: ", "")
  | undeclaredLabel _ => ("etiqueta no encontrada: ", "")
  | negativeData _ => ("la directiva .dw no admite valores negativos: '", "'")
  | dataTooLarge _ => ("la directiva .dw admite valores en [0, 2^8), encontrado: '", "'")
  | immediateOutOfRange _ => ("se esperaba un inmediato en [-2^15, 2^15), encontrado: '", "'")
  | targetOutOfRange _ => ("se esperaba un destino de salto en [0, 2^26), encontrado: '", "'")
  | unplacedLabel _ => ("etiqueta inesperada en la codificación: '", "'")
  | unknownDirective _ => ("directiva inesperada: '", "'")
  | unknownOperation _ => ("operación inesperada: '", "'")
  | invalidRegister _ => ("se esperaba un registro 0..31, encontrado: '", "'")
  | unresolvedImmediate _ => ("inmediato sin resolver: '", "'")
  | unresolvedTarget _ => ("destino de salto sin resolver: '", "'")
  | foreignItem _ => ("tipo de símbolo inesperado: ", "")
  | missingOperand => ("list index out of range", "")
  | incomparableData _ => ("'<' not supported between instances of '", "' and 'int'")
  | unhashableReference _ => ("unhashable type: '", "'")
  | unshowableNumber =>
    ("Exceeds the limit (4300 digits) for integer string conversion; ",
      "use sys.set_int_max_str_digits() to increase the limit")

/-- The text that a fault quotes. -/
def quotedText (fault : Fault) : String := (fault.quoted?.map Operand.text).getD ""

/-- The sentence shown for a fault. -/
def message (fault : Fault) : String :=
  fault.wording.1 ++ fault.quotedText ++ fault.wording.2

/-! ## Raising -/

/-- What is raised for a fault: the fault, unless it would have to quote a number that
cannot be shown. -/
def raised (fault : Fault) : Fault :=
  match fault.quoted? with
  | some operand => if operand.isQuotable then fault else .unshowableNumber
  | none => fault

/-- A result as a caller gets it. -/
def raising {α : Type} (result : Except Fault α) : Except Fault α := result.mapError raised

end Fault
end MipsAssembler
