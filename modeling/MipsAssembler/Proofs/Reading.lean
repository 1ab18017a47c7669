import Mathlib
import MipsAssembler.Statement.Reader
import MipsAssembler.Proofs.Literals
import MipsAssembler.Proofs.Scanning

/-!
# Which programs are read

Not every statement can be read from a text.  The name of a label has to be a name
that a scan leaves in one piece and that the reader accepts, and a number has to be the
value of a numeral.  `Statement.Admissible` is the conjunction of these conditions for
one statement, and the two main facts here are that it is exact:

* `admissible_of_read`: every statement that is read from well-formed tokens is
  admissible;
* `read_flatMap_tokens`: the canonical tokens of admissible statements are read as these
  statements.

One clause of `Admissible` is not what one would write down first.  A name that contains
a comma cannot be scanned, but a comma alone is a token of every scan, and it is not
refused as a label.  The token behind the mnemonic of a jump may be the comma that
closes the mnemonic, so `j,` is a jump to a label called `,`.  Behind the second comma
of a branch no further comma can stand, so a branch has no such exception.
-/

namespace MipsAssembler

namespace Literal

/-! ## Lexical names -/

/-- A name that can be written as a label: nonempty, beginning neither with a digit nor
like a comment, without colons, commas and blanks. -/
structure IsLexical (name : String) : Prop where
  ne_nil : name.toList ≠ []
  head : ∀ c, name.toList.head? = some c → isDigit c = false ∧ c ≠ '#'
  chars : ∀ c ∈ name.toList, c ∉ [':', ',', ' ', '\t', '\n', '\r']

variable {name : String} {token : Token}

theorem continuesWord_iff_notMem {c : Char} :
    Token.continuesWord c = true ↔ c ∉ [',', ' ', '\t', '\n', '\r'] := by
  simp [Token.continuesWord, Token.isBlank, Token.blanks, and_comm]

/-- A word that the reader accepts as a label is a lexical name. -/
theorem isLexical_of_label (hword : token.IsWord) (h : label token = .ok name) :
    IsLexical name := by
  obtain ⟨rfl, hne, hdigit, hcolon⟩ := label_eq_ok_iff.mp h
  refine ⟨hne, fun c hc => ⟨hdigit c hc, ?_⟩, fun c hc hmem => ?_⟩
  · rintro rfl
    exact hword.head hc
  · rcases List.mem_cons.mp hmem with rfl | hmem
    · exact hcolon hc
    · exact continuesWord_iff_notMem.mp (hword.continues c hc) hmem

theorem IsLexical.label_eq (h : IsLexical name) : label name = .ok name :=
  label_eq_ok_iff.mpr ⟨rfl, h.ne_nil, fun c hc => (h.head c hc).1,
    fun hmem => h.chars ':' hmem List.mem_cons_self⟩

theorem IsLexical.isWord (h : IsLexical name) : Token.IsWord name where
  ne_nil := h.ne_nil
  head := fun hhash => (h.head '#' hhash).2 rfl
  continues := fun c hc =>
    continuesWord_iff_notMem.mpr fun hmem => h.chars c hc (List.mem_cons_of_mem ':' hmem)

/-! ## Declarations -/

/-- The token that declares a label. -/
def declaration (name : String) : Token := name ++ ":"

theorem toList_declaration (name : String) : (declaration name).toList = name.toList ++ [':'] := by
  rw [declaration, String.toList_append]
  rfl

theorem IsLexical.isWord_declaration (h : IsLexical name) : Token.IsWord (declaration name) where
  ne_nil := by
    rw [toList_declaration]
    simp
  head := by
    rw [toList_declaration, List.head?_append_of_ne_nil _ h.ne_nil]
    exact h.isWord.head
  continues := by
    intro c hc
    rw [toList_declaration, List.mem_append, List.mem_singleton] at hc
    rcases hc with hc | rfl
    · exact h.isWord.continues c hc
    · decide

/-- What stands before the last character of a word is a word unless it is empty. -/
theorem isWord_dropLast (hword : token.IsWord) (hne : token.toList.dropLast ≠ []) :
    Token.IsWord (String.ofList token.toList.dropLast) where
  ne_nil := by rwa [String.toList_ofList]
  head := by
    rw [String.toList_ofList]
    intro hhash
    refine hword.head ?_
    rw [← List.dropLast_append_getLast hword.ne_nil, List.head?_append_of_ne_nil _ hne]
    exact hhash
  continues := by
    intro c hc
    rw [String.toList_ofList] at hc
    exact hword.continues c (List.mem_of_mem_dropLast hc)

end Literal

/-- The list of all instructions leaves none out, so a property of their spellings can be
checked one by one. -/
theorem Mnemonic.mem_all (m : Mnemonic) : m ∈ Mnemonic.all := by
  cases m with
  | arith op => cases op <;> decide
  | access op => cases op <;> decide
  | _ => decide

/-- An instruction is looked up by its own spelling only. -/
theorem Mnemonic.eq_name_of_ofName? {name : String} {m : Mnemonic} (h : ofName? name = some m) :
    name = m.name := by
  unfold ofName? at h
  split at h <;> cases h <;> rfl

namespace Statement

/-! ## Admissible statements -/

/-- A statement whose names and numbers can be written. -/
def Admissible : Statement → Prop
  | label name => Literal.IsLexical name
  | data v => Literal.Writable v
  | arith _ _ _ _ => True
  | addi _ _ v => Literal.Writable v
  | beq _ _ target => Literal.IsLexical target
  | jump target => Literal.IsLexical target ∨ target = Token.comma
  | access _ _ _ offset => Literal.Writable offset

/-- The number written in a statement. -/
def number? : Statement → Option Int
  | data v => some v
  | addi _ _ v => some v
  | access _ _ _ offset => some offset
  | _ => none

theorem Admissible.writable {s : Statement} (h : s.Admissible) {v : Int}
    (hv : s.number? = some v) : Literal.Writable v := by
  cases s with
  | data w =>
    cases hv
    exact h
  | addi rd rs w =>
    cases hv
    exact h
  | access op rd base offset =>
    cases hv
    exact h
  | _ => cases hv

/-! ## From tokens to statements -/

section Read

variable {token : Token} {rest tokens : List Token}

/-- An operand that is not empty is one of the tokens. -/
theorem getElem?_of_operandAt {k : Nat} (h : (operandAt rest k).toList ≠ []) :
    rest[k]? = some (operandAt rest k) := by
  unfold operandAt at h ⊢
  rw [List.getD_eq_getElem?_getD] at h ⊢
  cases hk : rest[k]? with
  | none =>
    rw [hk] at h
    exact absurd rfl h
  | some t => rfl

/-- A label among the operands is a token. -/
theorem getElem?_of_label {k : Nat} {name : String}
    (h : Literal.label (operandAt rest k) = .ok name) : rest[k]? = some (operandAt rest k) :=
  getElem?_of_operandAt (Literal.label_eq_ok_iff.mp h).2.1

/-- A comma among the operands is a token. -/
theorem getElem?_of_comma {k : Nat} (h : Literal.comma (operandAt rest k) = .ok ()) :
    rest[k]? = some Token.comma := by
  have hcomma := Literal.comma_eq_ok_iff.mp h
  rw [← hcomma]
  refine getElem?_of_operandAt ?_
  rw [hcomma]
  decide

/-- The operands of an instruction, one form at a time. -/
theorem admissible_of_readOperands {m : Mnemonic} {s : Statement} {taken : Nat}
    (hwf : Token.WellFormed rest) (h : readOperands m rest = .ok (s, taken)) : s.Admissible := by
  cases m with
  | arith op =>
    obtain ⟨rd, -, h⟩ := Outcome.bind_eq_ok_iff.mp h
    obtain ⟨-, -, h⟩ := Outcome.bind_eq_ok_iff.mp h
    obtain ⟨rs, -, h⟩ := Outcome.bind_eq_ok_iff.mp h
    obtain ⟨-, -, h⟩ := Outcome.bind_eq_ok_iff.mp h
    obtain ⟨rt, -, h⟩ := Outcome.bind_eq_ok_iff.mp h
    cases h
    exact trivial
  | addi =>
    obtain ⟨rd, -, h⟩ := Outcome.bind_eq_ok_iff.mp h
    obtain ⟨-, -, h⟩ := Outcome.bind_eq_ok_iff.mp h
    obtain ⟨rs, -, h⟩ := Outcome.bind_eq_ok_iff.mp h
    obtain ⟨-, -, h⟩ := Outcome.bind_eq_ok_iff.mp h
    obtain ⟨v, hv, h⟩ := Outcome.bind_eq_ok_iff.mp h
    cases h
    exact Literal.writable_of_numeral hv
  | beq =>
    obtain ⟨second, -, h⟩ := Outcome.bind_eq_ok_iff.mp h
    obtain ⟨-, -, h⟩ := Outcome.bind_eq_ok_iff.mp h
    obtain ⟨first, -, h⟩ := Outcome.bind_eq_ok_iff.mp h
    obtain ⟨_, hcomma, h⟩ := Outcome.bind_eq_ok_iff.mp h
    obtain ⟨target, htarget, h⟩ := Outcome.bind_eq_ok_iff.mp h
    cases h
    -- the target stands behind a comma, so it is a word
    have hword := hwf.isWord_after_comma (getElem?_of_comma hcomma) (getElem?_of_label htarget)
    exact Literal.isLexical_of_label hword htarget
  | j =>
    obtain ⟨target, htarget, h⟩ := Outcome.bind_eq_ok_iff.mp h
    cases h
    have hmem := List.mem_of_getElem? (getElem?_of_label htarget)
    rcases hwf.members _ hmem with hcomma | hword
    · exact Or.inr ((Literal.label_eq_ok_iff.mp htarget).1.trans hcomma)
    · exact Or.inl (Literal.isLexical_of_label hword htarget)
  | access op =>
    obtain ⟨rd, -, h⟩ := Outcome.bind_eq_ok_iff.mp h
    obtain ⟨-, -, h⟩ := Outcome.bind_eq_ok_iff.mp h
    obtain ⟨⟨offset, base⟩, haccess, h⟩ := Outcome.bind_eq_ok_iff.mp h
    cases h
    exact Literal.writable_of_access haccess

/-- The first statement of well-formed tokens is admissible. -/
theorem admissible_of_readOne {s : Statement} {taken : Nat}
    (hwf : Token.WellFormed (token :: rest)) (h : readOne token rest = .ok (s, taken)) :
    s.Admissible := by
  unfold readOne at h
  split at h
  · rename_i hcolon
    obtain ⟨name, hname, h⟩ := Outcome.bind_eq_ok_iff.mp h
    cases h
    have hword : token.IsWord := by
      rcases hwf.members token List.mem_cons_self with rfl | hword
      · exact absurd hcolon (by decide)
      · exact hword
    have hne : token.toList.dropLast ≠ [] := by
      have hne := (Literal.label_eq_ok_iff.mp hname).2.1
      rwa [String.toList_ofList] at hne
    exact Literal.isLexical_of_label (Literal.isWord_dropLast hword hne) hname
  · split at h
    · obtain ⟨v, hv, h⟩ := Outcome.bind_eq_ok_iff.mp h
      cases h
      exact Literal.writable_of_numeral hv
    · split at h
      · exact admissible_of_readOperands (hwf.drop 1) h
      · cases h

/-- Reading on adds admissible statements only. -/
theorem admissible_of_readFrom {done program : List Statement} (hwf : Token.WellFormed tokens)
    (hdone : ∀ s ∈ done, s.Admissible) (h : readFrom done tokens = .ok program) :
    ∀ s ∈ program, s.Admissible := by
  fun_induction readFrom done tokens with
  | case1 done =>
    cases h
    exact fun s hs => hdone s (List.mem_reverse.mp hs)
  | case2 => cases h
  | case3 done token rest statement taken hone ih =>
    refine ih (hwf.drop (taken + 1)) ?_ h
    intro s hs
    rcases List.mem_cons.mp hs with rfl | hs
    · exact admissible_of_readOne hwf hone
    · exact hdone s hs

/-- **Every statement of a program that was read is admissible.** -/
theorem admissible_of_read {program : List Statement} (hwf : Token.WellFormed tokens)
    (h : read tokens = .ok program) : ∀ s ∈ program, s.Admissible :=
  admissible_of_readFrom hwf (by simp) h

end Read

/-! ## From statements to tokens -/

/-- The first token of a statement. -/
def opening : Statement → Token
  | label name => Literal.declaration name
  | data _ => dataDirective
  | arith op _ _ _ => op.name
  | addi _ _ _ => Mnemonic.addi.name
  | beq _ _ _ => Mnemonic.beq.name
  | jump _ => Mnemonic.j.name
  | access op _ _ _ => op.name

/-- The tokens behind the first one, in canonical spelling. -/
def operands : Statement → List Token
  | label _ => []
  | data v => [toString v]
  | arith _ rd rs rt =>
    [Literal.registerText rd, Token.comma, Literal.registerText rs, Token.comma,
      Literal.registerText rt]
  | addi rd rs v =>
    [Literal.registerText rd, Token.comma, Literal.registerText rs, Token.comma, toString v]
  | beq first second target =>
    [Literal.registerText first, Token.comma, Literal.registerText second, Token.comma, target]
  | jump target => [target]
  | access _ rd base offset =>
    [Literal.registerText rd, Token.comma, Literal.accessText offset base]

/-- The canonical tokens of a statement. -/
def tokens (s : Statement) : List Token := s.opening :: s.operands

section Tokens

variable (rest : List Token)

theorem comma_comma : Literal.comma Token.comma = .ok () := Literal.comma_eq_ok_iff.mpr rfl

/-- A comma is accepted as the name of a label. -/
theorem label_comma : Literal.label Token.comma = .ok Token.comma := by
  have hlist : Token.comma.toList = [','] := by decide
  refine Literal.label_eq_ok_iff.mpr ⟨rfl, by decide, fun c hc => ?_, by decide⟩
  rw [hlist] at hc
  cases hc
  decide

/-- The spelling of an instruction is neither a declaration nor a directive. -/
theorem readOne_name (m : Mnemonic) : readOne m.name rest = readOperands m rest := by
  have hnames : ∀ m ∈ Mnemonic.all,
      m.name.toList.getLast? ≠ some ':' ∧ m.name ≠ dataDirective := by decide
  obtain ⟨hcolon, hdirective⟩ := hnames m m.mem_all
  rw [readOne, if_neg hcolon, if_neg hdirective, Mnemonic.ofName?_name]

theorem readOne_declaration {name : String} (h : Literal.label name = .ok name) :
    readOne (Literal.declaration name) rest = .ok (label name, 0) := by
  have hlast : (Literal.declaration name).toList.getLast? = some ':' := by
    rw [Literal.toList_declaration, List.getLast?_concat]
  have hname : String.ofList (Literal.declaration name).toList.dropLast = name := by
    rw [Literal.toList_declaration, List.dropLast_concat, String.ofList_toList]
  rw [readOne, if_pos hlast, hname, h]
  rfl

theorem readOne_data {a : Token} {v : Int} (h : Literal.numeral a = .ok v) :
    readOne dataDirective (a :: rest) = .ok (data v, 1) := by
  have hcolon : dataDirective.toList.getLast? ≠ some ':' := by decide
  have hoperand : operandAt (a :: rest) 0 = a := rfl
  rw [readOne, if_neg hcolon, if_pos rfl, hoperand, h]
  rfl

/-! Operands that are literals of the right sort, with commas between them, are read
whatever follows them. -/

section Operands

variable {a b c : Token}

theorem readOperands_arith (op : Arithmetic) {rd rs rt : Register}
    (ha : Literal.register a = .ok rd) (hb : Literal.register b = .ok rs)
    (hc : Literal.register c = .ok rt) :
    readOperands (.arith op) (a :: Token.comma :: b :: Token.comma :: c :: rest) =
      .ok (arith op rd rs rt, 5) := by
  simp only [readOperands, operandAt, List.getD_cons_zero, List.getD_cons_succ, ha, hb, hc,
    comma_comma, Outcome.ok_bind]
  rfl

theorem readOperands_addi {rd rs : Register} {v : Int} (ha : Literal.register a = .ok rd)
    (hb : Literal.register b = .ok rs) (hc : Literal.numeral c = .ok v) :
    readOperands .addi (a :: Token.comma :: b :: Token.comma :: c :: rest) =
      .ok (addi rd rs v, 5) := by
  simp only [readOperands, operandAt, List.getD_cons_zero, List.getD_cons_succ, ha, hb, hc,
    comma_comma, Outcome.ok_bind]
  rfl

theorem readOperands_beq {first second : Register} {target : String}
    (ha : Literal.register a = .ok first) (hb : Literal.register b = .ok second)
    (hc : Literal.label c = .ok target) :
    readOperands .beq (a :: Token.comma :: b :: Token.comma :: c :: rest) =
      .ok (beq first second target, 5) := by
  simp only [readOperands, operandAt, List.getD_cons_zero, List.getD_cons_succ, ha, hb, hc,
    comma_comma, Outcome.ok_bind]
  rfl

theorem readOperands_j {target : String} (ha : Literal.label a = .ok target) :
    readOperands .j (a :: rest) = .ok (jump target, 1) := by
  simp only [readOperands, operandAt, List.getD_cons_zero, ha, Outcome.ok_bind]
  rfl

theorem readOperands_access (op : Access) {rd base : Register} {offset : Int}
    (ha : Literal.register a = .ok rd) (hb : Literal.access b = .ok (offset, base)) :
    readOperands (.access op) (a :: Token.comma :: b :: rest) =
      .ok (access op rd base offset, 3) := by
  simp only [readOperands, operandAt, List.getD_cons_zero, List.getD_cons_succ, ha, hb,
    comma_comma, Outcome.ok_bind]
  rfl

end Operands

/-- The canonical tokens of an admissible statement are read as this statement,
whatever follows them. -/
theorem readOne_opening {s : Statement} (h : s.Admissible) :
    readOne s.opening (s.operands ++ rest) = .ok (s, s.operands.length) := by
  have hregister := Literal.register_registerText
  cases s with
  | label name => exact readOne_declaration rest (Literal.IsLexical.label_eq h)
  | data v => exact readOne_data rest (Literal.numeral_toString h)
  | arith op rd rs rt =>
    refine (readOne_name _ (.arith op)).trans ?_
    exact readOperands_arith rest op (hregister rd) (hregister rs) (hregister rt)
  | addi rd rs v =>
    refine (readOne_name _ .addi).trans ?_
    exact readOperands_addi rest (hregister rd) (hregister rs) (Literal.numeral_toString h)
  | beq first second target =>
    refine (readOne_name _ .beq).trans ?_
    exact readOperands_beq rest (hregister first) (hregister second)
      (Literal.IsLexical.label_eq h)
  | jump target =>
    have htarget : Literal.label target = .ok target := by
      rcases h with h | rfl
      · exact h.label_eq
      · exact label_comma
    exact (readOne_name _ .j).trans (readOperands_j rest htarget)
  | access op rd base offset =>
    refine (readOne_name _ (.access op)).trans ?_
    exact readOperands_access rest op (hregister rd) (Literal.access_accessText h base)

/-- Reading takes the tokens of one statement off. -/
theorem readFrom_tokens {s : Statement} (h : s.Admissible) (done : List Statement) :
    readFrom done (s.tokens ++ rest) = readFrom (s :: done) rest := by
  rw [tokens, List.cons_append, readFrom, readOne_opening rest h]
  simp only [List.drop_left]

end Tokens

/-- **The canonical tokens of a program are read as this program.** -/
theorem read_flatMap_tokens {program : List Statement} (h : ∀ s ∈ program, s.Admissible) :
    read (program.flatMap tokens) = .ok program := by
  have hfrom (done : List Statement) :
      readFrom done (program.flatMap tokens) = .ok (done.reverse ++ program) := by
    induction program generalizing done with
    | nil => rw [List.flatMap_nil, readFrom, List.append_nil]
    | cons s program ih =>
      rw [List.flatMap_cons, readFrom_tokens _ (h s List.mem_cons_self),
        ih fun t ht => h t (List.mem_cons_of_mem s ht), List.reverse_cons, List.append_assoc,
        List.singleton_append]
  exact hfrom []

/-! ## Faults -/

theorem failsOnly_readOperands (m : Mnemonic) (rest : List Token) :
    Outcome.FailsOnly Literal.IsReadFault (readOperands m rest) := by
  cases m with
  | arith op =>
    refine .bind (Literal.failsOnly_register _) fun rd => ?_
    refine .bind (Literal.failsOnly_comma _) fun _ => ?_
    refine .bind (Literal.failsOnly_register _) fun rs => ?_
    refine .bind (Literal.failsOnly_comma _) fun _ => ?_
    exact .bind (Literal.failsOnly_register _) fun rt => .ok _
  | addi =>
    refine .bind (Literal.failsOnly_register _) fun rd => ?_
    refine .bind (Literal.failsOnly_comma _) fun _ => ?_
    refine .bind (Literal.failsOnly_register _) fun rs => ?_
    refine .bind (Literal.failsOnly_comma _) fun _ => ?_
    exact .bind (Literal.failsOnly_numeral _) fun v => .ok _
  | beq =>
    refine .bind (Literal.failsOnly_register _) fun second => ?_
    refine .bind (Literal.failsOnly_comma _) fun _ => ?_
    refine .bind (Literal.failsOnly_register _) fun first => ?_
    refine .bind (Literal.failsOnly_comma _) fun _ => ?_
    exact .bind (Literal.failsOnly_label _) fun target => .ok _
  | j => exact .bind (Literal.failsOnly_label _) fun target => .ok _
  | access op =>
    refine .bind (Literal.failsOnly_register _) fun rd => ?_
    refine .bind (Literal.failsOnly_comma _) fun _ => ?_
    exact .bind (Literal.failsOnly_access _) fun offset => .ok _

theorem failsOnly_readOne (token : Token) (rest : List Token) :
    Outcome.FailsOnly Literal.IsReadFault (readOne token rest) := by
  unfold readOne
  split
  · exact .bind (Literal.failsOnly_label _) fun name => .ok _
  · split
    · exact .bind (Literal.failsOnly_numeral _) fun v => .ok _
    · split
      · exact failsOnly_readOperands _ rest
      · exact .error (Or.inl rfl)

/-- A program that cannot be read has a fault of reading or of range. -/
theorem failsOnly_read (tokens : List Token) :
    Outcome.FailsOnly Literal.IsReadFault (read tokens) := by
  have hfrom (done : List Statement) :
      Outcome.FailsOnly Literal.IsReadFault (readFrom done tokens) := by
    fun_induction readFrom done tokens with
    | case1 => exact .ok _
    | case2 done token rest fault hone => exact .error (failsOnly_readOne token rest fault hone)
    | case3 done token rest statement taken hone ih => exact ih
  exact hfrom []

end Statement
end MipsAssembler
