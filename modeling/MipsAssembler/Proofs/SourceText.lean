import Mathlib
import MipsAssembler.Listing
import MipsAssembler.Proofs.Reading

/-!
# Writing programs as source text

`Statement.render` writes a program one statement to a line, in the spelling that a
person would use.  Scanning and reading the text gives the program back, for every
program whose names and numbers can be written at all.

The conditions on a program are stated twice.  `Statement.Admissible` is the form for
proofs: it is about statements, whose operands are of the right sort by their type.
`Item.Representable` is the form for readers: it is about items, of which anything can
be built, and goes through the instruction table: an operation is representable if its
spelling has a row and its operands are of the sort and number that the form in that row
asks for, with registers that exist, numbers that are not too long and lexical names.

The two forms differ in one item.  The jump to a label called `,` is read from the text
`j,` and from no other spelling of its mnemonic, and `,` is not a lexical name.
`Statement.admissible_iff` says that this is the only difference, so the items which come
out of source texts are exactly the representable ones and this one.
-/

namespace MipsAssembler

/-! ## Representable items -/

namespace Operand

/-- The number of a register. -/
def IsRegister (a : Operand) : Prop := ∃ n : Int, a = .number n ∧ 0 ≤ n ∧ n < 32

/-- A number that is not too long to be written. -/
def IsInteger (a : Operand) : Prop := ∃ n : Int, a = .number n ∧ Literal.Writable n

/-- A name that can be written as a label. -/
def IsName (a : Operand) : Prop := ∃ text : String, a = .name text ∧ Literal.IsLexical text

theorem isRegister_iff {a : Operand} : a.IsRegister ↔ ∃ r : Register, a = .ofRegister r := by
  constructor
  · rintro ⟨n, rfl, hnonneg, hlt⟩
    have htoNat : n.toNat < registerCount := by
      show n.toNat < 32
      omega
    refine ⟨⟨n.toNat, htoNat⟩, ?_⟩
    rw [ofRegister, Int.toNat_of_nonneg hnonneg]
  · rintro ⟨r, rfl⟩
    have hlt : r.val < 32 := r.isLt
    exact ⟨r.val, rfl, Int.natCast_nonneg _, by exact_mod_cast hlt⟩

theorem isRegister_ofRegister (r : Register) : (ofRegister r).IsRegister :=
  isRegister_iff.mpr ⟨r, rfl⟩

end Operand

/-- The operands that an operation with a given form stores. -/
def OperandForm.Fits : OperandForm → List Operand → Prop
  | threeRegisters, [a, b, c] => a.IsRegister ∧ b.IsRegister ∧ c.IsRegister
  | twoRegistersImmediate, [a, b, c] => a.IsRegister ∧ b.IsRegister ∧ c.IsInteger
  | twoRegistersLabel, [a, b, c] => a.IsRegister ∧ b.IsRegister ∧ c.IsName
  | label, [a] => a.IsName
  | registerMemory, [a, b, c] => a.IsRegister ∧ b.IsRegister ∧ c.IsInteger
  | _, _ => False

namespace Item

/-- An item that has a source text. -/
def Representable : Item → Prop
  | label name => Literal.IsLexical name
  | directive name args => name = dataDirective ∧ ∃ v, args = [.number v] ∧ Literal.Writable v
  | operation name args => ∃ m, Mnemonic.ofName? name = some m ∧ m.spec.form.Fits args
  | foreign _ => False

/-- The jump to a label called `,`. -/
def commaJump : Item := .operation Mnemonic.j.name [.name Token.comma]

end Item

namespace Statement

/-- The operands of an admissible statement fit the form of its instruction, except for
the one name that is not lexical. -/
theorem representable_of_admissible {s : Statement} (h : s.Admissible) :
    s.toItem.Representable ∨ s.toItem = Item.commaJump := by
  cases s with
  | label name => exact Or.inl h
  | data v => exact Or.inl ⟨rfl, v, rfl, h⟩
  | arith op rd rs rt =>
    exact Or.inl ⟨.arith op, Mnemonic.ofName?_name (.arith op), Operand.isRegister_ofRegister rd,
      Operand.isRegister_ofRegister rs, Operand.isRegister_ofRegister rt⟩
  | addi rd rs v =>
    exact Or.inl ⟨.addi, rfl, Operand.isRegister_ofRegister rd, Operand.isRegister_ofRegister rs,
      v, rfl, h⟩
  | beq first second target =>
    exact Or.inl ⟨.beq, rfl, Operand.isRegister_ofRegister second,
      Operand.isRegister_ofRegister first, target, rfl, h⟩
  | jump target =>
    rcases h with h | rfl
    · exact Or.inl ⟨.j, rfl, target, rfl, h⟩
    · exact Or.inr rfl
  | access op rd base offset =>
    exact Or.inl ⟨.access op, Mnemonic.ofName?_name (.access op),
      Operand.isRegister_ofRegister rd, Operand.isRegister_ofRegister base, offset, rfl, h⟩

/-- Only the conditions on names and numbers are left of a representable statement. -/
theorem admissible_of_representable {s : Statement} (h : s.toItem.Representable) :
    s.Admissible := by
  cases s with
  | label name => exact h
  | data v =>
    obtain ⟨-, w, hw, h⟩ := h
    cases hw
    exact h
  | arith op rd rs rt => exact trivial
  | addi rd rs v =>
    obtain ⟨m, hm, hfits⟩ := h
    cases hm
    obtain ⟨-, -, w, hw, h⟩ := hfits
    cases hw
    exact h
  | beq first second target =>
    obtain ⟨m, hm, hfits⟩ := h
    cases hm
    obtain ⟨-, -, text, htext, h⟩ := hfits
    cases htext
    exact h
  | jump target =>
    obtain ⟨m, hm, hfits⟩ := h
    cases hm
    obtain ⟨text, htext, h⟩ := hfits
    cases htext
    exact Or.inl h
  | access op rd base offset =>
    obtain ⟨m, hm, hfits⟩ := h
    have hop : Mnemonic.ofName? op.name = some (.access op) := Mnemonic.ofName?_name (.access op)
    cases hop.symm.trans hm
    obtain ⟨-, -, w, hw, h⟩ := hfits
    cases hw
    exact h

theorem eq_jump_of_toItem_eq_commaJump {s : Statement} (h : s.toItem = Item.commaJump) :
    s = .jump Token.comma := by
  cases s with
  | jump target =>
    cases h
    rfl
  | _ => exact absurd h (by simp [toItem, Item.commaJump])

/-- **A statement can be written and read exactly when its item is representable or the
jump to `,`.** -/
theorem admissible_iff {s : Statement} :
    s.Admissible ↔ s.toItem.Representable ∨ s.toItem = Item.commaJump := by
  refine ⟨representable_of_admissible, ?_⟩
  rintro (h | h)
  · exact admissible_of_representable h
  · rw [eq_jump_of_toItem_eq_commaJump h]
    exact Or.inr rfl

/-- Operands that fit the form of an instruction are those of a statement. -/
theorem exists_of_fits {m : Mnemonic} {args : List Operand} (h : m.spec.form.Fits args) :
    ∃ s : Statement, s.toItem = .operation m.name args := by
  cases m with
  | arith op =>
    match args, h with
    | [a, b, c], ⟨ha, hb, hc⟩ =>
      obtain ⟨rd, rfl⟩ := Operand.isRegister_iff.mp ha
      obtain ⟨rs, rfl⟩ := Operand.isRegister_iff.mp hb
      obtain ⟨rt, rfl⟩ := Operand.isRegister_iff.mp hc
      exact ⟨.arith op rd rs rt, rfl⟩
  | addi =>
    match args, h with
    | [a, b, c], ⟨ha, hb, hc⟩ =>
      obtain ⟨rd, rfl⟩ := Operand.isRegister_iff.mp ha
      obtain ⟨rs, rfl⟩ := Operand.isRegister_iff.mp hb
      obtain ⟨v, rfl, -⟩ := hc
      exact ⟨.addi rd rs v, rfl⟩
  | beq =>
    match args, h with
    | [a, b, c], ⟨ha, hb, hc⟩ =>
      obtain ⟨second, rfl⟩ := Operand.isRegister_iff.mp ha
      obtain ⟨first, rfl⟩ := Operand.isRegister_iff.mp hb
      obtain ⟨target, rfl, -⟩ := hc
      exact ⟨.beq first second target, rfl⟩
  | j =>
    match args, h with
    | [a], ha =>
      obtain ⟨target, rfl, -⟩ := ha
      exact ⟨.jump target, rfl⟩
  | access op =>
    match args, h with
    | [a, b, c], ⟨ha, hb, hc⟩ =>
      obtain ⟨rd, rfl⟩ := Operand.isRegister_iff.mp ha
      obtain ⟨base, rfl⟩ := Operand.isRegister_iff.mp hb
      obtain ⟨offset, rfl, -⟩ := hc
      exact ⟨.access op rd base offset, rfl⟩

theorem exists_toItem {item : Item} (h : item.Representable ∨ item = Item.commaJump) :
    ∃ s : Statement, s.toItem = item := by
  rcases h with h | rfl
  · cases item with
    | label name => exact ⟨.label name, rfl⟩
    | directive name args =>
      obtain ⟨rfl, v, rfl, -⟩ := h
      exact ⟨.data v, rfl⟩
    | operation name args =>
      obtain ⟨m, hm, hfits⟩ := h
      rw [Mnemonic.eq_name_of_ofName? hm]
      exact exists_of_fits hfits
    | foreign value => exact absurd h id
  · exact ⟨.jump Token.comma, rfl⟩

/-- Items that can be written are the items of a program. -/
theorem exists_toItems {items : List Item}
    (h : ∀ item ∈ items, item.Representable ∨ item = Item.commaJump) :
    ∃ program, toItems program = items := by
  induction items with
  | nil => exact ⟨[], rfl⟩
  | cons item items ih =>
    obtain ⟨s, rfl⟩ := exists_toItem (h item List.mem_cons_self)
    obtain ⟨program, rfl⟩ := ih fun other hother => h other (List.mem_cons_of_mem _ hother)
    exact ⟨s :: program, rfl⟩

/-- A program is admissible if all its items can be written. -/
theorem forall_admissible_iff {program : List Statement} :
    (∀ s ∈ program, s.Admissible) ↔
      ∀ item ∈ toItems program, item.Representable ∨ item = Item.commaJump := by
  rw [toItems, List.forall_mem_map]
  exact forall₂_congr fun s _ => admissible_iff

/-! ## Lines -/

/-- A line with a mnemonic and three operands. -/
def threeOperands (mnemonic a b c : String) : String :=
  mnemonic ++ " " ++ a ++ ", " ++ b ++ ", " ++ c

/-- The line for a statement.  A comma has to stand directly behind the word it closes,
so the jump to `,` is written without a blank. -/
def line : Statement → String
  | label name => name ++ ":"
  | data v => ".dw " ++ toString v
  | arith op rd rs rt =>
    threeOperands op.name (Literal.registerText rd) (Literal.registerText rs)
      (Literal.registerText rt)
  | addi rd rs v =>
    threeOperands "addi" (Literal.registerText rd) (Literal.registerText rs) (toString v)
  | beq first second target =>
    threeOperands "beq" (Literal.registerText first) (Literal.registerText second) target
  | jump target => if target = Token.comma then "j," else "j " ++ target
  | access op rd base offset =>
    op.name ++ " " ++ Literal.registerText rd ++ ", " ++ Literal.accessText offset base

/-- A program as source text, one statement to a line. -/
def render (program : List Statement) : String := Listing.fileText (program.map line)

theorem toList_render (program : List Statement) :
    (render program).toList = program.flatMap fun s => s.line.toList ++ ['\n'] := by
  rw [render, Listing.fileText, String.toList_join, List.map_map, List.flatMap_map]
  simp

/-! ## The words of a line -/

theorem continuesWord_of_isDigit {c : Char} (h : Literal.isDigit c = true) :
    Token.continuesWord c = true ∧ c ≠ '#' := by
  refine ⟨Literal.continuesWord_iff_notMem.mpr fun hmem => ?_, ?_⟩
  · fin_cases hmem <;> exact absurd h (by decide)
  · rintro rfl
    exact absurd h (by decide)

theorem continuesWord_of_mem_toString {n : Int} {c : Char} (h : c ∈ (toString n).toList) :
    Token.continuesWord c = true ∧ c ≠ '#' := by
  rcases Literal.isDigit_or_minus_of_mem_toString h with hdigit | rfl
  · exact continuesWord_of_isDigit hdigit
  · decide

theorem continuesWord_of_mem_registerText {r : Register} {c : Char}
    (h : c ∈ (Literal.registerText r).toList) : Token.continuesWord c = true ∧ c ≠ '#' := by
  rw [Literal.toList_registerText, List.mem_cons] at h
  rcases h with rfl | h
  · decide
  · exact continuesWord_of_mem_toString h

theorem isWord_toString (n : Int) : Token.IsWord (toString n) := by
  refine Token.isWord_of_forall ?_ fun c hc => continuesWord_of_mem_toString hc
  rw [Literal.toList_toString_int]
  split
  · simp
  · exact Nat.toDigits_ne_nil

theorem isWord_registerText (r : Register) : Token.IsWord (Literal.registerText r) := by
  refine Token.isWord_of_forall ?_ fun c hc => continuesWord_of_mem_registerText hc
  rw [Literal.toList_registerText]
  simp

theorem isWord_accessText (offset : Int) (base : Register) :
    Token.IsWord (Literal.accessText offset base) := by
  refine Token.isWord_of_forall ?_ fun c hc => ?_
  · rw [Literal.toList_accessText]
    simp
  · rw [Literal.toList_accessText, List.mem_append, List.mem_cons, List.mem_append,
      List.mem_singleton] at hc
    rcases hc with hc | rfl | hc | rfl
    · exact continuesWord_of_mem_toString hc
    · decide
    · exact continuesWord_of_mem_registerText hc
    · decide

/-- A token is a word if all its characters are seen to be those of a word. -/
theorem isWord_of_all {token : Token} (hne : token.toList ≠ [])
    (h : token.toList.all (fun c => Token.continuesWord c && c != '#') = true) : token.IsWord := by
  refine Token.isWord_of_forall hne fun c hc => ?_
  simpa using List.all_eq_true.mp h c hc

theorem isWord_name (m : Mnemonic) : Token.IsWord m.name := by
  have hnames : ∀ m ∈ Mnemonic.all, m.name.toList ≠ [] ∧
      m.name.toList.all (fun c => Token.continuesWord c && c != '#') = true := by decide
  obtain ⟨hne, hchars⟩ := hnames m m.mem_all
  exact isWord_of_all hne hchars

theorem isWord_dataDirective : Token.IsWord dataDirective :=
  isWord_of_all (by decide) (by decide)

/-! ## The scan of a line -/

section Scan

variable {mnemonic a b c : Token}

/-- An operand, the comma behind it and a blank. -/
theorem emits_operand (ha : a.IsWord) : Token.Emits (a.toList ++ [',', ' ']) [a, Token.comma] := by
  have hblank : Token.Emits [' '] [] := .blank (by decide)
  simpa using (Token.Emits.word_comma ha).append hblank

theorem emits_threeOperands (hm : mnemonic.IsWord) (ha : a.IsWord) (hb : b.IsWord)
    (hc : c.IsWord) :
    Token.Emits ((threeOperands mnemonic a b c).toList ++ ['\n'])
      [mnemonic, a, Token.comma, b, Token.comma, c] := by
  have hfirst := Token.Emits.word_blank hm (b := ' ') (by decide)
  have hlast := Token.Emits.word_blank hc (b := '\n') (by decide)
  have hall := hfirst.append ((emits_operand ha).append ((emits_operand hb).append hlast))
  simpa [threeOperands, String.toList_append] using hall

/-- The line of an admissible statement is scanned to the tokens of the statement. -/
theorem emits_line {s : Statement} (h : s.Admissible) :
    Token.Emits (s.line.toList ++ ['\n']) s.tokens := by
  cases s with
  | label name =>
    exact Token.Emits.word_blank (Literal.IsLexical.isWord_declaration h) (by decide)
  | data v =>
    have hfirst := Token.Emits.word_blank isWord_dataDirective (b := ' ') (by decide)
    have hlast := Token.Emits.word_blank (isWord_toString v) (b := '\n') (by decide)
    simpa [line, tokens, opening, operands, dataDirective, String.toList_append] using
      hfirst.append hlast
  | arith op rd rs rt =>
    exact emits_threeOperands (isWord_name (.arith op)) (isWord_registerText rd)
      (isWord_registerText rs) (isWord_registerText rt)
  | addi rd rs v =>
    exact emits_threeOperands (isWord_name .addi) (isWord_registerText rd)
      (isWord_registerText rs) (isWord_toString v)
  | beq first second target =>
    exact emits_threeOperands (isWord_name .beq) (isWord_registerText first)
      (isWord_registerText second) (Literal.IsLexical.isWord h)
  | jump target =>
    by_cases hcomma : target = Token.comma
    · -- the comma closes the mnemonic
      have hclosed := Token.Emits.word_comma (isWord_name .j)
      have hblank : Token.Emits ['\n'] [] := .blank (by decide)
      rw [line, if_pos hcomma, hcomma]
      exact hclosed.append hblank
    · have hword : Token.IsWord target := by
        rcases h with h | h
        · exact h.isWord
        · exact absurd h hcomma
      have hfirst := Token.Emits.word_blank (isWord_name .j) (b := ' ') (by decide)
      have hlast := Token.Emits.word_blank hword (b := '\n') (by decide)
      rw [line, if_neg hcomma]
      simpa [tokens, opening, operands, Mnemonic.name, String.toList_append] using
        hfirst.append hlast
  | access op rd base offset =>
    have hfirst := Token.Emits.word_blank (isWord_name (.access op)) (b := ' ') (by decide)
    have hlast := Token.Emits.word_blank (isWord_accessText offset base) (b := '\n') (by decide)
    have hall := hfirst.append ((emits_operand (isWord_registerText rd)).append hlast)
    simpa [line, tokens, opening, operands, Mnemonic.name, String.toList_append] using hall

end Scan

/-! ## The round trip -/

theorem scan_render {program : List Statement} (h : ∀ s ∈ program, s.Admissible) :
    Token.scan (render program) = .ok (program.flatMap tokens) := by
  refine Token.Emits.scan_eq ?_
  rw [toList_render]
  exact Token.Emits.flatMap fun s hs => emits_line (h s hs)

/-- The text of an admissible program is read as this program. -/
theorem read_scan_render {program : List Statement} (h : ∀ s ∈ program, s.Admissible) :
    (Token.scan (render program) >>= read) = .ok program := by
  rw [scan_render h, Outcome.ok_bind, read_flatMap_tokens h]

end Statement

/-- **The programs that source texts spell.**  A list of representable items is that of a
program, and the text of this program is scanned and read as the same program.  The lists
of items that are read from any text at all are those in which every item is
representable or is the jump to `,`. -/
theorem front_end_image (items : List Item) :
    ((∀ item ∈ items, item.Representable) →
      (∃ program, Statement.toItems program = items) ∧
      ∀ program, Statement.toItems program = items →
        (Token.scan (Statement.render program) >>= Statement.read) = .ok program) ∧
    ((∃ source program, (Token.scan source >>= Statement.read) = .ok program ∧
        Statement.toItems program = items) ↔
      ∀ item ∈ items, item.Representable ∨ item = Item.commaJump) := by
  refine ⟨fun h => ?_, ?_, fun h => ?_⟩
  · have hor : ∀ item ∈ items, item.Representable ∨ item = Item.commaJump :=
      fun item hitem => Or.inl (h item hitem)
    refine ⟨Statement.exists_toItems hor, ?_⟩
    rintro program rfl
    exact Statement.read_scan_render (Statement.forall_admissible_iff.mpr hor)
  · rintro ⟨source, program, hread, rfl⟩
    obtain ⟨tokens, hscan, hread⟩ := Outcome.bind_eq_ok_iff.mp hread
    refine Statement.forall_admissible_iff.mp ?_
    exact Statement.admissible_of_read (Token.wellFormed_of_scan hscan) hread
  · obtain ⟨program, rfl⟩ := Statement.exists_toItems h
    refine ⟨Statement.render program, program, ?_, rfl⟩
    exact Statement.read_scan_render (Statement.forall_admissible_iff.mpr h)

/-- The text `j,` is read, but its only item refers to a name that is not lexical. -/
theorem read_scan_comma_jump_not_representable :
    (Token.scan "j," >>= Statement.read) = .ok [.jump ","] ∧
      ¬ ∀ item ∈ Statement.toItems [.jump ","], item.Representable := by
  refine ⟨Outcome.eq_ok_of_toOption (by decide +kernel), fun h => ?_⟩
  obtain ⟨m, hm, hfits⟩ := h _ List.mem_cons_self
  cases hm
  obtain ⟨text, htext, hlexical⟩ := hfits
  cases htext
  exact hlexical.chars ',' (by decide) (by decide)

end MipsAssembler
