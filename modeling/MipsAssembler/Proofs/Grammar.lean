import Mathlib
import MipsAssembler.Proofs.Reading

/-!
# The grammar of statements

The reader is a loop with a cursor.  At each turn it looks at one token, decides how many
more belong to it, looks those up by position and moves on, and a position behind the last
token is looked up as the empty token.  None of this can be seen in what it accepts.  That
is a grammar without recursion: a program is a row of groups of tokens, and every group
derives one item by one of seven rules, `Statement.Derives`.

The grammar is written with the spellings of the instructions and of the comma, and with
the operands of an item in the order in which the later stages find them, so it says
nothing through the instruction table.  It is also not restricted to tokens that a scan
returns: any texts may stand in the list, empty ones included.

## How the loop and the grammar agree

One turn of the loop is the point where all the work is.  `derives_of_readOne` says that
the tokens taken in a turn form a group; it has to show that no operand was looked up
behind the end, which holds because no literal is empty.  `Derives.exists_readOne` says
that a group is taken in one turn, whatever follows it, so the turn depends on nothing
behind the group.  Whole runs follow by induction, from the left for the loop and along the
groups for the grammar.

Since the loop is a function, no list of tokens can be cut into groups in two ways.
-/

namespace MipsAssembler

namespace Literal

/-- A name that the reader accepts for a label: nonempty, not beginning with a digit,
without colons. -/
structure IsLabelName (name : String) : Prop where
  ne_nil : name.toList ≠ []
  head : ∀ c, name.toList.head? = some c → isDigit c = false
  no_colon : ':' ∉ name.toList

variable {token : Token}

theorem label_eq_ok_iff_isLabelName {name : String} :
    label token = .ok name ↔ name = token ∧ IsLabelName token := by
  rw [label_eq_ok_iff]
  refine and_congr_right fun _ => ⟨?_, fun h => ⟨h.ne_nil, h.head, h.no_colon⟩⟩
  rintro ⟨hne, hhead, hcolon⟩
  exact ⟨hne, hhead, hcolon⟩

theorem IsLabelName.label_eq {name : String} (h : IsLabelName name) : label name = .ok name :=
  label_eq_ok_iff_isLabelName.mpr ⟨rfl, h⟩

/-! ## No literal is empty -/

theorem ne_nil_of_numeral {n : Int} (h : numeral token = .ok n) : token.toList ≠ [] := by
  intro hnil
  obtain ⟨negative, cs, hsplit, hcs, -⟩ := numeral_eq_ok_iff.mp h
  rw [hnil] at hsplit
  cases hsplit
  exact hcs.ne_nil rfl

theorem ne_nil_of_register {r : Register} (h : register token = .ok r) : token.toList ≠ [] := by
  intro hnil
  unfold register at h
  rw [hnil] at h
  cases h

theorem ne_nil_of_access {result : Int × Register} (h : access token = .ok result) :
    token.toList ≠ [] := by
  intro hnil
  unfold access at h
  rw [hnil] at h
  cases h

end Literal

theorem Arithmetic.mem_names_iff {name : String} :
    name ∈ ["add", "sub", "and", "or", "slt"] ↔ ∃ op : Arithmetic, op.name = name := by
  constructor
  · intro h
    fin_cases h
    exacts [⟨.add, rfl⟩, ⟨.sub, rfl⟩, ⟨.and, rfl⟩, ⟨.or, rfl⟩, ⟨.slt, rfl⟩]
  · rintro ⟨op, rfl⟩
    cases op <;> decide

theorem Access.mem_names_iff {name : String} :
    name ∈ ["lb", "sb"] ↔ ∃ op : Access, op.name = name := by
  constructor
  · intro h
    fin_cases h
    exacts [⟨.lb, rfl⟩, ⟨.sb, rfl⟩]
  · rintro ⟨op, rfl⟩
    cases op <;> decide

namespace Statement

/-- A group of tokens derives an item. -/
inductive Derives : List Token → Item → Prop
  | label {name : String} (hname : Literal.IsLabelName name) :
      Derives [name ++ ":"] (.label name)
  | data {a : Token} {v : Int} (ha : Literal.numeral a = .ok v) :
      Derives [".dw", a] (.directive ".dw" [.number v])
  | arith {m a b c : Token} {rd rs rt : Register} (hm : m ∈ ["add", "sub", "and", "or", "slt"])
      (ha : Literal.register a = .ok rd) (hb : Literal.register b = .ok rs)
      (hc : Literal.register c = .ok rt) :
      Derives [m, a, ",", b, ",", c]
        (.operation m [.ofRegister rd, .ofRegister rs, .ofRegister rt])
  | addi {a b c : Token} {rd rs : Register} {v : Int} (ha : Literal.register a = .ok rd)
      (hb : Literal.register b = .ok rs) (hc : Literal.numeral c = .ok v) :
      Derives ["addi", a, ",", b, ",", c]
        (.operation "addi" [.ofRegister rd, .ofRegister rs, .number v])
  | beq {a b c : Token} {first second : Register} (ha : Literal.register a = .ok first)
      (hb : Literal.register b = .ok second) (hc : Literal.IsLabelName c) :
      Derives ["beq", a, ",", b, ",", c]
        (.operation "beq" [.ofRegister second, .ofRegister first, .name c])
  | jump {a : Token} (ha : Literal.IsLabelName a) :
      Derives ["j", a] (.operation "j" [.name a])
  | access {m a b : Token} {rd base : Register} {offset : Int} (hm : m ∈ ["lb", "sb"])
      (ha : Literal.register a = .ok rd) (hb : Literal.access b = .ok (offset, base)) :
      Derives [m, a, ",", b]
        (.operation m [.ofRegister rd, .ofRegister base, .number offset])

/-! ## One turn takes a group -/

section Turn

variable {token : Token} {rest : List Token} {s : Statement} {taken : Nat}

/-- Only the empty token stands behind the last one. -/
theorem lt_length_of_operandAt {k : Nat} (h : (operandAt rest k).toList ≠ []) :
    k < rest.length :=
  (List.getElem?_eq_some_iff.mp (getElem?_of_operandAt h)).1

/-- The tokens that are there are the operands at their positions. -/
theorem take_eq_map_operandAt (h : taken ≤ rest.length) :
    rest.take taken = (List.range taken).map (operandAt rest) := by
  refine List.ext_getElem (by simpa using h) fun i hi hi' => ?_
  have hlt : i < rest.length := by
    rw [List.length_take] at hi
    omega
  rw [List.getElem_take, List.getElem_map, List.getElem_range, operandAt,
    List.getD_eq_getElem rest "" hlt]

/-- The operands that an instruction takes are there, and form a group with its
mnemonic. -/
theorem derives_of_readOperands {m : Mnemonic} (h : readOperands m rest = .ok (s, taken)) :
    taken ≤ rest.length ∧
      Derives (m.name :: (List.range taken).map (operandAt rest)) s.toItem := by
  cases m with
  | arith op =>
    obtain ⟨rd, hrd, h⟩ := Outcome.bind_eq_ok_iff.mp h
    obtain ⟨_, hcomma, h⟩ := Outcome.bind_eq_ok_iff.mp h
    obtain ⟨rs, hrs, h⟩ := Outcome.bind_eq_ok_iff.mp h
    obtain ⟨_, hcomma', h⟩ := Outcome.bind_eq_ok_iff.mp h
    obtain ⟨rt, hrt, h⟩ := Outcome.bind_eq_ok_iff.mp h
    cases h
    refine ⟨lt_length_of_operandAt (Literal.ne_nil_of_register hrt), ?_⟩
    show Derives [op.name, operandAt rest 0, operandAt rest 1, operandAt rest 2,
      operandAt rest 3, operandAt rest 4] _
    rw [Literal.comma_eq_ok_iff.mp hcomma, Literal.comma_eq_ok_iff.mp hcomma']
    exact .arith (Arithmetic.mem_names_iff.mpr ⟨op, rfl⟩) hrd hrs hrt
  | addi =>
    obtain ⟨rd, hrd, h⟩ := Outcome.bind_eq_ok_iff.mp h
    obtain ⟨_, hcomma, h⟩ := Outcome.bind_eq_ok_iff.mp h
    obtain ⟨rs, hrs, h⟩ := Outcome.bind_eq_ok_iff.mp h
    obtain ⟨_, hcomma', h⟩ := Outcome.bind_eq_ok_iff.mp h
    obtain ⟨v, hv, h⟩ := Outcome.bind_eq_ok_iff.mp h
    cases h
    refine ⟨lt_length_of_operandAt (Literal.ne_nil_of_numeral hv), ?_⟩
    show Derives ["addi", operandAt rest 0, operandAt rest 1, operandAt rest 2,
      operandAt rest 3, operandAt rest 4] _
    rw [Literal.comma_eq_ok_iff.mp hcomma, Literal.comma_eq_ok_iff.mp hcomma']
    exact .addi hrd hrs hv
  | beq =>
    obtain ⟨second, hsecond, h⟩ := Outcome.bind_eq_ok_iff.mp h
    obtain ⟨_, hcomma, h⟩ := Outcome.bind_eq_ok_iff.mp h
    obtain ⟨first, hfirst, h⟩ := Outcome.bind_eq_ok_iff.mp h
    obtain ⟨_, hcomma', h⟩ := Outcome.bind_eq_ok_iff.mp h
    obtain ⟨target, htarget, h⟩ := Outcome.bind_eq_ok_iff.mp h
    cases h
    obtain ⟨rfl, hname⟩ := Literal.label_eq_ok_iff_isLabelName.mp htarget
    refine ⟨lt_length_of_operandAt hname.ne_nil, ?_⟩
    show Derives ["beq", operandAt rest 0, operandAt rest 1, operandAt rest 2,
      operandAt rest 3, operandAt rest 4] _
    rw [Literal.comma_eq_ok_iff.mp hcomma, Literal.comma_eq_ok_iff.mp hcomma']
    exact .beq hfirst hsecond hname
  | j =>
    obtain ⟨target, htarget, h⟩ := Outcome.bind_eq_ok_iff.mp h
    cases h
    obtain ⟨rfl, hname⟩ := Literal.label_eq_ok_iff_isLabelName.mp htarget
    exact ⟨lt_length_of_operandAt hname.ne_nil, .jump hname⟩
  | access op =>
    obtain ⟨rd, hrd, h⟩ := Outcome.bind_eq_ok_iff.mp h
    obtain ⟨_, hcomma, h⟩ := Outcome.bind_eq_ok_iff.mp h
    obtain ⟨⟨offset, base⟩, haccess, h⟩ := Outcome.bind_eq_ok_iff.mp h
    cases h
    refine ⟨lt_length_of_operandAt (Literal.ne_nil_of_access haccess), ?_⟩
    show Derives [op.name, operandAt rest 0, operandAt rest 1, operandAt rest 2] _
    rw [Literal.comma_eq_ok_iff.mp hcomma]
    exact .access (Access.mem_names_iff.mpr ⟨op, rfl⟩) hrd haccess

/-- The tokens of one turn are there and form a group. -/
theorem derives_of_readOne (h : readOne token rest = .ok (s, taken)) :
    taken ≤ rest.length ∧ Derives (token :: rest.take taken) s.toItem := by
  unfold readOne at h
  split at h
  · rename_i hcolon
    obtain ⟨name, hlabel, h⟩ := Outcome.bind_eq_ok_iff.mp h
    cases h
    obtain ⟨rfl, hname⟩ := Literal.label_eq_ok_iff_isLabelName.mp hlabel
    -- the token is the name with the colon put back
    have htoken : String.ofList token.toList.dropLast ++ ":" = token := by
      refine String.toList_inj.mp ?_
      rw [String.toList_append, String.toList_ofList]
      exact List.dropLast_append_getLast? ':' hcolon
    have hgroup := Derives.label hname
    rw [htoken] at hgroup
    exact ⟨Nat.zero_le _, hgroup⟩
  · split at h
    · rename_i hdirective
      obtain ⟨v, hv, h⟩ := Outcome.bind_eq_ok_iff.mp h
      cases h
      have hle : 1 ≤ rest.length := lt_length_of_operandAt (Literal.ne_nil_of_numeral hv)
      rw [take_eq_map_operandAt hle, hdirective]
      exact ⟨hle, .data hv⟩
    · split at h
      · rename_i m hm
        obtain ⟨hle, hgroup⟩ := derives_of_readOperands h
        rw [take_eq_map_operandAt hle, Mnemonic.eq_name_of_ofName? hm]
        exact ⟨hle, hgroup⟩
      · cases h

/-- A group is taken in one turn, whatever follows it. -/
theorem Derives.exists_readOne {group : List Token} {item : Item} (h : Derives group item) :
    ∃ token operands s, group = token :: operands ∧ toItem s = item ∧
      ∀ rest, readOne token (operands ++ rest) = .ok (s, operands.length) := by
  cases h with
  | @label name hname =>
    exact ⟨name ++ ":", [], .label name, rfl, rfl, fun rest =>
      readOne_declaration rest hname.label_eq⟩
  | @data a v ha => exact ⟨".dw", [a], .data v, rfl, rfl, fun rest => readOne_data rest ha⟩
  | @arith m a b c rd rs rt hm ha hb hc =>
    obtain ⟨op, rfl⟩ := Arithmetic.mem_names_iff.mp hm
    refine ⟨op.name, [a, ",", b, ",", c], .arith op rd rs rt, rfl, rfl, fun rest => ?_⟩
    exact (readOne_name _ (.arith op)).trans (readOperands_arith rest op ha hb hc)
  | @addi a b c rd rs v ha hb hc =>
    refine ⟨"addi", [a, ",", b, ",", c], .addi rd rs v, rfl, rfl, fun rest => ?_⟩
    exact (readOne_name _ .addi).trans (readOperands_addi rest ha hb hc)
  | @beq a b c first second ha hb hc =>
    refine ⟨"beq", [a, ",", b, ",", c], .beq first second c, rfl, rfl, fun rest => ?_⟩
    exact (readOne_name _ .beq).trans (readOperands_beq rest ha hb hc.label_eq)
  | @jump a ha =>
    refine ⟨"j", [a], .jump a, rfl, rfl, fun rest => ?_⟩
    exact (readOne_name _ .j).trans (readOperands_j rest ha.label_eq)
  | @access m a b rd base offset hm ha hb =>
    obtain ⟨op, rfl⟩ := Access.mem_names_iff.mp hm
    refine ⟨op.name, [a, ",", b], .access op rd base offset, rfl, rfl, fun rest => ?_⟩
    exact (readOne_name _ (.access op)).trans (readOperands_access rest op ha hb)

end Turn

/-! ## Runs of the reader -/

/-- The statements that were read before do not matter for those that follow. -/
theorem readFrom_eq_map (done : List Statement) (tokens : List Token) :
    readFrom done tokens = (done.reverse ++ ·) <$> read tokens := by
  have hfrom (recent : List Statement) : readFrom (recent ++ done) tokens =
      (done.reverse ++ ·) <$> readFrom recent tokens := by
    fun_induction readFrom recent tokens with
    | case1 recent =>
      rw [readFrom, List.reverse_append]
      rfl
    | case2 recent token rest fault hone =>
      rw [readFrom, hone]
      rfl
    | case3 recent token rest statement taken hone ih =>
      rw [readFrom, hone]
      exact ih
  exact hfrom []

/-- A list of tokens that is read is a row of groups, one for each statement. -/
theorem exists_groups_of_readFrom {done program : List Statement} {tokens : List Token}
    (h : readFrom done tokens = .ok program) :
    ∃ groups new, program = done.reverse ++ new ∧ groups.flatten = tokens ∧
      List.Forall₂ Derives groups (toItems new) := by
  fun_induction readFrom done tokens with
  | case1 done =>
    cases h
    exact ⟨[], [], (List.append_nil _).symm, rfl, .nil⟩
  | case2 => cases h
  | case3 done token rest statement taken hone ih =>
    obtain ⟨groups, new, hprogram, hflatten, hgroups⟩ := ih h
    obtain ⟨-, hgroup⟩ := derives_of_readOne hone
    refine ⟨(token :: rest.take taken) :: groups, statement :: new, ?_, ?_, .cons hgroup hgroups⟩
    · rw [hprogram, List.reverse_cons, List.append_assoc, List.singleton_append]
    · rw [List.flatten_cons, hflatten, List.cons_append, List.take_append_drop]

/-- A row of groups is read as the items that it derives, and then what follows it. -/
theorem exists_readFrom_of_groups {groups : List (List Token)} {items : List Item}
    (h : List.Forall₂ Derives groups items) :
    ∃ program, toItems program = items ∧ ∀ done rest,
      readFrom done (groups.flatten ++ rest) = readFrom (program.reverse ++ done) rest := by
  induction h with
  | nil => exact ⟨[], rfl, fun _ _ => rfl⟩
  | cons hgroup _ ih =>
    obtain ⟨token, operands, s, rfl, rfl, hread⟩ := hgroup.exists_readOne
    obtain ⟨program, rfl, hprogram⟩ := ih
    refine ⟨s :: program, rfl, fun done rest => ?_⟩
    rw [List.flatten_cons, List.append_assoc, List.cons_append, readFrom, hread]
    simp only [List.drop_left]
    rw [hprogram, List.reverse_cons, List.append_assoc, List.singleton_append]

/-- The groups of a list of tokens are read as the items that they derive. -/
theorem read_flatten {groups : List (List Token)} {items : List Item}
    (h : List.Forall₂ Derives groups items) :
    ∃ program, toItems program = items ∧ read groups.flatten = .ok program := by
  obtain ⟨program, hitems, hread⟩ := exists_readFrom_of_groups h
  refine ⟨program, hitems, ?_⟩
  have hall := hread [] []
  rwa [List.append_nil, List.append_nil, readFrom, List.reverse_reverse] at hall

/-- Tokens that are read as a program may be put in front of any others. -/
theorem read_append {tokens : List Token} {program : List Statement}
    (h : read tokens = .ok program) (more : List Token) :
    read (tokens ++ more) = (program ++ ·) <$> read more := by
  obtain ⟨groups, new, hnew, rfl, hgroups⟩ := exists_groups_of_readFrom h
  obtain ⟨program', -, hread⟩ := exists_readFrom_of_groups hgroups
  have hself := hread [] []
  rw [List.append_nil, List.append_nil, readFrom, List.reverse_reverse] at hself
  have hsame : program = program' := Except.ok.inj (h.symm.trans hself)
  rw [read, hread, List.append_nil, readFrom_eq_map, List.reverse_reverse, ← hsame]

/-! ## No list of tokens has two readings -/

theorem Derives.ne_nil {group : List Token} {item : Item} (h : Derives group item) :
    group ≠ [] := by
  obtain ⟨token, operands, -, rfl, -⟩ := h.exists_readOne
  exact List.cons_ne_nil token operands

/-- If two rows of tokens begin with groups and are the same, so are these groups and what
they derive. -/
theorem Derives.eq_of_append_eq {group group' rest rest' : List Token} {item item' : Item}
    (h : Derives group item) (h' : Derives group' item')
    (heq : group ++ rest = group' ++ rest') : group = group' ∧ item = item' := by
  obtain ⟨token, operands, s, rfl, rfl, hread⟩ := h.exists_readOne
  obtain ⟨token', operands', s', rfl, rfl, hread'⟩ := h'.exists_readOne
  rw [List.cons_append, List.cons_append] at heq
  obtain ⟨rfl, htail⟩ := List.cons.inj heq
  have hboth := (hread rest).symm.trans ((congrArg (readOne token) htail).trans (hread' rest'))
  obtain ⟨hs, hlength⟩ := Prod.mk.inj (Except.ok.inj hboth)
  rw [(List.append_inj htail hlength).1, hs]
  exact ⟨rfl, rfl⟩

theorem groups_unique {groups groups' : List (List Token)} {items items' : List Item}
    (h : List.Forall₂ Derives groups items) (h' : List.Forall₂ Derives groups' items')
    (heq : groups.flatten = groups'.flatten) : groups = groups' ∧ items = items' := by
  induction h generalizing groups' items' with
  | nil =>
    cases h' with
    | nil => exact ⟨rfl, rfl⟩
    | cons hgroup _ =>
      rw [List.flatten_nil, List.flatten_cons] at heq
      exact absurd (List.append_eq_nil_iff.mp heq.symm).1 hgroup.ne_nil
  | cons hgroup _ ih =>
    cases h' with
    | nil =>
      rw [List.flatten_nil, List.flatten_cons] at heq
      exact absurd (List.append_eq_nil_iff.mp heq).1 hgroup.ne_nil
    | cons hgroup' hgroups' =>
      rw [List.flatten_cons, List.flatten_cons] at heq
      obtain ⟨rfl, rfl⟩ := hgroup.eq_of_append_eq hgroup' heq
      obtain ⟨rfl, rfl⟩ := ih hgroups' (List.append_cancel_left heq)
      exact ⟨rfl, rfl⟩

/-- **The reader accepts exactly its grammar.**  Any list of tokens is read as a list of
items exactly when it is a row of groups that derive these items one by one.  The groups
and the items are then the only ones.  A list of tokens that is no such row is refused with
a fault of syntax or of range. -/
theorem read_iff_derives (tokens : List Token) :
    (∀ items, toItems <$> read tokens = .ok items ↔
      ∃ groups, groups.flatten = tokens ∧ List.Forall₂ Derives groups items) ∧
    (∀ groups groups' items items', groups.flatten = tokens → groups'.flatten = tokens →
      List.Forall₂ Derives groups items → List.Forall₂ Derives groups' items' →
        groups = groups' ∧ items = items') ∧
    ((¬ ∃ groups items, groups.flatten = tokens ∧ List.Forall₂ Derives groups items) →
      ∃ fault, read tokens = .error fault ∧ (fault.kind = .reading ∨ fault.kind = .range)) := by
  refine ⟨fun items => ⟨fun h => ?_, ?_⟩, ?_, fun hnone => ?_⟩
  · cases hread : read tokens with
    | error fault =>
      rw [hread] at h
      cases h
    | ok program =>
      rw [hread] at h
      cases h
      obtain ⟨groups, new, rfl, hflatten, hgroups⟩ := exists_groups_of_readFrom hread
      exact ⟨groups, hflatten, hgroups⟩
  · rintro ⟨groups, rfl, hgroups⟩
    obtain ⟨program, rfl, hread⟩ := read_flatten hgroups
    rw [hread]
    rfl
  · rintro groups groups' items items' rfl hflatten' hgroups hgroups'
    exact groups_unique hgroups hgroups' hflatten'.symm
  · rcases Outcome.ok_or_error (read tokens) with ⟨program, hread⟩ | ⟨fault, hread⟩
    · obtain ⟨groups, new, rfl, hflatten, hgroups⟩ := exists_groups_of_readFrom hread
      exact absurd ⟨groups, _, hflatten, hgroups⟩ hnone
    · exact ⟨fault, hread, failsOnly_read tokens fault hread⟩

end Statement
end MipsAssembler
