import Mathlib
import MipsAssembler.Proofs.Grammar

/-!
# Reading stops at the first fault

The reader goes through its tokens once and stops where something is wrong.  One would say
that what comes behind that place does not matter, and this is almost so.  The exception is
a program that is cut off in the middle of a statement.  The tokens that are missing are
looked up as empty ones, so the fault is that an empty token was found, and with more tokens
there would have been something to find.

Such a fault can be told by its message, which ends in quoting an empty text as what was
found (`Fault.ReportsEnd`).  Every other fault is final: the tokens that have been looked at
until then are really there, and tokens added at the end change nothing.  If operands were
always checked from left to right, one could count how many have been looked at.  A branch
looks at its third token first, then at the second and the first, and only then at the fourth,
so the number of checks does not say which tokens are there.

## One token at a time

`Lasts x y` says that `y` is the outcome `x` again, unless `x` reports the end.  A literal
read at one position lasts.  The position may be there already, and then it holds the same
token afterwards, or it is behind the end, and then every literal reports that
(`Literal.RefusesEmpty`).  Lasting is kept by steps one after another (`Lasts.bind`), in
whatever order they look at the tokens, so it holds for every statement
(`Statement.lasts_readOne`).  For programs it follows by induction, since a statement that
is read takes tokens that are there.
-/

namespace MipsAssembler

/-- The message of a fault ends in an empty text as what was found. -/
def Fault.ReportsEnd (fault : Fault) : Prop :=
  "encontrado: ''".toList <:+ fault.message.toList

instance (fault : Fault) : Decidable fault.ReportsEnd :=
  inferInstanceAs (Decidable (_ <:+ _))

/-! ## Outcomes that last -/

/-- The second outcome is the first one again, unless the first reports the end. -/
inductive Lasts {α : Type} : Except Fault α → Except Fault α → Prop
  | same (x : Except Fault α) : Lasts x x
  | ended {fault : Fault} (h : fault.ReportsEnd) (y : Except Fault α) : Lasts (.error fault) y

namespace Lasts

variable {α β : Type}

theorem bind {x y : Except Fault α} {f g : α → Except Fault β} (h : Lasts x y)
    (hfg : ∀ a, Lasts (f a) (g a)) : Lasts (x >>= f) (y >>= g) := by
  cases h with
  | same x =>
    cases x with
    | error fault => exact .same (.error fault)
    | ok a => exact hfg a
  | ended h y => exact .ended h (y >>= g)

theorem eq_ok {a : α} {y : Except Fault α} (h : Lasts (.ok a) y) : y = .ok a := by
  cases h
  rfl

theorem eq_error {fault : Fault} {y : Except Fault α} (h : Lasts (.error fault) y)
    (hfault : ¬ fault.ReportsEnd) : y = .error fault := by
  cases h with
  | same => rfl
  | ended h => exact absurd h hfault

end Lasts

/-! ## Literals behind the end -/

namespace Literal

/-- The empty token is refused with a fault that reports the end. -/
def RefusesEmpty {α : Type} (literal : Token → Except Fault α) : Prop :=
  ∃ fault, literal "" = .error fault ∧ fault.ReportsEnd

theorem refusesEmpty_numeral : RefusesEmpty numeral := ⟨_, rfl, by decide +kernel⟩

theorem refusesEmpty_register : RefusesEmpty register := ⟨_, rfl, by decide +kernel⟩

theorem refusesEmpty_label : RefusesEmpty label := ⟨_, rfl, by decide +kernel⟩

theorem refusesEmpty_access : RefusesEmpty access := ⟨_, rfl, by decide +kernel⟩

theorem refusesEmpty_comma : RefusesEmpty comma := ⟨_, rfl, by decide +kernel⟩

/-- A literal at a certain position is read in the same way when tokens are added at the
end, unless the position was behind the end. -/
theorem RefusesEmpty.lasts {α : Type} {literal : Token → Except Fault α}
    (h : RefusesEmpty literal) (rest more : List Token) (k : Nat) :
    Lasts (literal (Statement.operandAt rest k))
      (literal (Statement.operandAt (rest ++ more) k)) := by
  rcases Nat.lt_or_ge k rest.length with hk | hk
  · have hsame : Statement.operandAt (rest ++ more) k = Statement.operandAt rest k :=
      List.getD_append rest more "" k hk
    rw [hsame]
    exact .same _
  · have hbehind : Statement.operandAt rest k = "" := List.getD_eq_default rest "" hk
    obtain ⟨fault, hempty, hend⟩ := h
    rw [hbehind, hempty]
    exact .ended hend _

end Literal

namespace Statement

/-! ## One statement -/

section Turn

variable (rest more : List Token)

/-- The operands of an instruction, one form at a time. -/
theorem lasts_readOperands (m : Mnemonic) :
    Lasts (readOperands m rest) (readOperands m (rest ++ more)) := by
  have hnumeral := Literal.refusesEmpty_numeral.lasts rest more
  have hregister := Literal.refusesEmpty_register.lasts rest more
  have hlabel := Literal.refusesEmpty_label.lasts rest more
  have haccess := Literal.refusesEmpty_access.lasts rest more
  have hcomma := Literal.refusesEmpty_comma.lasts rest more
  cases m with
  | arith op =>
    refine (hregister 0).bind fun rd => (hcomma 1).bind fun _ => ?_
    refine (hregister 2).bind fun rs => (hcomma 3).bind fun _ => ?_
    exact (hregister 4).bind fun rt => .same _
  | addi =>
    refine (hregister 0).bind fun rd => (hcomma 1).bind fun _ => ?_
    refine (hregister 2).bind fun rs => (hcomma 3).bind fun _ => ?_
    exact (hnumeral 4).bind fun v => .same _
  | beq =>
    refine (hregister 2).bind fun second => (hcomma 1).bind fun _ => ?_
    refine (hregister 0).bind fun first => (hcomma 3).bind fun _ => ?_
    exact (hlabel 4).bind fun target => .same _
  | j => exact (hlabel 0).bind fun target => .same _
  | access op =>
    refine (hregister 0).bind fun rd => (hcomma 1).bind fun _ => ?_
    exact (haccess 2).bind fun pair => .same _

/-- Which kind of statement is read depends on its first token only. -/
theorem lasts_readOne (token : Token) :
    Lasts (readOne token rest) (readOne token (rest ++ more)) := by
  unfold readOne
  by_cases hcolon : token.toList.getLast? = some ':'
  · rw [if_pos hcolon, if_pos hcolon]
    exact .same _
  · rw [if_neg hcolon, if_neg hcolon]
    by_cases hdirective : token = dataDirective
    · rw [if_pos hdirective, if_pos hdirective]
      exact (Literal.refusesEmpty_numeral.lasts rest more 0).bind fun v => .same _
    · rw [if_neg hdirective, if_neg hdirective]
      cases Mnemonic.ofName? token with
      | none => exact .same _
      | some m => exact lasts_readOperands rest more m

end Turn

/-! ## Programs -/

/-- A fault that does not report the end stays when tokens are added. -/
theorem readFrom_append_eq_error {done : List Statement} {tokens : List Token} {fault : Fault}
    (h : readFrom done tokens = .error fault) (hfault : ¬ fault.ReportsEnd) (more : List Token) :
    readFrom done (tokens ++ more) = .error fault := by
  fun_induction readFrom done tokens with
  | case1 => cases h
  | case2 done token rest fault' hone =>
    cases h
    have hlasts := lasts_readOne rest more token
    rw [hone] at hlasts
    rw [List.cons_append, readFrom, hlasts.eq_error hfault]
  | case3 done token rest statement taken hone ih =>
    have hlasts := lasts_readOne rest more token
    rw [hone] at hlasts
    -- the statement takes tokens that are there, so the added ones are behind the rest
    have htaken : taken ≤ rest.length := (derives_of_readOne hone).1
    rw [List.cons_append, readFrom, hlasts.eq_ok]
    simp only [List.drop_append_of_le_length htaken]
    exact ih h

/-- **The reader goes from statement to statement and stops at the first fault.**  If some
tokens are read as a program, then tokens added behind them are read as they would be alone:
their program is added, or their fault is the fault of the whole.  If the first tokens have a
fault that does not report the end, then this is the fault, whatever is added.  Any texts may
stand among the tokens, empty ones included. -/
theorem read_append_outcome (tokens more : List Token) :
    (∀ program, read tokens = .ok program →
      (∀ next, read more = .ok next → read (tokens ++ more) = .ok (program ++ next)) ∧
      ∀ fault, read more = .error fault → read (tokens ++ more) = .error fault) ∧
    ∀ fault, read tokens = .error fault → ¬ fault.ReportsEnd →
      read (tokens ++ more) = .error fault := by
  constructor
  · intro program h
    refine ⟨fun next hnext => ?_, fun fault hfault => ?_⟩
    · rw [read_append h, hnext]
      rfl
    · rw [read_append h, hfault]
      rfl
  · intro fault h hfault
    exact readFrom_append_eq_error h hfault more

/-- A branch to a register that does not exist, which is found before the missing comma, and
behind it a jump that is cut off. -/
theorem read_append_outcome_branch :
    read ["j", "x"] = .ok [.jump "x"] ∧ read ["j"] = .error .expectedLabel ∧
      read (["j", "x"] ++ ["j"]) = .error .expectedLabel ∧
      read ["beq", "$1", "y", "$32"] = .error (.noSuchRegister "$32") ∧
      ¬ (Fault.noSuchRegister "$32").ReportsEnd ∧
      read (["beq", "$1", "y", "$32"] ++ ["j"]) = .error (.noSuchRegister "$32") := by
  have hjump : read ["j", "x"] = .ok [.jump "x"] := by decide +kernel
  have hcut : read ["j"] = .error .expectedLabel := by decide +kernel
  have hbranch : read ["beq", "$1", "y", "$32"] = .error (.noSuchRegister "$32") := by
    decide +kernel
  have hmessage : ¬ (Fault.noSuchRegister "$32").ReportsEnd := by decide +kernel
  have hfirst := (read_append_outcome ["j", "x"] ["j"]).1 _ hjump
  have hsecond := (read_append_outcome ["beq", "$1", "y", "$32"] ["j"]).2 _ hbranch hmessage
  exact ⟨hjump, hcut, hfirst.2 _ hcut, hbranch, hmessage, hsecond⟩

-- a fault that reports the end may go away
example : read ["j"] = .error .expectedLabel ∧ Fault.expectedLabel.ReportsEnd ∧
    read (["j"] ++ ["x"]) = .ok [.jump "x"] := by decide +kernel

end Statement
end MipsAssembler
