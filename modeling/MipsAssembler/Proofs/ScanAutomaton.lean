import Mathlib
import MipsAssembler.Proofs.Scanning

/-!
# The scan as an automaton

The scanner cuts: where a word begins it takes all of the word at once, and where a
comment begins it drops all of the comment.  The same tokens can be found by a machine
that reads one character at a time and remembers only what it is in the middle of, which
is one of three things: nothing (a place where a word could begin), a word, of which it
keeps the letters, or a comment.  `Mode` is this memory and `Mode.step` says what one
character does to it.  There is a single combination without a step: a comma where a word
could begin.

The two are compared mode by mode.  In a comment the machine goes on as if the rest of the
comment had been dropped (`run_comment`); in a word it goes on as if the rest of the word
had been cut off, together with the comma that closes it if there is one (`run_word`).  At
a place where a word could begin the scanner is then seen to do what the machine does, and
since both count characters they also agree on where a stray comma stands: `scan_eq_run`.

Nothing in the machine looks ahead, so what it does with a text can be followed through a
change of a few characters.  This is what the scan of texts with other line ends is
compared by.
-/

namespace MipsAssembler
namespace Token

/-- What the automaton is in the middle of: nothing, a word of which some letters have
been read, or a comment. -/
inductive Mode where
  | boundary
  | word (letters : List Char)
  | comment
  deriving DecidableEq, Repr

namespace Mode

/-- What one character does: the mode behind it, and the tokens that it completes.  A
comma is an error where a word could begin. -/
def step : Mode → Char → Option (Mode × List Token)
  | boundary, c =>
    if isBlank c then some (boundary, [])
    else if c = '#' then some (comment, [])
    else if c = ',' then none
    else some (word [c], [])
  | word letters, c =>
    if isBlank c then some (boundary, [String.ofList letters])
    else if c = ',' then some (boundary, [String.ofList letters, Token.comma])
    else some (word (letters ++ [c]), [])
  | comment, c => if c = '\n' then some (boundary, []) else some (comment, [])

/-- The tokens that the end of the text completes. -/
def finish : Mode → List Token
  | word letters => [String.ofList letters]
  | boundary | comment => []

/-- The tokens that the automaton emits on the characters from `position` on, or the
position of its first error. -/
def run (position : Nat) (mode : Mode) : List Char → Except Nat (List Token)
  | [] => .ok mode.finish
  | c :: cs =>
    match mode.step c with
    | none => .error position
    | some (next, emitted) => (emitted ++ ·) <$> run (position + 1) next cs

/-! ## One step of a run -/

section Steps

variable {position : Nat} {mode next : Mode} {emitted : List Token} {c : Char}

theorem run_nil : run position mode [] = .ok mode.finish := rfl

theorem run_cons_of_none (h : mode.step c = none) (cs : List Char) :
    run position mode (c :: cs) = .error position := by
  rw [run, h]

theorem run_cons (h : mode.step c = some (next, emitted)) (cs : List Char) :
    run position mode (c :: cs) = (emitted ++ ·) <$> run (position + 1) next cs := by
  rw [run, h]

/-- A character that completes no token. -/
theorem run_cons_silent (h : mode.step c = some (next, [])) (cs : List Char) :
    run position mode (c :: cs) = run (position + 1) next cs := by
  rw [run_cons h]
  exact id_map _

/-- A character that is no blank, no comma and not the sign of a comment begins a word. -/
theorem step_boundary_of_letter (hhash : c ≠ '#') (hblank : ¬ isBlank c = true) (hcomma : c ≠ ',') :
    boundary.step c = some (word [c], []) := by
  simp [step, hblank, hhash, hcomma]

end Steps

/-! ## Blanks

A blank completes exactly what the end of the text would complete, except that in a comment
only the line feed does so. -/

theorem step_newline (mode : Mode) : mode.step '\n' = some (boundary, mode.finish) := by
  cases mode <;> rfl

theorem step_of_isBlank {mode : Mode} (hmode : mode ≠ comment) {c : Char}
    (hc : isBlank c = true) : mode.step c = some (boundary, mode.finish) := by
  cases mode with
  | comment => exact absurd rfl hmode
  | boundary => exact if_pos hc
  | word letters => exact if_pos hc

/-- Comments begin with their sign only. -/
theorem step_ne_comment {mode next : Mode} {c : Char} {emitted : List Token}
    (hmode : mode ≠ comment) (hc : c ≠ '#') (h : mode.step c = some (next, emitted)) :
    next ≠ comment := by
  cases mode with
  | comment => exact absurd rfl hmode
  | boundary =>
    simp only [step] at h
    split_ifs at h <;> cases h <;> exact Mode.noConfusion
  | word letters =>
    simp only [step] at h
    split_ifs at h <;> cases h <;> exact Mode.noConfusion

theorem run_newline (position : Nat) (mode : Mode) (cs : List Char) :
    run position mode ('\n' :: cs) = (mode.finish ++ ·) <$> run (position + 1) boundary cs :=
  run_cons mode.step_newline cs

theorem run_return (position : Nat) {mode : Mode} (hmode : mode ≠ comment) (cs : List Char) :
    run position mode ('\r' :: cs) = (mode.finish ++ ·) <$> run (position + 1) boundary cs :=
  run_cons (step_of_isBlank hmode rfl) cs

/-- A carriage return in front of a line feed makes no difference, whatever it stands in. -/
theorem run_return_newline (position : Nat) (mode : Mode) (cs : List Char) :
    run position mode ('\r' :: '\n' :: cs) =
      (mode.finish ++ ·) <$> run (position + 2) boundary cs := by
  by_cases hmode : mode = comment
  · subst hmode
    have hstep : comment.step '\r' = some (comment, []) := rfl
    rw [run_cons_silent hstep, run_newline]
  · have hstep : boundary.step '\n' = some (boundary, []) := rfl
    rw [run_return position hmode, run_cons_silent hstep]

/-! ## Comments and words at once -/

/-- In a comment the run goes on at the end of the line, or at the end of the text. -/
theorem run_comment (position : Nat) (cs : List Char) :
    run position comment cs =
      run (position + (cs.takeWhile continuesComment).length) boundary
        (cs.dropWhile continuesComment) := by
  induction cs generalizing position with
  | nil => rfl
  | cons c cs ih =>
    by_cases hc : c = '\n'
    · -- the line feed is left to the boundary, where it is a blank
      subst hc
      have hstop : ¬ continuesComment '\n' = true := by decide
      have hstep : boundary.step '\n' = some (boundary, []) := rfl
      have hstep' : comment.step '\n' = some (boundary, []) := rfl
      rw [List.takeWhile_cons_of_neg hstop, List.dropWhile_cons_of_neg hstop,
        run_cons_silent hstep, run_cons_silent hstep']
      rfl
    · have hgo : continuesComment c = true := by simpa [continuesComment] using hc
      have hstep : comment.step c = some (comment, []) := if_neg hc
      rw [List.takeWhile_cons_of_pos hgo, List.dropWhile_cons_of_pos hgo, run_cons_silent hstep,
        ih, List.length_cons, Nat.add_assoc, Nat.add_comm 1]

/-- In a word the run goes on behind the word, with the token for it, and with the comma
that closes the word if there is one. -/
theorem run_word (position : Nat) (letters cs : List Char) :
    run position (word letters) cs =
      let body := cs.takeWhile continuesWord
      let token := String.ofList (letters ++ body)
      let rest := cs.dropWhile continuesWord
      if rest.head? = some ',' then
        ([token, Token.comma] ++ ·) <$> run (position + body.length + 1) boundary rest.tail
      else ([token] ++ ·) <$> run (position + body.length) boundary rest := by
  induction cs generalizing position letters with
  | nil => simp [run_nil, finish]
  | cons c cs ih =>
    by_cases hgo : continuesWord c = true
    · obtain ⟨hblank, hcomma⟩ := continuesWord_iff.mp hgo
      have hstep : (word letters).step c = some (word (letters ++ [c]), []) := by
        simp [step, hblank, hcomma]
      rw [run_cons_silent hstep, ih]
      simp only [List.takeWhile_cons_of_pos hgo, List.dropWhile_cons_of_pos hgo,
        List.append_assoc, List.singleton_append, List.length_cons, Nat.add_assoc, Nat.add_comm 1]
    · simp only [List.takeWhile_cons_of_neg hgo, List.dropWhile_cons_of_neg hgo, List.append_nil,
        List.length_nil, Nat.add_zero, List.head?_cons, Option.some.injEq, List.tail_cons]
      by_cases hcomma : c = ','
      · subst hcomma
        rw [if_pos rfl]
        exact run_cons rfl cs
      · have hblank : isBlank c = true := by simpa [continuesWord, hcomma] using hgo
        have hstep : (word letters).step c = some (boundary, [String.ofList letters]) :=
          if_pos hblank
        have hstep' : boundary.step c = some (boundary, []) := if_pos hblank
        rw [if_neg hcomma, run_cons hstep, run_cons_silent hstep']

end Mode

/-! ## The scan is a run -/

/-- The scan from a place where a word could begin adds the tokens of a run to what was
found, or stops where the run does. -/
theorem scanFrom_eq_run (position : Nat) (found : List Token) (cs : List Char) :
    scanFrom position found cs =
      ((found.reverse ++ ·) <$> Mode.run position .boundary cs).mapError Fault.emptyToken := by
  fun_induction scanFrom position found cs with
  | case1 position found => simp [Mode.run_nil, Mode.finish, Except.mapError]
  | case2 position found cs body ih =>
    have hstep : Mode.boundary.step '#' = some (.comment, []) := rfl
    rw [ih, Mode.run_cons_silent hstep, Mode.run_comment]
  | case3 position found c cs hhash hblank ih =>
    have hstep : Mode.boundary.step c = some (.boundary, []) := if_pos hblank
    rw [ih, Mode.run_cons_silent hstep]
  | case4 position found cs hhash hblank =>
    have hstep : Mode.boundary.step ',' = none := rfl
    rw [Mode.run_cons_of_none hstep]
    rfl
  | case5 position found c cs hhash hblank hcomma body token rest hnext ih =>
    rw [ih, Mode.run_cons_silent (Mode.step_boundary_of_letter hhash hblank hcomma), Mode.run_word]
    simp only [show (cs.dropWhile continuesWord).head? = some ',' from hnext, if_true]
    simp [body, token, rest]
  | case6 position found c cs hhash hblank hcomma body token rest hnext ih =>
    rw [ih, Mode.run_cons_silent (Mode.step_boundary_of_letter hhash hblank hcomma), Mode.run_word]
    simp only [show ¬ (cs.dropWhile continuesWord).head? = some ',' from hnext, if_false]
    simp [body, token, rest]

/-- The scan of a text is a run of the automaton from its beginning. -/
theorem scan_eq_run (text : String) :
    scan text = (Mode.run 0 .boundary text.toList).mapError Fault.emptyToken := by
  rw [scan, scanFrom_eq_run]
  exact congrArg (Except.mapError Fault.emptyToken) (id_map (Mode.run 0 .boundary text.toList))

/-- **The scanner is the automaton.**  A text is scanned to certain tokens exactly when the
automaton emits them, and the scan stops at a certain position exactly when the first error
of the automaton is there.  The scan does not fail in any other way. -/
theorem scan_iff_run (text : String) :
    (∀ tokens, scan text = .ok tokens ↔ Mode.run 0 .boundary text.toList = .ok tokens) ∧
    (∀ position, scan text = .error (.emptyToken position) ↔
      Mode.run 0 .boundary text.toList = .error position) ∧
    ∀ fault, scan text = .error fault → ∃ position, fault = .emptyToken position := by
  rw [scan_eq_run]
  cases Mode.run 0 .boundary text.toList with
  | ok tokens => simp [Except.mapError]
  | error position => simp [Except.mapError, eq_comm]

-- a comma inside a comment, one that closes a word, and one behind a blank
example : Mode.run 0 .boundary "#,\na#,b ,".toList = .error 8 := by decide

end Token
end MipsAssembler
