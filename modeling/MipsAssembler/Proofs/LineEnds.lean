import Mathlib
import MipsAssembler.CommandLine.Session
import MipsAssembler.Proofs.ScanAutomaton

/-!
# Line ends do not matter, outside of comments

A source can be assembled as it is, or it can be read from a file first, and reading turns
every line end into a line feed.  So a text with carriage returns is assembled in two forms,
and this file says when the two have the same outcome.

The reader of files makes one pass.  `translate` says the same in two: every carriage return
that a line feed follows is left out, and every other one becomes a line feed.

To the scanner a carriage return is a blank.  In front of a line feed it changes nothing but
the positions of what follows, whatever the pair stands in: a blank, a word or a comment
ends at the line feed in any case.  A carriage return by itself becomes a line feed, and
these two differ in one place only, in a comment, which the line feed ends and the carriage
return does not.  Hence the two forms agree on texts whose carriage returns all stand in
front of line feeds, and on texts without comments: `toOption_run_translate`, proved by
following the automaton through both forms in the same mode.

The comparison is up to the position of a stray comma (`SameUpToPosition`).  Positions count
characters, and the two forms do not have the same number of them.
-/

namespace MipsAssembler

/-! ## Two passes over line ends -/

namespace Text

/-- The characters without the carriage returns that stand directly before a line feed. -/
def mergePairs : List Char → List Char
  | '\r' :: '\n' :: cs => '\n' :: mergePairs cs
  | c :: cs => c :: mergePairs cs
  | [] => []

/-- A carriage return as a line feed. -/
def toLineFeed (c : Char) : Char := if c = '\r' then '\n' else c

/-- A text with every pair of carriage return and line feed replaced by a line feed, and
then every carriage return that is left. -/
def translate (text : String) : String :=
  String.ofList ((mergePairs text.toList).map toLineFeed)

theorem mergePairs_cons {c : Char} {cs : List Char}
    (h : ∀ rest, c = '\r' → cs = '\n' :: rest → False) :
    mergePairs (c :: cs) = c :: mergePairs cs := by
  rw [mergePairs]
  exact h

theorem unifyNewlinesOnto_eq (done cs : List Char) :
    unifyNewlinesOnto done cs = done.reverse ++ (mergePairs cs).map toLineFeed := by
  fun_induction unifyNewlinesOnto done cs with
  | case1 done => simp [mergePairs]
  | case2 done cs ih => simp [ih, mergePairs, toLineFeed]
  | case3 done cs hpair ih =>
    rw [ih, mergePairs_cons fun rest _ => hpair rest]
    simp [toLineFeed]
  | case4 done c cs hpair hreturn ih =>
    rw [ih, mergePairs_cons hpair]
    simp [toLineFeed, show c ≠ '\r' from hreturn]

/-- One pass over the line ends does what the two passes do. -/
theorem unifyNewlines_eq_translate (text : String) : unifyNewlines text = translate text := by
  rw [unifyNewlines, translate, unifyNewlinesOnto_eq, List.reverse_nil, List.nil_append]

/-- Every carriage return stands directly before a line feed. -/
def ReturnsPaired (cs : List Char) : Prop :=
  ∀ i : Nat, cs[i]? = some '\r' → cs[i + 1]? = some '\n'

namespace ReturnsPaired

theorem tail {c : Char} {cs : List Char} (h : ReturnsPaired (c :: cs)) : ReturnsPaired cs :=
  fun i hi => h (i + 1) hi

theorem exists_newline {cs : List Char} (h : ReturnsPaired ('\r' :: cs)) :
    ∃ rest, cs = '\n' :: rest := by
  have hnext : cs[0]? = some '\n' := h 0 rfl
  rw [← List.head?_eq_getElem?] at hnext
  exact List.head?_eq_some_iff.mp hnext

end ReturnsPaired

end Text

/-- What is read from a file with the bytes of a text. -/
theorem CommandLine.decodeSource_toUTF8 (text : String) :
    decodeSource text.toUTF8 = some (Text.translate text) := by
  rw [decodeSource, String.toUTF8_eq_toByteArray, String.fromUTF8?, dif_pos text.isValidUTF8,
    Option.map_some, Text.unifyNewlines_eq_translate]
  rfl

/-! ## The scan of both forms -/

/-- The automaton emits the same tokens on both forms of a text, or has an error on both.
Either every carriage return is in a pair, or the run is not in a comment and there is no
other comment to come. -/
theorem Token.Mode.toOption_run_translate {mode : Mode} {cs : List Char}
    (h : Text.ReturnsPaired cs ∨ ('#' ∉ cs ∧ mode ≠ comment)) (position position' : Nat) :
    (run position' mode ((Text.mergePairs cs).map Text.toLineFeed)).toOption =
      (run position mode cs).toOption := by
  fun_induction Text.mergePairs cs generalizing mode position position' with
  | case1 cs ih =>
    have hrest : Text.ReturnsPaired cs ∨ ('#' ∉ cs ∧ boundary ≠ comment) := by
      refine h.imp (fun hpaired => hpaired.tail.tail) fun ⟨hhash, _⟩ => ⟨?_, Mode.noConfusion⟩
      exact fun hmem => hhash (by simp [hmem])
    rw [List.map_cons, show Text.toLineFeed '\n' = '\n' from rfl, run_newline, run_return_newline,
      Outcome.toOption_map, Outcome.toOption_map, ih hrest]
  | case2 c cs hpair ih =>
    rw [List.map_cons]
    by_cases hc : c = '\r'
    · -- a carriage return by itself: there are no comments
      subst hc
      rcases h with hpaired | ⟨hhash, hmode⟩
      · obtain ⟨rest, hrest⟩ := hpaired.exists_newline
        exact (hpair rest rfl hrest).elim
      · have hrest : '#' ∉ cs ∧ boundary ≠ comment :=
          ⟨fun hmem => hhash (List.mem_cons_of_mem _ hmem), Mode.noConfusion⟩
        rw [show Text.toLineFeed '\r' = '\n' from rfl, run_newline, run_return _ hmode,
          Outcome.toOption_map, Outcome.toOption_map, ih (Or.inr hrest)]
    · rw [show Text.toLineFeed c = c from if_neg hc]
      cases hstep : mode.step c with
      | none =>
        rw [run_cons_of_none hstep, run_cons_of_none hstep]
        rfl
      | some pair =>
        obtain ⟨next, emitted⟩ := pair
        have hrest : Text.ReturnsPaired cs ∨ ('#' ∉ cs ∧ next ≠ comment) := by
          refine h.imp (fun hpaired => hpaired.tail) fun ⟨hhash, hmode⟩ => ?_
          obtain ⟨hhere, hcs⟩ := not_or.mp (mt List.mem_cons.mpr hhash)
          exact ⟨hcs, step_ne_comment hmode (Ne.symm hhere) hstep⟩
        rw [run_cons hstep, run_cons hstep, Outcome.toOption_map, Outcome.toOption_map, ih hrest]
  | case3 => rfl

/-- Two outcomes are the same, or both are stray commas, at whatever positions. -/
inductive SameUpToPosition {α : Type} : Except Fault α → Except Fault α → Prop
  | ok (a : α) : SameUpToPosition (.ok a) (.ok a)
  | fault (fault : Fault) : SameUpToPosition (.error fault) (.error fault)
  | stray (p q : Nat) : SameUpToPosition (.error (.emptyToken p)) (.error (.emptyToken q))

namespace SameUpToPosition

variable {α β : Type}

theorem refl (x : Except Fault α) : SameUpToPosition x x := by
  cases x with
  | ok a => exact .ok a
  | error fault => exact .fault fault

/-- The stages behind the scan see no positions. -/
theorem bind {x y : Except Fault α} (h : SameUpToPosition x y) (f : α → Except Fault β) :
    SameUpToPosition (x >>= f) (y >>= f) := by
  cases h with
  | ok a => exact .refl (f a)
  | fault fault => exact .fault fault
  | stray p q => exact .stray p q

theorem of_toOption {x y : Except Nat α} (h : y.toOption = x.toOption) :
    SameUpToPosition (x.mapError Fault.emptyToken) (y.mapError Fault.emptyToken) := by
  cases x with
  | ok a =>
    rw [Outcome.eq_ok_of_toOption h]
    exact .ok a
  | error p =>
    cases y with
    | ok b => cases h
    | error q => exact .stray p q

end SameUpToPosition

/-- Both forms of a text are scanned to the same tokens, or have a stray comma. -/
theorem sameUpToPosition_scan {text : String}
    (h : Text.ReturnsPaired text.toList ∨ '#' ∉ text.toList) :
    SameUpToPosition (Token.scan text) (Token.scan (Text.translate text)) := by
  have hmode : Text.ReturnsPaired text.toList ∨
      ('#' ∉ text.toList ∧ Token.Mode.boundary ≠ .comment) :=
    h.imp_right fun hhash => ⟨hhash, Token.Mode.noConfusion⟩
  rw [Token.scan_eq_run, Token.scan_eq_run, Text.translate, String.toList_ofList]
  exact .of_toOption (Token.Mode.toOption_run_translate hmode 0 0)

/-- **A text is assembled to the same as the file that holds it**, if each of its carriage
returns stands before a line feed, and also if it has no comments.  The words are the same,
or the fault is, except that a stray comma may stand at another position. -/
theorem assemble_translate (text : String)
    (h : Text.ReturnsPaired text.toList ∨ '#' ∉ text.toList) :
    CommandLine.decodeSource text.toUTF8 = some (Text.translate text) ∧
      SameUpToPosition (assemble text) (assemble (Text.translate text)) :=
  ⟨CommandLine.decodeSource_toUTF8 text, (sameUpToPosition_scan h).bind _⟩

/-- A comment whose line ends with the pair, and a stray comma behind it. -/
theorem assemble_translate_stray :
    Text.ReturnsPaired "#,\r\na\r\n,".toList ∧
      CommandLine.decodeSource "#,\r\na\r\n,".toUTF8 = some (Text.translate "#,\r\na\r\n,") ∧
      SameUpToPosition (assemble "#,\r\na\r\n,") (assemble (Text.translate "#,\r\na\r\n,")) := by
  have hbelow : ∀ i < "#,\r\na\r\n,".toList.length, "#,\r\na\r\n,".toList[i]? = some '\r' →
      "#,\r\na\r\n,".toList[i + 1]? = some '\n' := by decide
  have hpaired : Text.ReturnsPaired "#,\r\na\r\n,".toList := fun i hi =>
    hbelow i (List.getElem?_eq_some_iff.mp hi).1 hi
  exact ⟨hpaired, assemble_translate _ (Or.inl hpaired)⟩

-- in a comment, a carriage return by itself does make a difference
example : (assemble "#\r.dw 7").toOption = some [] ∧
    (assemble (Text.translate "#\r.dw 7")).toOption = some [Word.ofData 7] := by decide +kernel

end MipsAssembler
