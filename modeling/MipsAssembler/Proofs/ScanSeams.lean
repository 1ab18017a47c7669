import Mathlib
import MipsAssembler.Proofs.ScanAutomaton

/-!
# Where a scan can be cut, and what can be put in between

The scanner looks ahead, to the end of a word or of a comment, so what it does with the
first part of a text seems to depend on the second.  The automaton does not look ahead.  It
comes out of the first part with some tokens and in some mode (`Mode.advance`), and from
there on only the mode matters: `Mode.run_append`.  The rest of this file reads that
equation at places where the mode is almost known.

## A line feed

A line feed leaves every mode for the boundary and completes what the end of the text would
have completed.  The part behind it is therefore scanned as a text of its own, except that
its positions are counted from further on: `scan_append_newline_eq`.

## Blanks and comments

Behind a blank or a comma no word is pending, but it is not known whether the run is at a
boundary or in a comment.  What can be inserted there without being seen has to be unseen
in both modes, and this is where the conditions of `Unseen` come from.  A line feed ends a
comment, so it is not among the blanks.  A comment runs on to the end of its line, so it can
only be put in front of one.  If the insertion is in a comment already, then all of this
is just more of that comment.

The mode behind the insertion is the mode before it (`Unseen.run_eq`), so what follows is
scanned as it was, and the positions of its faults grow by the number of characters inserted.
-/

namespace MipsAssembler

/-- The fault of a text when the text stands behind `n` other characters. -/
def Fault.behind (n : Nat) : Fault → Fault
  | emptyToken position => emptyToken (n + position)
  | fault => fault

namespace Token
namespace Mode

/-! ## A run in two parts -/

/-- The mode behind some characters and the tokens completed on the way, or the position of
the first error. -/
def advance (position : Nat) (mode : Mode) : List Char → Except Nat (Mode × List Token)
  | [] => .ok (mode, [])
  | c :: cs =>
    match mode.step c with
    | none => .error position
    | some (next, emitted) => Prod.map id (emitted ++ ·) <$> advance (position + 1) next cs

/-- A run goes on behind the first part of a text in the mode that this part leads to. -/
theorem run_append (position : Nat) (mode : Mode) (as bs : List Char) :
    run position mode (as ++ bs) =
      (advance position mode as >>= fun reached =>
        (reached.2 ++ ·) <$> run (position + as.length) reached.1 bs) := by
  fun_induction advance position mode as with
  | case1 position mode => exact (id_map (run position mode bs)).symm
  | case2 position mode c as hstep =>
    rw [List.cons_append, run_cons_of_none hstep]
    rfl
  | case3 position mode c as next emitted hstep ih =>
    rw [List.cons_append, run_cons hstep, ih, List.length_cons, Nat.add_assoc position 1,
      Nat.add_comm 1]
    cases advance (position + 1) next as with
    | error p => rfl
    | ok reached =>
      rw [Outcome.ok_bind, Functor.map_map]
      simp only [← List.append_assoc]
      rfl

/-- At the end of the text, the pending word is completed. -/
theorem run_eq_advance (position : Nat) (mode : Mode) (cs : List Char) :
    run position mode cs =
      (fun reached => reached.2 ++ reached.1.finish) <$> advance position mode cs := by
  have hrun := run_append position mode cs []
  rw [List.append_nil] at hrun
  rw [hrun]
  rfl

/-! ## Positions -/

/-- A run does not look at positions, it only counts them. -/
theorem run_add (k position : Nat) (mode : Mode) (cs : List Char) :
    run (k + position) mode cs = (run position mode cs).mapError (k + ·) := by
  fun_induction run position mode cs with
  | case1 => rfl
  | case2 position mode c cs hstep =>
    rw [run_cons_of_none hstep]
    rfl
  | case3 position mode c cs next emitted hstep ih =>
    rw [run_cons hstep, Nat.add_assoc, ih]
    cases run (position + 1) next cs <;> rfl

/-- The position of an error is that of one of the characters. -/
theorem run_error_bounds {position p : Nat} {mode : Mode} {cs : List Char}
    (h : run position mode cs = .error p) : position ≤ p ∧ p < position + cs.length := by
  fun_induction run position mode cs with
  | case1 => cases h
  | case2 position mode c cs hstep =>
    cases h
    simp
  | case3 position mode c cs next emitted hstep ih =>
    have hbounds := ih (Outcome.map_eq_error_iff.mp h)
    rw [List.length_cons]
    omega

theorem advance_error_bounds {position p : Nat} {mode : Mode} {cs : List Char}
    (h : advance position mode cs = .error p) : position ≤ p ∧ p < position + cs.length := by
  have hrun : run position mode cs = .error p := by
    rw [run_eq_advance, h]
    rfl
  exact run_error_bounds hrun

/-! ## The mode behind a blank or a comma -/

/-- A character that continues no word leaves no word pending. -/
theorem finish_of_step {mode next : Mode} {c : Char} {emitted : List Token}
    (h : mode.step c = some (next, emitted)) (hc : isBlank c = true ∨ c = ',') :
    next.finish = [] := by
  cases mode with
  | comment =>
    simp only [step] at h
    split_ifs at h <;> cases h <;> rfl
  | boundary =>
    rcases hc with hblank | rfl
    · rw [step, if_pos hblank] at h
      cases h
      rfl
    · cases h
  | word letters =>
    rcases hc with hblank | rfl
    · rw [step, if_pos hblank] at h
      cases h
      rfl
    · cases h
      rfl

/-- No word is pending behind a text that ends in a blank or a comma.  The text may also be
empty, if no word is pending before it. -/
theorem finish_of_advance {position : Nat} {mode : Mode} {cs : List Char}
    {reached : Mode × List Token} (h : advance position mode cs = .ok reached)
    (hnil : cs = [] → mode.finish = [])
    (hlast : ∀ c, cs.getLast? = some c → isBlank c = true ∨ c = ',') :
    reached.1.finish = [] := by
  fun_induction advance position mode cs generalizing reached with
  | case1 position mode =>
    cases h
    exact hnil rfl
  | case2 => cases h
  | case3 position mode c cs next emitted hstep ih =>
    obtain ⟨further, hfurther, rfl⟩ := Outcome.map_eq_ok_iff.mp h
    show further.1.finish = []
    refine ih hfurther ?_ fun d hd => hlast d ?_
    · rintro rfl
      exact finish_of_step hstep (hlast c rfl)
    · rw [List.getLast?_cons, hd]
      rfl

/-! ## Comments -/

/-- In a comment, characters of the same line are passed over. -/
theorem run_comment_append {body : List Char} (hbody : '\n' ∉ body) (position : Nat)
    (cs : List Char) :
    run position comment (body ++ cs) = run (position + body.length) comment cs := by
  have hall : ∀ c ∈ body, continuesComment c = true := by
    intro c hc
    refine bne_iff_ne.mpr ?_
    rintro rfl
    exact hbody hc
  rw [run_comment, run_comment (position + body.length), List.takeWhile_append_of_pos hall,
    List.dropWhile_append_of_pos hall, List.length_append, Nat.add_assoc]

/-- At the end of a line it makes no difference whether there was a comment on it. -/
theorem run_comment_of_lineEnd {cs : List Char} (h : cs = [] ∨ cs.head? = some '\n')
    (position : Nat) : run position comment cs = run position boundary cs := by
  rcases h with rfl | h
  · rfl
  · obtain ⟨rest, rfl⟩ := List.head?_eq_some_iff.mp h
    rw [run_newline, run_newline]
    rfl

/-! ## A line feed between two parts -/

theorem run_append_newline (position : Nat) (mode : Mode) (as bs : List Char) :
    run position mode (as ++ '\n' :: bs) =
      (run position mode as >>= fun tokens =>
        (tokens ++ ·) <$> run (position + as.length + 1) boundary bs) := by
  rw [run_append, run_eq_advance]
  cases advance position mode as with
  | error p => rfl
  | ok reached =>
    rw [Outcome.ok_bind, run_newline, Functor.map_map]
    simp only [← List.append_assoc]
    rfl

end Mode

/-! ## A line feed cuts the scan -/

/-- The scan of two texts on lines of their own is the scan of the first and then that of
the second, with the faults of the second at positions counted from the beginning of the
first. -/
theorem scan_append_newline_eq (a b : String) :
    scan (a ++ "\n" ++ b) =
      (scan a >>= fun tokens =>
        (tokens ++ ·) <$> (scan b).mapError (Fault.behind (a.length + 1))) := by
  have htext : (a ++ "\n" ++ b).toList = a.toList ++ '\n' :: b.toList := by
    simp [String.toList_append]
  have hstart : 0 + a.toList.length + 1 = a.length + 1 + 0 := by
    rw [String.length_toList, Nat.zero_add, Nat.add_zero]
  rw [scan_eq_run, scan_eq_run, scan_eq_run, htext, Mode.run_append_newline, hstart, Mode.run_add]
  cases Mode.run 0 .boundary a.toList with
  | error p => rfl
  | ok tokens => cases Mode.run 0 .boundary b.toList <;> rfl

/-- The tokens of two texts on lines of their own are those of the first and then those of
the second. -/
theorem scan_append_newline {a b : String} {ss ts : List Token} (ha : scan a = .ok ss)
    (hb : scan b = .ok ts) : scan (a ++ "\n" ++ b) = .ok (ss ++ ts) := by
  rw [scan_append_newline_eq, ha, hb]
  rfl

/-- **A line feed cuts the scan.**  Two texts on lines of their own have the tokens of both,
in order.  If the first has a stray comma, that is where the scan of both stops, and if only
the second has one, the scan stops there, behind the first text and the line feed. -/
theorem scan_newline_cuts (a b : String) :
    (∀ ss ts, scan a = .ok ss → scan b = .ok ts → scan (a ++ "\n" ++ b) = .ok (ss ++ ts)) ∧
    (∀ p, scan a = .error (.emptyToken p) → scan (a ++ "\n" ++ b) = .error (.emptyToken p)) ∧
    ∀ ss p, scan a = .ok ss → scan b = .error (.emptyToken p) →
      scan (a ++ "\n" ++ b) = .error (.emptyToken (a.length + 1 + p)) := by
  refine ⟨fun ss ts ha hb => scan_append_newline ha hb, fun p ha => ?_, fun ss p ha hb => ?_⟩
  · rw [scan_append_newline_eq, ha]
    rfl
  · rw [scan_append_newline_eq, ha, hb]
    rfl

/-- The first text ends inside a comment, and what would be part of that comment without the
line feed is a word, a comma and a stray comma. -/
theorem scan_newline_cuts_comment :
    scan "a #," = .ok ["a"] ∧ scan "b,," = .error (.emptyToken 2) ∧
      scan ("a #," ++ "\n" ++ "b,,") = .error (.emptyToken 7) := by
  have ha : scan "a #," = .ok ["a"] := by rw [scan_eq_run]; rfl
  have hb : scan "b,," = .error (.emptyToken 2) := by rw [scan_eq_run]; rfl
  exact ⟨ha, hb, (scan_newline_cuts "a #," "b,,").2.2 ["a"] 2 ha hb⟩

/-! ## Insertions that are not seen -/

/-- A text that is empty or ends in a blank or a comma. -/
def EndsAtBoundary (text : String) : Prop :=
  ∀ c, text.toList.getLast? = some c → isBlank c = true ∨ c = ','

/-- What can be put in front of the text `rest` without being seen: a blank other than the
line feed, or a comment if `rest` is empty or begins with a line feed. -/
inductive Unseen (rest : String) : String → Prop
  | blank {c : Char} (hc : c ∈ [' ', '\t', '\r']) : Unseen rest (String.singleton c)
  | comment {body : String} (hbody : '\n' ∉ body.toList)
      (hrest : rest = "" ∨ rest.toList.head? = some '\n') : Unseen rest ("#" ++ body)

/-- Where no word is pending, a run goes through an insertion that is not seen without a
token, and what follows is read in the same mode. -/
theorem Unseen.run_eq {rest inserted : String} (h : Unseen rest inserted) {mode : Mode}
    (hmode : mode.finish = []) (position : Nat) :
    mode.run position (inserted.toList ++ rest.toList) =
      mode.run (position + inserted.length) rest.toList := by
  rw [← String.length_toList]
  cases h with
  | @blank c hc =>
    have hblank : isBlank c = true := by fin_cases hc <;> decide
    have hne : c ≠ '\n' := by fin_cases hc <;> decide
    have hstep : mode.step c = some (mode, []) := by
      cases mode with
      | boundary => exact if_pos hblank
      | word letters => cases hmode
      | comment => exact if_neg hne
    rw [String.toList_singleton]
    exact Mode.run_cons_silent hstep rest.toList
  | @comment body hbody hrest =>
    have hend : rest.toList = [] ∨ rest.toList.head? = some '\n' := by
      refine hrest.imp_left fun hempty => ?_
      rw [hempty]
      rfl
    have htext : ("#" ++ body).toList = '#' :: body.toList := by
      rw [String.toList_append]
      rfl
    rw [htext]
    cases mode with
    | boundary =>
      have hstep : Mode.boundary.step '#' = some (.comment, []) := rfl
      rw [List.cons_append, Mode.run_cons_silent hstep, Mode.run_comment_append hbody,
        Mode.run_comment_of_lineEnd hend, List.length_cons, Nat.add_assoc, Nat.add_comm 1]
    | word letters => cases hmode
    | comment =>
      -- the sign of a comment is an ordinary character here
      refine Mode.run_comment_append (fun hmem => ?_) position rest.toList
      rcases List.mem_cons.mp hmem with hhash | hmem
      · cases hhash
      · exact hbody hmem

/-- **Blanks and comments are not seen where no word is pending.**  If `a` is empty or ends
in a blank or a comma, then a blank on the same line, or a comment in front of the end of a
line or of the text, can be put between `a` and `b`.  The tokens stay the same, or the stray
comma does: at its position if it stands in `a`, and behind the insertion if it stands in
`b`. -/
theorem scan_insert_unseen (a b inserted : String) (ha : EndsAtBoundary a)
    (hinserted : Unseen b inserted) :
    (∃ tokens, scan (a ++ b) = .ok tokens ∧ scan (a ++ inserted ++ b) = .ok tokens) ∨
    (∃ p, p < a.length ∧ scan (a ++ b) = .error (.emptyToken p) ∧
      scan (a ++ inserted ++ b) = .error (.emptyToken p)) ∨
    ∃ p, a.length ≤ p ∧ p < a.length + b.length ∧ scan (a ++ b) = .error (.emptyToken p) ∧
      scan (a ++ inserted ++ b) = .error (.emptyToken (p + inserted.length)) := by
  rw [← a.length_toList, ← b.length_toList]
  -- both texts are scanned alike up to the end of `a`, and only the mode there goes on
  simp only [scan_eq_run, String.toList_append, List.append_assoc,
    Mode.run_append 0 .boundary a.toList, Nat.zero_add]
  cases hadvance : Mode.advance 0 .boundary a.toList with
  | error p =>
    have hbounds := Mode.advance_error_bounds hadvance
    exact Or.inr (Or.inl ⟨p, by omega, rfl, rfl⟩)
  | ok reached =>
    have hfinish := Mode.finish_of_advance hadvance (fun _ => rfl) ha
    simp only [Outcome.ok_bind]
    rw [hinserted.run_eq hfinish, Nat.add_comm, Mode.run_add]
    cases hrun : Mode.run a.toList.length reached.1 b.toList with
    | ok tokens => exact Or.inl ⟨_, rfl, rfl⟩
    | error p =>
      obtain ⟨hle, hlt⟩ := Mode.run_error_bounds hrun
      refine Or.inr (Or.inr ⟨p, hle, hlt, rfl, ?_⟩)
      rw [Nat.add_comm p]
      rfl

/-- Behind the comma that closes a word, a comment that holds a comma, another sign and a
carriage return.  The second comma on the next line is as stray as before. -/
theorem scan_insert_unseen_comment :
    EndsAtBoundary "a," ∧ Unseen "\n,b" "#,#\r" ∧
      scan ("a," ++ "\n,b") = .error (.emptyToken 3) ∧
      scan ("a," ++ "#,#\r" ++ "\n,b") = .error (.emptyToken 7) := by
  have ha : EndsAtBoundary "a," := by
    intro c hc
    cases hc
    exact Or.inr rfl
  have hunseen : Unseen "\n,b" ("#" ++ ",#\r") := .comment (by decide) (Or.inr rfl)
  have hscan : scan ("a," ++ "\n,b") = .error (.emptyToken 3) := by rw [scan_eq_run]; rfl
  refine ⟨ha, hunseen, hscan, ?_⟩
  rcases scan_insert_unseen "a," "\n,b" "#,#\r" ha hunseen with
    ⟨tokens, htokens, -⟩ | ⟨p, hp, hfault, -⟩ | ⟨p, -, -, hfault, hinserted⟩
  · rw [hscan] at htokens
    cases htokens
  · rw [hscan] at hfault
    cases hfault
    exact absurd hp (by decide)
  · rw [hscan] at hfault
    cases hfault
    exact hinserted

end Token
end MipsAssembler
