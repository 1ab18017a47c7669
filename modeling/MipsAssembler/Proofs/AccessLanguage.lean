import Mathlib
import MipsAssembler.Proofs.Literals

/-!
# The texts of memory accesses

An access is written `offset(register)`.  The reader looks for the first opening and the first
closing parenthesis of the token, each on its own, reads what stands before the opening one as
a numeral, and then what stands between the two as a register.  This file says which tokens
that accepts and which fault the others have.

## Parentheses in the wrong order

The two searches know nothing of each other, so the first closing parenthesis may come before
the first opening one.  There is no check for that.  Such a token is refused because then the
text before the opening parenthesis contains a closing one, and no numeral does
(`numeral_eq_error_of_mem`).  Behind the closing parenthesis, on the other hand, nothing is
looked at: every accepted text may be continued at will, and a second pair of parentheses or
anything else behind the first one is dropped without notice.
-/

namespace MipsAssembler
namespace Literal

/-! ## Characters that no numeral has -/

theorem mem_dropFinalNewline {cs : List Char} {c : Char} (hc : c ∈ cs) (hnewline : c ≠ '\n') :
    c ∈ dropFinalNewline cs := by
  unfold dropFinalNewline
  split
  · next hlast =>
    rw [← List.dropLast_append_getLast? '\n' hlast, List.mem_append, List.mem_singleton] at hc
    exact hc.resolve_right hnewline
  · exact hc

theorem mem_splitSign {cs : List Char} {c : Char} (hc : c ∈ cs) (hminus : c ≠ '-') :
    c ∈ (splitSign cs).2 := by
  unfold splitSign
  split
  · exact (List.mem_cons.mp hc).resolve_left hminus
  · exact hc

/-- A text is no numeral if it has a character that is no digit, no minus and no line feed. -/
theorem numeral_eq_error_of_mem {token : Token} {c : Char} (hc : c ∈ token.toList)
    (hdigit : ¬ isDigit c = true) (hminus : c ≠ '-') (hnewline : c ≠ '\n') :
    numeral token = .error (.expectedNumeral token) := by
  have hmem := mem_splitSign (mem_dropFinalNewline hc hnewline) hminus
  unfold numeral
  rcases hsplit : splitSign (dropFinalNewline token.toList) with ⟨negative, digits⟩
  rw [hsplit] at hmem
  have hall : digits.all isDigit = false := List.all_eq_false.mpr ⟨c, hmem, hdigit⟩
  dsimp only
  rw [if_pos (by rw [hall, Bool.not_false, Bool.or_true])]

/-! ## The texts around the parentheses -/

/-- The text before the first opening parenthesis; the whole token if there is none. -/
def beforeOpen (token : Token) : Token :=
  String.ofList (token.toList.take (token.toList.idxOf '('))

/-- The text behind the first opening parenthesis and before the first closing one. -/
def betweenParentheses (token : Token) : Token :=
  String.ofList ((token.toList.take (token.toList.idxOf ')')).drop (token.toList.idxOf '(' + 1))

section Parentheses

variable {before inside tail : List Char}

/-- The first occurrence of a character is behind what does not have it. -/
theorem idxOf_append_cons {c : Char} (h : c ∉ before) :
    (before ++ c :: tail).idxOf c = before.length := by
  rw [List.idxOf_append_of_notMem h, List.idxOf_cons_self, Nat.add_zero]

theorem beforeOpen_ofList (hopen : '(' ∉ before) :
    beforeOpen (String.ofList (before ++ '(' :: tail)) = String.ofList before := by
  rw [beforeOpen, String.toList_ofList, idxOf_append_cons hopen, List.take_left]

theorem betweenParentheses_ofList (hopen : '(' ∉ before) (hclose : ')' ∉ before)
    (hinside : ')' ∉ inside) :
    betweenParentheses (String.ofList (before ++ '(' :: (inside ++ ')' :: tail))) =
      String.ofList inside := by
  have hcut : before ++ '(' :: (inside ++ ')' :: tail) =
      (before ++ '(' :: inside) ++ ')' :: tail := by simp
  have hnone : ')' ∉ before ++ '(' :: inside := by
    rw [List.mem_append, List.mem_cons]
    rintro (h | h | h)
    · exact hclose h
    · exact absurd h (by decide)
    · exact hinside h
  have hbefore : before ++ '(' :: inside = (before ++ ['(']) ++ inside := by simp
  have hlength : (before ++ ['(']).length = before.length + 1 := by simp
  rw [betweenParentheses, String.toList_ofList, idxOf_append_cons hopen, hcut,
    idxOf_append_cons hnone, List.take_left, hbefore, ← hlength, List.drop_left]

/-- A token with both parentheses is cut at its first opening one; the first closing one comes
before that, or it ends the text inside. -/
theorem exists_parentheses {token : Token} (hopen : '(' ∈ token.toList)
    (hclose : ')' ∈ token.toList) :
    ∃ before : List Char, '(' ∉ before ∧
      ((∃ rest, token = String.ofList (before ++ '(' :: rest) ∧ ')' ∈ before) ∨
        ∃ inside tail, token = String.ofList (before ++ '(' :: (inside ++ ')' :: tail)) ∧
          ')' ∉ before ∧ ')' ∉ inside) := by
  obtain ⟨before, rest, hcut, hbefore⟩ := List.eq_append_cons_of_mem hopen
  refine ⟨before, hbefore, ?_⟩
  by_cases hmem : ')' ∈ before
  · exact Or.inl ⟨rest, by rw [← hcut, String.ofList_toList], hmem⟩
  · rw [hcut, List.mem_append, List.mem_cons] at hclose
    have hrest : ')' ∈ rest := (hclose.resolve_left hmem).resolve_left (by decide)
    obtain ⟨inside, tail, rfl, hinside⟩ := List.eq_append_cons_of_mem hrest
    exact Or.inr ⟨inside, tail, by rw [← hcut, String.ofList_toList], hmem, hinside⟩

end Parentheses

/-! ## The reader -/

theorem access_of_notMem {token : Token} (h : '(' ∉ token.toList ∨ ')' ∉ token.toList) :
    access token = .error (.expectedAccess token) := by
  unfold access
  rw [if_neg]
  rw [Bool.and_eq_true, List.contains_iff_mem, List.contains_iff_mem]
  exact fun hboth => h.elim (· hboth.1) (· hboth.2)

/-- With both parentheses there, an access is a numeral and then a register. -/
theorem access_of_mem {token : Token} (hopen : '(' ∈ token.toList) (hclose : ')' ∈ token.toList) :
    access token = (do
      let offset ← numeral (beforeOpen token)
      let base ← register (betweenParentheses token)
      return (offset, base)) := by
  obtain ⟨before, hbefore, ⟨rest, rfl, hmem⟩ | ⟨inside, tail, rfl, hmem, hinside⟩⟩ :=
    exists_parentheses hopen hclose
  · -- the numeral is refused, whatever is read as the register
    have hnumeral :
        numeral (String.ofList before) = .error (.expectedNumeral (String.ofList before)) :=
      numeral_eq_error_of_mem (by rwa [String.toList_ofList]) (by decide) (by decide) (by decide)
    rw [access_of_open hbefore (List.mem_append_left _ hmem), beforeOpen_ofList hbefore, hnumeral,
      Outcome.error_bind, Outcome.error_bind]
  · rw [access_of_parentheses tail hbefore hinside, beforeOpen_ofList hbefore,
      betweenParentheses_ofList hbefore hmem hinside]

theorem mem_of_mem_beforeOpen {token : Token} {c : Char} (h : c ∈ (beforeOpen token).toList) :
    c ∈ token.toList := by
  rw [beforeOpen, String.toList_ofList] at h
  exact List.mem_of_mem_take h

/-- A closing parenthesis before the first opening one makes a token ill-formed. -/
theorem access_of_close_first {token : Token} (h : ')' ∈ (beforeOpen token).toList) :
    ∃ fault, access token = .error fault ∧ fault.kind = .reading := by
  by_cases hopen : '(' ∈ token.toList
  · have hnumeral : numeral (beforeOpen token) = .error (.expectedNumeral (beforeOpen token)) :=
      numeral_eq_error_of_mem h (by decide) (by decide) (by decide)
    refine ⟨.expectedNumeral (beforeOpen token), ?_, rfl⟩
    rw [access_of_mem hopen (mem_of_mem_beforeOpen h), hnumeral, Outcome.error_bind]
  · exact ⟨.expectedAccess token, access_of_notMem (Or.inl hopen), rfl⟩

theorem toList_parentheses (o r tail : String) :
    (o ++ "(" ++ r ++ ")" ++ tail).toList =
      o.toList ++ '(' :: (r.toList ++ ')' :: tail.toList) := by
  simp [String.toList_append]

/-- The outcome for a text that is cut at its parentheses. -/
theorem access_parentheses {o r : String} (tail : String) (hopen : '(' ∉ o.toList)
    (hclose : ')' ∉ r.toList) :
    access (o ++ "(" ++ r ++ ")" ++ tail) = (do
      let offset ← numeral o
      let base ← register r
      return (offset, base)) := by
  have hlist := access_of_parentheses tail.toList hopen hclose
  rwa [← toList_parentheses, String.ofList_toList, String.ofList_toList, String.ofList_toList]
    at hlist

theorem access_eq_ok_iff {token : Token} {offset : Int} {base : Register} :
    access token = .ok (offset, base) ↔
      ∃ o r tail : String, token = o ++ "(" ++ r ++ ")" ++ tail ∧ '(' ∉ o.toList ∧
        ')' ∉ o.toList ∧ ')' ∉ r.toList ∧ numeral o = .ok offset ∧ register r = .ok base := by
  constructor
  · intro h
    have hboth : '(' ∈ token.toList ∧ ')' ∈ token.toList := by
      by_contra hnot
      rw [access_of_notMem (not_and_or.mp hnot)] at h
      cases h
    obtain ⟨before, hbefore, ⟨rest, rfl, hmem⟩ | ⟨inside, tail, rfl, hmem, hinside⟩⟩ :=
      exists_parentheses hboth.1 hboth.2
    · have hclose : ')' ∈ (beforeOpen (String.ofList (before ++ '(' :: rest))).toList := by
        rwa [beforeOpen_ofList hbefore, String.toList_ofList]
      obtain ⟨fault, hfault, -⟩ := access_of_close_first hclose
      cases h.symm.trans hfault
    · rw [access_of_parentheses tail hbefore hinside] at h
      obtain ⟨n, hn, h⟩ := Outcome.bind_eq_ok_iff.mp h
      obtain ⟨b, hb, h⟩ := Outcome.bind_eq_ok_iff.mp h
      cases h
      refine ⟨String.ofList before, String.ofList inside, String.ofList tail,
        ?_, ?_, ?_, ?_, hn, hb⟩
      · apply String.toList_injective
        simp only [toList_parentheses, String.toList_ofList]
      · rwa [String.toList_ofList]
      · rwa [String.toList_ofList]
      · rwa [String.toList_ofList]
  · rintro ⟨o, r, tail, rfl, hopen, -, hclose, hoffset, hbase⟩
    rw [access_parentheses tail hopen hclose, hoffset, hbase]
    rfl

/-- **The language of memory accesses.**  A token is an access exactly when it is a numeral
without parentheses, an opening parenthesis, a register, a closing parenthesis and anything
else; what follows the closing parenthesis has no influence on the outcome.  A token that lacks
one of the parentheses is quoted whole.  In any other token the numeral before the first
opening parenthesis is read first, and then the register between the first opening and the
first closing one; a closing parenthesis before the first opening one is always refused as
ill-formed. -/
theorem access_language (token : Token) :
    (∀ offset base, access token = .ok (offset, base) ↔
      ∃ o r tail : String, token = o ++ "(" ++ r ++ ")" ++ tail ∧ '(' ∉ o.toList ∧
        ')' ∉ o.toList ∧ ')' ∉ r.toList ∧ numeral o = .ok offset ∧ register r = .ok base) ∧
    (∀ o r tail tail' : String, token = o ++ "(" ++ r ++ ")" ++ tail → '(' ∉ o.toList →
      ')' ∉ r.toList → access (o ++ "(" ++ r ++ ")" ++ tail') = access token) ∧
    ('(' ∉ token.toList ∨ ')' ∉ token.toList → access token = .error (.expectedAccess token)) ∧
    ('(' ∈ token.toList ∧ ')' ∈ token.toList → ∀ fault, access token = .error fault ↔
      numeral (beforeOpen token) = .error fault ∨
        (∃ offset, numeral (beforeOpen token) = .ok offset) ∧
          register (betweenParentheses token) = .error fault) ∧
    (')' ∈ (beforeOpen token).toList →
      ∃ fault, access token = .error fault ∧ fault.kind = .reading) := by
  refine ⟨fun offset base => access_eq_ok_iff, ?_, access_of_notMem, ?_, access_of_close_first⟩
  · rintro o r tail tail' rfl hopen hclose
    rw [access_parentheses tail' hopen hclose, access_parentheses tail hopen hclose]
  · rintro ⟨hopen, hclose⟩ fault
    rw [access_of_mem hopen hclose, Outcome.bind_eq_error_iff]
    refine or_congr_right ⟨?_, ?_⟩
    · rintro ⟨offset, hoffset, h⟩
      rcases Outcome.bind_eq_error_iff.mp h with hfault | ⟨base, -, h⟩
      · exact ⟨⟨offset, hoffset⟩, hfault⟩
      · cases h
    · rintro ⟨⟨offset, hoffset⟩, hfault⟩
      exact ⟨offset, hoffset, Outcome.bind_eq_error_iff.mpr (Or.inl hfault)⟩

/-- What is behind the first pair of parentheses is dropped; in the wrong order, they are not
a pair. -/
example :
    access "-4($2)(junk" = .ok (-4, ⟨2, by decide⟩) ∧
      access "4)($2)" = .error (.expectedNumeral "4)") := by
  decide +kernel

end Literal
end MipsAssembler
