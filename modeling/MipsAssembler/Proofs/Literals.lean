import Mathlib
import MipsAssembler.Literal
import MipsAssembler.Proofs.Outcome
import MipsAssembler.Proofs.SignedDigits

/-!
# What the literals accept

For each kind of literal this file says three things: which tokens it accepts and with
which value, that the canonical spelling of a value is accepted with that value, and
which kinds of faults it has.

A numeral may have leading zeros, so many tokens have the same value; the canonical one
is the decimal expansion, with a minus in front if the number is negative.  The limit on
the number of digits is a limit on values too: a number is the value of some numeral
exactly when its decimal expansion has at most `maxDigits` digits.  `Writable` is that
condition; `numeral_toString` and `writable_of_numeral` are the two directions.

The faults of all literals are faults of reading or, for a numeral that is too long and
for a register that does not exist, of range (`IsReadFault`).
-/

namespace MipsAssembler
namespace Literal

/-! ## Decimal expansions -/

/-- A number with a decimal expansion that is not too long to be a numeral. -/
def Writable (n : Int) : Prop := (Nat.toDigits 10 n.natAbs).length ≤ maxDigits

theorem decimal_toDigits (n : Nat) : decimal (Nat.toDigits 10 n) = n :=
  Nat.ofDigitChars_toDigits (by decide) (by decide)

theorem isDigit_iff {c : Char} : isDigit c = true ↔ '0' ≤ c ∧ c ≤ '9' := by
  simp [isDigit]

theorem digitValue_lt {c : Char} (h : isDigit c = true) : digitValue c < 10 := by
  have hle : c.toNat ≤ '9'.toNat := (isDigit_iff.mp h).2
  have hnine : '9'.toNat = 57 := rfl
  have hzero : '0'.toNat = 48 := rfl
  unfold digitValue
  omega

theorem isDigit_of_mem_toDigits {n : Nat} {c : Char} (h : c ∈ Nat.toDigits 10 n) :
    isDigit c = true := by
  have hdigit : c.isDigit = true := Nat.isDigit_of_mem_toDigits (by decide) (by decide) h
  rw [Char.isDigit, Bool.and_eq_true, decide_eq_true_eq, decide_eq_true_eq] at hdigit
  exact isDigit_iff.mpr hdigit

theorem decimal_lt {cs : List Char} (h : ∀ c ∈ cs, isDigit c = true) :
    decimal cs < 10 ^ cs.length :=
  ofDigitChars_lt fun c hc => digitValue_lt (h c hc)

/-! ## Numerals -/

/-- The digits that a numeral may have. -/
structure IsRow (cs : List Char) : Prop where
  ne_nil : cs ≠ []
  digits : ∀ c ∈ cs, isDigit c = true
  length_le : cs.length ≤ maxDigits

/-- A numeral is an optional minus and a row of digits, after which a line feed is
ignored. -/
theorem numeral_eq_ok_iff {token : Token} {n : Int} :
    numeral token = .ok n ↔
      ∃ negative cs, splitSign (dropFinalNewline token.toList) = (negative, cs) ∧ IsRow cs ∧
        n = if negative then -(decimal cs : Int) else (decimal cs : Int) := by
  unfold numeral
  rcases splitSign (dropFinalNewline token.toList) with ⟨negative, cs⟩
  dsimp only
  by_cases hrow : cs.isEmpty || !cs.all isDigit
  · rw [if_pos hrow]
    refine ⟨fun h => absurd h (by simp), ?_⟩
    rintro ⟨_, _, hsplit, hcs, -⟩
    cases hsplit
    rw [Bool.or_eq_true, List.isEmpty_iff, Bool.not_eq_true', List.all_eq_false] at hrow
    rcases hrow with hnil | ⟨c, hc, hnot⟩
    · exact absurd hnil hcs.ne_nil
    · exact absurd (hcs.digits c hc) hnot
  · have hfacts : cs ≠ [] ∧ ∀ c ∈ cs, isDigit c = true := by
      simpa using hrow
    rw [if_neg hrow]
    by_cases hlength : maxDigits < cs.length
    · rw [if_pos hlength]
      refine ⟨fun h => absurd h (by simp), ?_⟩
      rintro ⟨_, _, hsplit, hcs, -⟩
      cases hsplit
      exact absurd hcs.length_le (by omega)
    · rw [if_neg hlength]
      have hcs : IsRow cs := ⟨hfacts.1, hfacts.2, by omega⟩
      constructor
      · intro h
        refine ⟨negative, cs, rfl, hcs, ?_⟩
        cases negative <;> exact (Except.ok.inj h).symm
      · rintro ⟨_, _, hsplit, -, rfl⟩
        cases hsplit
        cases negative <;> rfl

/-- The value of a numeral is not too long to be written again. -/
theorem writable_of_numeral {token : Token} {n : Int} (h : numeral token = .ok n) :
    Writable n := by
  obtain ⟨negative, cs, -, hcs, rfl⟩ := numeral_eq_ok_iff.mp h
  have habs : (if negative then -(decimal cs : Int) else (decimal cs : Int)).natAbs = decimal cs := by
    cases negative <;> simp
  have hlt : decimal cs < 10 ^ maxDigits :=
    lt_of_lt_of_le (decimal_lt hcs.digits) (Nat.pow_le_pow_right (by decide) hcs.length_le)
  rw [Writable, habs]
  exact (Nat.length_toDigits_le_iff (by decide) (by decide)).mpr hlt

theorem dropFinalNewline_of_notMem {cs : List Char} (h : '\n' ∉ cs) : dropFinalNewline cs = cs := by
  rw [dropFinalNewline, if_neg]
  exact fun hlast => h (List.mem_of_getLast? hlast)

theorem not_isDigit_newline : ¬ isDigit '\n' = true := by decide

theorem not_isDigit_minus : ¬ isDigit '-' = true := by decide

/-- A row of digits is a numeral without a sign. -/
theorem numeral_row {cs : List Char} (h : IsRow cs) :
    numeral (String.ofList cs) = .ok (decimal cs : Int) := by
  have hdrop : dropFinalNewline cs = cs :=
    dropFinalNewline_of_notMem fun hmem => not_isDigit_newline (h.digits _ hmem)
  have hsplit : splitSign cs = (false, cs) := by
    unfold splitSign
    split
    · exact absurd (h.digits '-' List.mem_cons_self) not_isDigit_minus
    · rfl
  refine numeral_eq_ok_iff.mpr ⟨false, cs, ?_, h, rfl⟩
  rw [String.toList_ofList, hdrop, hsplit]

/-- A minus and a row of digits is a numeral for the opposite number. -/
theorem numeral_minus_row {cs : List Char} (h : IsRow cs) :
    numeral (String.ofList ('-' :: cs)) = .ok (-(decimal cs : Int)) := by
  have hdrop : dropFinalNewline ('-' :: cs) = '-' :: cs := by
    refine dropFinalNewline_of_notMem fun hmem => ?_
    rcases List.mem_cons.mp hmem with hminus | hmem
    · exact absurd hminus (by decide)
    · exact not_isDigit_newline (h.digits _ hmem)
  refine numeral_eq_ok_iff.mpr ⟨true, cs, ?_, h, rfl⟩
  rw [String.toList_ofList, hdrop]
  rfl

theorem isRow_toDigits {n : Nat} (h : (Nat.toDigits 10 n).length ≤ maxDigits) :
    IsRow (Nat.toDigits 10 n) where
  ne_nil := Nat.toDigits_ne_nil
  digits := fun _ hc => isDigit_of_mem_toDigits hc
  length_le := h

/-- The characters of a number written in decimal. -/
theorem toList_toString_int (n : Int) :
    (toString n).toList =
      if n < 0 then '-' :: Nat.toDigits 10 n.natAbs else Nat.toDigits 10 n.natAbs := by
  cases n with
  | ofNat m =>
    rw [if_neg (by simp)]
    exact Nat.toList_repr
  | negSucc m =>
    rw [if_pos (Int.negSucc_lt_zero m), Int.natAbs_negSucc]
    change ("-" ++ m.succ.repr).toList = _
    rw [String.toList_append, Nat.toList_repr]
    rfl

/-- **A number that is not too long is the value of its decimal expansion.** -/
theorem numeral_toString {n : Int} (h : Writable n) : numeral (toString n) = .ok n := by
  have hrow := isRow_toDigits h
  rw [← String.ofList_toList (s := toString n), toList_toString_int]
  by_cases hneg : n < 0
  · rw [if_pos hneg, numeral_minus_row hrow, decimal_toDigits]
    exact congrArg Except.ok (by omega)
  · rw [if_neg hneg, numeral_row hrow, decimal_toDigits]
    exact congrArg Except.ok (by omega)

/-- The characters of a decimal expansion are digits and the minus. -/
theorem isDigit_or_minus_of_mem_toString {n : Int} {c : Char} (h : c ∈ (toString n).toList) :
    isDigit c = true ∨ c = '-' := by
  rw [toList_toString_int] at h
  split at h
  · rcases List.mem_cons.mp h with hminus | hdigit
    · exact Or.inr hminus
    · exact Or.inl (isDigit_of_mem_toDigits hdigit)
  · exact Or.inl (isDigit_of_mem_toDigits h)

theorem notMem_toString {n : Int} {c : Char} (hdigit : ¬ isDigit c = true) (hminus : c ≠ '-') :
    c ∉ (toString n).toList := by
  intro h
  rcases isDigit_or_minus_of_mem_toString h with h | h
  · exact hdigit h
  · exact hminus h

/-! ## Registers -/

/-- The canonical spelling of a register. -/
def registerText (r : Register) : String := "$" ++ toString r.val

theorem toList_registerText (r : Register) :
    (registerText r).toList = '$' :: (toString (r.val : Int)).toList := by
  rw [registerText, String.toList_append]
  rfl

theorem register?_natCast (r : Register) : register? (r.val : Int) = some r := by
  have hlt : (r.val : Int) < registerCount := by exact_mod_cast r.isLt
  rw [register?, dif_pos ⟨Int.natCast_nonneg _, hlt⟩]
  rfl

/-- The number of a register has at most two digits. -/
theorem writable_register (r : Register) : Writable (r.val : Int) := by
  have htwo : (Nat.toDigits 10 r.val).length ≤ 2 := by
    refine (Nat.length_toDigits_le_iff (by decide) (by decide)).mpr ?_
    have hlt : r.val < 32 := r.isLt
    omega
  exact htwo.trans (by decide)

theorem register_registerText (r : Register) : register (registerText r) = .ok r := by
  have hnumeral := numeral_toString (writable_register r)
  unfold register
  rw [toList_registerText]
  simp only [String.ofList_toList, hnumeral, register?_natCast]

/-! ## Labels -/

/-- A label is any token that is not empty, does not begin with a digit and has no
colon; its name is the token. -/
theorem label_eq_ok_iff {token : Token} {name : String} :
    label token = .ok name ↔
      name = token ∧ token.toList ≠ [] ∧
        (∀ c, token.toList.head? = some c → isDigit c = false) ∧ ':' ∉ token.toList := by
  unfold label
  cases token.toList with
  | nil => simp
  | cons c cs =>
    dsimp only
    cases hdigit : isDigit c with
    | true => simp [hdigit]
    | false =>
      by_cases hcolon : (c :: cs).contains ':'
      · rw [if_neg (by simp), if_pos hcolon]
        refine ⟨fun h => absurd h (by simp), fun h => ?_⟩
        exact absurd (List.contains_iff_mem.mp hcolon) h.2.2.2
      · rw [if_neg (by simp), if_neg hcolon, Except.ok.injEq]
        refine ⟨fun h => ⟨h.symm, by simp, ?_, ?_⟩, fun h => h.1.symm⟩
        · intro d hd
          cases hd
          exact hdigit
        · exact fun hmem => hcolon (List.contains_iff_mem.mpr hmem)

/-! ## Memory accesses -/

/-- The canonical spelling of an access to memory. -/
def accessText (offset : Int) (base : Register) : String :=
  toString offset ++ "(" ++ registerText base ++ ")"

theorem toList_accessText (offset : Int) (base : Register) :
    (accessText offset base).toList =
      (toString offset).toList ++ '(' :: ((registerText base).toList ++ [')']) := by
  simp [accessText, String.toList_append]

/-- The offset is what stands before the first opening parenthesis, and the base is looked for
behind it, up to the next closing one. -/
theorem access_of_open {before rest : List Char} (hopen : '(' ∉ before)
    (hclose : ')' ∈ before ++ '(' :: rest) :
    access (String.ofList (before ++ '(' :: rest)) = (do
      let offset ← numeral (String.ofList before)
      let base ← register (String.ofList (rest.takeWhile (· != ')')))
      return (offset, base)) := by
  have hbefore : ∀ c ∈ before, (c != '(') = true := by
    intro c hc
    rw [bne_iff_ne]
    rintro rfl
    exact hopen hc
  have hoffset : (before ++ '(' :: rest).takeWhile (· != '(') = before := by
    rw [List.takeWhile_append_of_pos hbefore, List.takeWhile_cons_of_neg (by simp), List.append_nil]
  have hinside : ((before ++ '(' :: rest).dropWhile (· != '(')).drop 1 = rest := by
    rw [List.dropWhile_append_of_pos hbefore, List.dropWhile_cons_of_neg (by simp), List.drop_one,
      List.tail_cons]
  have hparens : ((before ++ '(' :: rest).contains '(' &&
      (before ++ '(' :: rest).contains ')') = true := by
    rw [List.contains_iff_mem.mpr hclose, Bool.and_true]
    simp
  unfold access
  simp only [String.toList_ofList]
  rw [if_pos hparens, hoffset, hinside]

/-- The offset and the base of an access that is cut at its parentheses.  What follows the
closing one has no influence. -/
theorem access_of_parentheses {before inside : List Char} (tail : List Char)
    (hopen : '(' ∉ before) (hclose : ')' ∉ inside) :
    access (String.ofList (before ++ '(' :: (inside ++ ')' :: tail))) = (do
      let offset ← numeral (String.ofList before)
      let base ← register (String.ofList inside)
      return (offset, base)) := by
  have hinside : ∀ c ∈ inside, (c != ')') = true := by
    intro c hc
    rw [bne_iff_ne]
    rintro rfl
    exact hclose hc
  rw [access_of_open hopen (by simp), List.takeWhile_append_of_pos hinside,
    List.takeWhile_cons_of_neg (by simp), List.append_nil]

theorem access_accessText {offset : Int} (h : Writable offset) (base : Register) :
    access (accessText offset base) = .ok (offset, base) := by
  have hopen : '(' ∉ (toString offset).toList := notMem_toString (by decide) (by decide)
  have hclose : ')' ∉ (registerText base).toList := by
    rw [toList_registerText, List.mem_cons, not_or]
    exact ⟨by decide, notMem_toString (by decide) (by decide)⟩
  rw [← String.ofList_toList (s := accessText offset base), toList_accessText,
    access_of_parentheses [] hopen hclose, String.ofList_toList, String.ofList_toList,
    numeral_toString h, register_registerText]
  rfl

/-- The offset of an access is the value of a numeral. -/
theorem writable_of_access {token : Token} {offset : Int} {base : Register}
    (h : access token = .ok (offset, base)) : Writable offset := by
  unfold access at h
  dsimp only at h
  split at h
  · obtain ⟨n, hn, h⟩ := Outcome.bind_eq_ok_iff.mp h
    obtain ⟨r, -, h⟩ := Outcome.bind_eq_ok_iff.mp h
    cases h
    exact writable_of_numeral hn
  · cases h

/-! ## Commas -/

theorem comma_eq_ok_iff {token : Token} : comma token = .ok () ↔ token = Token.comma := by
  unfold comma
  split <;> simp [*]

/-! ## Faults -/

/-- The faults that a reader of tokens may have. -/
def IsReadFault (fault : Fault) : Prop := fault.kind = .reading ∨ fault.kind = .range

theorem failsOnly_numeral (token : Token) : Outcome.FailsOnly IsReadFault (numeral token) := by
  unfold numeral
  rcases splitSign (dropFinalNewline token.toList) with ⟨negative, cs⟩
  dsimp only
  split
  · exact .error (Or.inl rfl)
  · split
    · exact .error (Or.inr rfl)
    · split <;> exact .ok _

theorem failsOnly_register (token : Token) : Outcome.FailsOnly IsReadFault (register token) := by
  unfold register
  split
  · split
    · exact .error (Or.inl rfl)
    · exact .error (failsOnly_numeral _ _ ‹_›)
    · split
      · exact .ok _
      · exact .error (Or.inr rfl)
  · exact .error (Or.inl rfl)

theorem failsOnly_label (token : Token) : Outcome.FailsOnly IsReadFault (label token) := by
  unfold label
  split
  · exact .error (Or.inl rfl)
  · split
    · exact .error (Or.inl rfl)
    · split
      · exact .error (Or.inl rfl)
      · exact .ok _

theorem failsOnly_access (token : Token) : Outcome.FailsOnly IsReadFault (access token) := by
  unfold access
  dsimp only
  split
  · refine .bind (failsOnly_numeral _) fun offset => ?_
    exact .bind (failsOnly_register _) fun base => .ok _
  · exact .error (Or.inl rfl)

theorem failsOnly_comma (token : Token) : Outcome.FailsOnly IsReadFault (comma token) := by
  unfold comma
  split
  · exact .ok _
  · exact .error (Or.inl rfl)

end Literal
end MipsAssembler
