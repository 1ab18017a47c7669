import Mathlib
import MipsAssembler.Proofs.Literals
import MipsAssembler.Proofs.SignedDigits

/-!
# The texts of numerals and registers

Which texts are numerals, and what is said about the others.  A token spells a numeral if it is
an optional minus and a row of digits, or that with one line feed behind it
(`SignedDigits.SpelledBy`).  Every token then has one of three outcomes: it spells a numeral of at
most 4300 digits and has its value, or it spells a longer one and is out of range, or it spells
none and is quoted as ill-formed.  The limit is on digits, so zeros in front of a number count;
a minus and the line feed do not, but they do count in the length that is reported.

A register is a dollar sign and a text whose outcome as a numeral decides everything else.  The
one thing that is changed on the way is what is quoted: an ill-formed register is quoted whole,
with its dollar sign.  The length of a numeral that is too long is still that of the numeral.
-/

namespace MipsAssembler

/-! ## What faults say -/

/-- A fault of a given kind that quotes a text. -/
def Fault.QuotesAs (fault : Fault) (kind : Fault.Kind) (text : String) : Prop :=
  fault.kind = kind ∧ ∃ before, fault.message = before ++ "'" ++ text ++ "'"

/-- A fault of a given kind that states a number of characters. -/
def Fault.CountsAs (fault : Fault) (kind : Fault.Kind) (length : Nat) : Prop :=
  fault.kind = kind ∧ ∃ before, fault.message = before ++ "(" ++ toString length ++ " caracteres)"

/-! ## Spelling a numeral -/

/-- The token is the text of the numeral, and perhaps a line feed. -/
def SignedDigits.SpelledBy (w : SignedDigits 10) (token : Token) : Prop :=
  token = w.text ∨ token = w.text ++ "\n"

namespace Literal

theorem isDigit_digitChar (d : Fin 10) : isDigit d.val.digitChar = true := by
  revert d
  decide

theorem exists_digitChar_of_isDigit {c : Char} (h : isDigit c = true) :
    ∃ d : Fin 10, d.val.digitChar = c := by
  obtain ⟨hlow, hhigh⟩ := isDigit_iff.mp h
  have hlow : 48 ≤ c.toNat := hlow
  have hhigh : c.toNat ≤ 57 := hhigh
  have hchar : (c.toNat - 48).digitChar = Char.ofNat c.toNat := by
    generalize c.toNat = m at hlow hhigh
    interval_cases m <;> rfl
  exact ⟨⟨c.toNat - 48, by omega⟩, hchar.trans (Char.ofNat_toNat c)⟩

section Split

variable {token : Token} {negative : Bool} {cs ds : List Char}

theorem isDigit_of_mem_row {digits : List (Fin 10)} {c : Char}
    (h : c ∈ SignedDigits.row digits) : isDigit c = true := by
  obtain ⟨d, -, rfl⟩ := List.mem_map.mp h
  exact isDigit_digitChar d

theorem newline_notMem_text (w : SignedDigits 10) : '\n' ∉ w.text.toList := by
  rw [SignedDigits.toList_text, List.mem_append, not_or]
  refine ⟨by split <;> decide, fun h => ?_⟩
  exact not_isDigit_newline (isDigit_of_mem_row h)

theorem dropFinalNewline_concat (cs : List Char) : dropFinalNewline (cs ++ ['\n']) = cs := by
  rw [dropFinalNewline, if_pos List.getLast?_concat, List.dropLast_concat]

theorem splitSign_text (w : SignedDigits 10) :
    splitSign w.text.toList = (w.negative, SignedDigits.row w.digits) := by
  rw [SignedDigits.toList_text]
  cases w.negative with
  | true => rfl
  | false =>
    unfold splitSign
    split
    · next cs hcs =>
      have hminus : '-' ∈ SignedDigits.row w.digits := by
        rw [show SignedDigits.row w.digits = '-' :: cs from hcs]
        exact List.mem_cons_self
      exact absurd (isDigit_of_mem_row hminus) not_isDigit_minus
    · rfl

/-- What the reader finds in a token that spells a numeral. -/
theorem split_of_spelledBy {w : SignedDigits 10} (h : w.SpelledBy token) :
    splitSign (dropFinalNewline token.toList) = (w.negative, SignedDigits.row w.digits) := by
  rcases h with rfl | rfl
  · rw [dropFinalNewline_of_notMem (newline_notMem_text w), splitSign_text]
  · rw [String.toList_append]
    show splitSign (dropFinalNewline (w.text.toList ++ ['\n'])) = _
    rw [dropFinalNewline_concat, splitSign_text]

theorem eq_or_eq_concat_dropFinalNewline (cs : List Char) :
    cs = dropFinalNewline cs ∨ cs = dropFinalNewline cs ++ ['\n'] := by
  unfold dropFinalNewline
  split
  · next hlast => exact Or.inr (List.dropLast_append_getLast? '\n' hlast).symm
  · exact Or.inl rfl

theorem eq_append_of_splitSign (h : splitSign cs = (negative, ds)) :
    cs = (if negative then ['-'] else []) ++ ds := by
  unfold splitSign at h
  split at h
  · cases h
    rfl
  · cases h
    rfl

/-- A token in which the reader finds digits spells a numeral. -/
theorem exists_spelledBy_of_split
    (hsplit : splitSign (dropFinalNewline token.toList) = (negative, ds)) (hne : ds ≠ [])
    (hdigits : ∀ c ∈ ds, isDigit c = true) : ∃ w : SignedDigits 10, w.SpelledBy token := by
  obtain ⟨digits, rfl⟩ :=
    SignedDigits.exists_row_eq fun c hc => exists_digitChar_of_isDigit (hdigits c hc)
  refine ⟨⟨negative, digits, fun hnil => hne (by rw [hnil]; rfl)⟩, ?_⟩
  have hdrop := eq_append_of_splitSign hsplit
  rcases eq_or_eq_concat_dropFinalNewline token.toList with htoken | htoken
  · left
    apply String.toList_injective
    rw [SignedDigits.toList_text, ← hdrop]
    exact htoken
  · right
    apply String.toList_injective
    rw [String.toList_append, SignedDigits.toList_text, ← hdrop]
    exact htoken

end Split

/-! ## The three outcomes -/

section Outcomes

variable {token : Token}

theorem value_of_row (w : SignedDigits 10) :
    (if w.negative then -(decimal (SignedDigits.row w.digits) : Int)
      else (decimal (SignedDigits.row w.digits) : Int)) = w.value := by
  have hdecimal : decimal (SignedDigits.row w.digits) = w.magnitude :=
    SignedDigits.ofDigitChars_row le_rfl w.digits
  rw [hdecimal, SignedDigits.value]

/-- A token that spells a numeral has its value, unless it has too many digits. -/
theorem numeral_of_spelledBy {w : SignedDigits 10} (h : w.SpelledBy token) :
    numeral token = if w.digits.length ≤ 4300 then .ok w.value
      else .error (.numeralTooLong token.length) := by
  have hrow : ¬ ((SignedDigits.row w.digits).isEmpty ||
      !(SignedDigits.row w.digits).all isDigit) = true := by
    have hall : (SignedDigits.row w.digits).all isDigit = true :=
      List.all_eq_true.mpr fun c => isDigit_of_mem_row
    simp [hall, w.row_ne_nil]
  unfold numeral
  rw [split_of_spelledBy h]
  dsimp only
  rw [if_neg hrow, SignedDigits.length_row, ← value_of_row w]
  show (if 4300 < w.digits.length then _ else _) = _
  by_cases hlength : w.digits.length ≤ 4300
  · rw [if_neg (not_lt.mpr hlength), if_pos hlength]
    cases w.negative <;> rfl
  · rw [if_pos (not_le.mp hlength), if_neg hlength]

/-- A token that spells no numeral is quoted. -/
theorem numeral_of_not_spelled (h : ¬ ∃ w : SignedDigits 10, w.SpelledBy token) :
    numeral token = .error (.expectedNumeral token) := by
  unfold numeral
  rcases hsplit : splitSign (dropFinalNewline token.toList) with ⟨negative, ds⟩
  dsimp only
  rw [if_pos]
  by_contra hrow
  have hfacts : ds ≠ [] ∧ ∀ c ∈ ds, isDigit c = true := by simpa using hrow
  exact h (exists_spelledBy_of_split hsplit hfacts.1 hfacts.2)

/-- The three outcomes of reading a numeral. -/
theorem numeral_cases (token : Token) :
    (∃ w : SignedDigits 10, w.SpelledBy token ∧ w.digits.length ≤ 4300 ∧
        numeral token = .ok w.value) ∨
      (∃ w : SignedDigits 10, w.SpelledBy token ∧ 4300 < w.digits.length ∧
        numeral token = .error (.numeralTooLong token.length)) ∨
      ((¬ ∃ w : SignedDigits 10, w.SpelledBy token) ∧
        numeral token = .error (.expectedNumeral token)) := by
  by_cases h : ∃ w : SignedDigits 10, w.SpelledBy token
  · obtain ⟨w, hw⟩ := h
    have hnumeral := numeral_of_spelledBy hw
    by_cases hlength : w.digits.length ≤ 4300
    · rw [if_pos hlength] at hnumeral
      exact Or.inl ⟨w, hw, hlength, hnumeral⟩
    · rw [if_neg hlength] at hnumeral
      exact Or.inr (Or.inl ⟨w, hw, not_le.mp hlength, hnumeral⟩)
  · exact Or.inr (Or.inr ⟨h, numeral_of_not_spelled h⟩)

theorem numeral_eq_ok_iff_spelled {n : Int} :
    numeral token = .ok n ↔
      ∃ w : SignedDigits 10, w.SpelledBy token ∧ w.digits.length ≤ 4300 ∧ w.value = n := by
  constructor
  · intro h
    rcases numeral_cases token with ⟨w, hw, hlength, hok⟩ | ⟨w, -, -, herror⟩ | ⟨-, herror⟩
    · exact ⟨w, hw, hlength, Except.ok.inj (hok.symm.trans h)⟩
    · cases h.symm.trans herror
    · cases h.symm.trans herror
  · rintro ⟨w, hw, hlength, rfl⟩
    rw [numeral_of_spelledBy hw, if_pos hlength]

/-- A numeral is out of range exactly if it has too many digits. -/
theorem numeral_eq_range_error_iff {fault : Fault} :
    (numeral token = .error fault ∧ fault.kind = .range) ↔
      (∃ w : SignedDigits 10, w.SpelledBy token ∧ 4300 < w.digits.length) ∧
        fault = .numeralTooLong token.length := by
  constructor
  · rintro ⟨h, hkind⟩
    rcases numeral_cases token with ⟨w, -, -, hok⟩ | ⟨w, hw, hlength, herror⟩ | ⟨-, herror⟩
    · cases h.symm.trans hok
    · exact ⟨⟨w, hw, hlength⟩, Except.error.inj (h.symm.trans herror)⟩
    · cases h.symm.trans herror
      cases hkind
  · rintro ⟨⟨w, hw, hlength⟩, rfl⟩
    rw [numeral_of_spelledBy hw, if_neg (not_le.mpr hlength)]
    exact ⟨rfl, rfl⟩

theorem numeral_eq_expected_iff :
    numeral token = .error (.expectedNumeral token) ↔
      ¬ ∃ w : SignedDigits 10, w.SpelledBy token := by
  refine ⟨?_, numeral_of_not_spelled⟩
  rintro h ⟨w, hw⟩
  rw [numeral_of_spelledBy hw] at h
  split at h <;> cases h

end Outcomes

/-! ## Zeros in front -/

/-- A text with `k` zeros behind its sign. -/
def insertZeros (k : Nat) (text : String) : String :=
  match text.toList with
  | '-' :: cs => String.ofList ('-' :: (List.replicate k '0' ++ cs))
  | cs => String.ofList (List.replicate k '0' ++ cs)

theorem isRow_zeros_toDigits {n k : Nat} (h : (Nat.toDigits 10 n).length + k ≤ maxDigits) :
    IsRow (List.replicate k '0' ++ Nat.toDigits 10 n) where
  ne_nil := List.append_ne_nil_of_right_ne_nil _ Nat.toDigits_ne_nil
  digits c hc := by
    rcases List.mem_append.mp hc with hzero | hdigit
    · rw [List.eq_of_mem_replicate hzero]
      decide
    · exact isDigit_of_mem_toDigits hdigit
  length_le := by
    rw [List.length_append, List.length_replicate]
    omega

theorem decimal_zeros_toDigits (n k : Nat) :
    decimal (List.replicate k '0' ++ Nat.toDigits 10 n) = n := by
  show Nat.ofDigitChars 10 (List.replicate k '0' ++ Nat.toDigits 10 n) 0 = n
  rw [Nat.ofDigitChars_append, Nat.ofDigitChars_replicate_zero, Nat.mul_zero]
  exact decimal_toDigits n

/-- Zeros in front of a number, within the limit, do not change it. -/
theorem numeral_insertZeros (n : Int) (k : Nat) (h : (toString n.natAbs).length + k ≤ 4300) :
    numeral (insertZeros k (toString n)) = .ok n := by
  have hlength : (Nat.toDigits 10 n.natAbs).length + k ≤ maxDigits := by
    rwa [← String.length_toList, show toString n.natAbs = n.natAbs.repr from rfl,
      Nat.toList_repr] at h
  have hrow := isRow_zeros_toDigits hlength
  have htext := toList_toString_int n
  by_cases hneg : n < 0
  · rw [if_pos hneg] at htext
    rw [insertZeros, htext]
    show numeral (String.ofList ('-' :: (List.replicate k '0' ++ Nat.toDigits 10 n.natAbs))) = _
    rw [numeral_minus_row hrow, decimal_zeros_toDigits]
    exact congrArg Except.ok (by omega)
  · rw [if_neg hneg] at htext
    have hhead : ∀ cs, Nat.toDigits 10 n.natAbs ≠ '-' :: cs := by
      intro cs hcs
      have hminus : '-' ∈ Nat.toDigits 10 n.natAbs := hcs ▸ List.mem_cons_self
      exact not_isDigit_minus (isDigit_of_mem_toDigits hminus)
    have hinsert : insertZeros k (toString n) =
        String.ofList (List.replicate k '0' ++ Nat.toDigits 10 n.natAbs) := by
      unfold insertZeros
      rw [htext]
      split
      · next cs hcs => exact absurd hcs (hhead cs)
      · rfl
    rw [hinsert, numeral_row hrow, decimal_zeros_toDigits]
    exact congrArg Except.ok (by omega)

/-! ## Registers -/

section Registers

variable {token u : Token}

theorem toList_dollar (u : String) : ("$" ++ u).toList = '$' :: u.toList := by
  rw [String.toList_append]
  rfl

/-- The register with a number, if there is one. -/
theorem register?_of_lt {n : Int} (h : 0 ≤ n ∧ n < 32) :
    ∃ r : Register, register? n = some r ∧ (r.val : Int) = n := by
  refine ⟨⟨n.toNat, by unfold registerCount; omega⟩, dif_pos h, ?_⟩
  exact Int.toNat_of_nonneg h.1

theorem register_dollar_of_ok {n : Int} (h : numeral u = .ok n) :
    (∃ r : Register, (r.val : Int) = n ∧ register ("$" ++ u) = .ok r) ∨
      (¬ (0 ≤ n ∧ n < 32) ∧ register ("$" ++ u) = .error (.noSuchRegister ("$" ++ u))) := by
  unfold register
  simp only [toList_dollar, String.ofList_toList, h]
  by_cases hrange : 0 ≤ n ∧ n < 32
  · obtain ⟨r, hr, hvalue⟩ := register?_of_lt hrange
    rw [hr]
    exact Or.inl ⟨r, hvalue, rfl⟩
  · rw [show register? n = none from dif_neg hrange]
    exact Or.inr ⟨hrange, rfl⟩

theorem register_dollar_of_tooLong {length : Nat}
    (h : numeral u = .error (.numeralTooLong length)) :
    register ("$" ++ u) = .error (.numeralTooLong length) := by
  unfold register
  simp only [toList_dollar, String.ofList_toList, h]

theorem register_dollar_of_expected {v : Token} (h : numeral u = .error (.expectedNumeral v)) :
    register ("$" ++ u) = .error (.expectedRegister ("$" ++ u)) := by
  unfold register
  simp only [toList_dollar, String.ofList_toList, h]

theorem register_of_no_dollar (h : ¬ ∃ u, token = "$" ++ u) :
    register token = .error (.expectedRegister token) := by
  unfold register
  split
  · next cs hcs =>
    refine absurd ⟨String.ofList cs, ?_⟩ h
    apply String.toList_injective
    rw [toList_dollar, String.toList_ofList, hcs]
  · rfl

theorem dollar_inj {u v : String} (h : "$" ++ u = "$" ++ v) : u = v := by
  have hlist := congrArg String.toList h
  rw [toList_dollar, toList_dollar] at hlist
  exact String.toList_injective (List.cons.inj hlist).2

/-- The outcomes of reading a register: no dollar sign, or one of the outcomes for the text
behind it. -/
theorem register_cases (token : Token) :
    ((¬ ∃ u, token = "$" ++ u) ∧ register token = .error (.expectedRegister token)) ∨
      ∃ u, token = "$" ++ u ∧
        ((∃ r : Register, numeral u = .ok r.val ∧ register token = .ok r) ∨
          (∃ n, numeral u = .ok n ∧ ¬ (0 ≤ n ∧ n < 32) ∧
            register token = .error (.noSuchRegister token)) ∨
          (numeral u = .error (.numeralTooLong u.length) ∧
            register token = .error (.numeralTooLong u.length)) ∨
          (numeral u = .error (.expectedNumeral u) ∧
            register token = .error (.expectedRegister token))) := by
  by_cases h : ∃ u, token = "$" ++ u
  · obtain ⟨u, rfl⟩ := h
    refine Or.inr ⟨u, rfl, ?_⟩
    rcases numeral_cases u with ⟨w, -, -, hnumeral⟩ | ⟨w, -, -, hnumeral⟩ | ⟨-, hnumeral⟩
    · rcases register_dollar_of_ok hnumeral with ⟨r, hvalue, hregister⟩ | ⟨hrange, hregister⟩
      · exact Or.inl ⟨r, by rw [hnumeral, hvalue], hregister⟩
      · exact Or.inr (Or.inl ⟨_, hnumeral, hrange, hregister⟩)
    · exact Or.inr (Or.inr (Or.inl ⟨hnumeral, register_dollar_of_tooLong hnumeral⟩))
    · exact Or.inr (Or.inr (Or.inr ⟨hnumeral, register_dollar_of_expected hnumeral⟩))
  · exact Or.inl ⟨h, register_of_no_dollar h⟩

/-- A register is a dollar sign and the numeral of one of the 32 registers. -/
theorem register_eq_ok_iff_numeral {n : Int} :
    (∃ r : Register, register token = .ok r ∧ (r.val : Int) = n) ↔
      ∃ u, token = "$" ++ u ∧ numeral u = .ok n ∧ 0 ≤ n ∧ n < 32 := by
  constructor
  · rintro ⟨r, hr, rfl⟩
    rcases register_cases token with ⟨-, herror⟩ | ⟨u, hu, hcases⟩
    · cases hr.symm.trans herror
    rcases hcases with ⟨r', hnumeral, hok⟩ | ⟨_, -, -, herror⟩ | ⟨-, herror⟩ | ⟨-, herror⟩
    · cases hr.symm.trans hok
      have hlt : r.val < 32 := r.isLt
      exact ⟨u, hu, hnumeral, by omega, by omega⟩
    all_goals cases hr.symm.trans herror
  · rintro ⟨u, rfl, hnumeral, hrange⟩
    rcases register_dollar_of_ok hnumeral with ⟨r, hvalue, hregister⟩ | ⟨hnot, -⟩
    · exact ⟨r, hregister, hvalue⟩
    · exact absurd hrange hnot

/-- A register is out of range if its number is not that of a register, or if its numeral is
too long. -/
theorem register_eq_range_error_iff {fault : Fault} :
    (register token = .error fault ∧ fault.kind = .range) ↔
      ∃ u, token = "$" ++ u ∧
        ((∃ n, numeral u = .ok n ∧ ¬ (0 ≤ n ∧ n < 32) ∧ fault = .noSuchRegister token) ∨
          (∃ fault', numeral u = .error fault' ∧ fault'.kind = .range) ∧
            fault = .numeralTooLong u.length) := by
  constructor
  · rintro ⟨h, hkind⟩
    rcases register_cases token with ⟨-, herror⟩ | ⟨u, hu, hcases⟩
    · cases h.symm.trans herror
      cases hkind
    refine ⟨u, hu, ?_⟩
    rcases hcases with ⟨r, -, hok⟩ | ⟨n, hn, hrange, herror⟩ | ⟨hlong, herror⟩ | ⟨-, herror⟩
    · cases h.symm.trans hok
    · exact Or.inl ⟨n, hn, hrange, Except.error.inj (h.symm.trans herror)⟩
    · exact Or.inr ⟨⟨_, hlong, rfl⟩, Except.error.inj (h.symm.trans herror)⟩
    · cases h.symm.trans herror
      cases hkind
  · rintro ⟨u, rfl, ⟨n, hn, hrange, rfl⟩ | ⟨⟨fault', hfault', hkind⟩, rfl⟩⟩
    · rcases register_dollar_of_ok hn with ⟨r, rfl, -⟩ | ⟨-, hregister⟩
      · have hlt : r.val < 32 := r.isLt
        exact absurd ⟨by omega, by omega⟩ hrange
      · exact ⟨hregister, rfl⟩
    · obtain ⟨-, rfl⟩ := numeral_eq_range_error_iff.mp ⟨hfault', hkind⟩
      exact ⟨register_dollar_of_tooLong hfault', rfl⟩

/-- In all other cases a register is quoted whole. -/
theorem register_eq_expected_iff :
    register token = .error (.expectedRegister token) ↔
      ¬ ∃ u, token = "$" ++ u ∧ ((∃ n, numeral u = .ok n) ∨
        ∃ fault, numeral u = .error fault ∧ fault.kind = .range) := by
  rcases register_cases token with ⟨hdollar, herror⟩ | ⟨u, rfl, hcases⟩
  · exact iff_of_true herror fun ⟨u, hu, _⟩ => hdollar ⟨u, hu⟩
  rcases hcases with ⟨r, hr, hok⟩ | ⟨n, hn, -, herror⟩ | ⟨hlong, herror⟩ | ⟨hnone, herror⟩
  · refine iff_of_false (fun h => ?_) (not_not.mpr ⟨u, rfl, Or.inl ⟨_, hr⟩⟩)
    cases h.symm.trans hok
  · refine iff_of_false (fun h => ?_) (not_not.mpr ⟨u, rfl, Or.inl ⟨n, hn⟩⟩)
    cases h.symm.trans herror
  · refine iff_of_false (fun h => ?_) (not_not.mpr ⟨u, rfl, Or.inr ⟨_, hlong, rfl⟩⟩)
    cases h.symm.trans herror
  · refine iff_of_true herror ?_
    rintro ⟨v, hv, ⟨n, hn⟩ | ⟨fault, hfault, hkind⟩⟩
    · cases dollar_inj hv
      cases hnone.symm.trans hn
    · cases dollar_inj hv
      cases hnone.symm.trans hfault
      cases hkind

end Registers

/-! ## The languages -/

theorem quotesAs_expectedNumeral (text : String) :
    (Fault.expectedNumeral text).QuotesAs .reading text :=
  ⟨rfl, "se esperaba un número, encontrado: ", rfl⟩

theorem quotesAs_expectedRegister (text : String) :
    (Fault.expectedRegister text).QuotesAs .reading text :=
  ⟨rfl, "se esperaba un registro, encontrado: ", rfl⟩

theorem quotesAs_noSuchRegister (text : String) :
    (Fault.noSuchRegister text).QuotesAs .range text :=
  ⟨rfl, "se esperaba un registro $0..$31, encontrado: ", rfl⟩

theorem countsAs_numeralTooLong (length : Nat) :
    (Fault.numeralTooLong length).CountsAs .range length :=
  ⟨rfl, "número demasiado largo ", rfl⟩

/-- **The languages of numerals and registers.**  A token is a numeral exactly when it is an
optional minus and 1 to 4300 digits, perhaps with a line feed, and then has their value; with more
digits it is out of range, and anything else is ill-formed.  A number is read from its decimal
expansion with zeros put in front of the digits, as long as the limit allows.  A token is a register
exactly when it is a dollar sign and the numeral of a number below 32; it is out of range if that
number is not below 32 or if the numeral is too long, and anything else is ill-formed. -/
theorem numeral_register_language (token : Token) :
    (∀ n, numeral token = .ok n ↔
      ∃ w : SignedDigits 10, w.SpelledBy token ∧ w.digits.length ≤ 4300 ∧ w.value = n) ∧
    (∀ fault, (numeral token = .error fault ∧ fault.kind = .range) ↔
      (∃ w : SignedDigits 10, w.SpelledBy token ∧ 4300 < w.digits.length) ∧
        fault = .numeralTooLong token.length) ∧
    (numeral token = .error (.expectedNumeral token) ↔
      ¬ ∃ w : SignedDigits 10, w.SpelledBy token) ∧
    (∀ (n : Int) (k : Nat), (toString n.natAbs).length + k ≤ 4300 →
      numeral (insertZeros k (toString n)) = .ok n) ∧
    (∀ n : Int, (∃ r : Register, register token = .ok r ∧ (r.val : Int) = n) ↔
      ∃ u, token = "$" ++ u ∧ numeral u = .ok n ∧ 0 ≤ n ∧ n < 32) ∧
    (∀ fault, (register token = .error fault ∧ fault.kind = .range) ↔
      ∃ u, token = "$" ++ u ∧
        ((∃ n, numeral u = .ok n ∧ ¬ (0 ≤ n ∧ n < 32) ∧ fault = .noSuchRegister token) ∨
          (∃ fault', numeral u = .error fault' ∧ fault'.kind = .range) ∧
            fault = .numeralTooLong u.length)) ∧
    (register token = .error (.expectedRegister token) ↔
      ¬ ∃ u, token = "$" ++ u ∧ ((∃ n, numeral u = .ok n) ∨
        ∃ fault, numeral u = .error fault ∧ fault.kind = .range)) ∧
    (∀ text, (Fault.expectedNumeral text).QuotesAs .reading text ∧
      (Fault.expectedRegister text).QuotesAs .reading text ∧
      (Fault.noSuchRegister text).QuotesAs .range text) ∧
    ∀ length, (Fault.numeralTooLong length).CountsAs .range length := by
  refine ⟨fun n => numeral_eq_ok_iff_spelled, fun fault => numeral_eq_range_error_iff,
    numeral_eq_expected_iff, numeral_insertZeros, fun n => register_eq_ok_iff_numeral,
    fun fault => register_eq_range_error_iff, register_eq_expected_iff, fun text => ?_,
    countsAs_numeralTooLong⟩
  exact ⟨quotesAs_expectedNumeral text, quotesAs_expectedRegister text,
    quotesAs_noSuchRegister text⟩

/-- The line feed is not part of the number, but a second one is not part of a numeral. -/
example :
    numeral "-007\n" = .ok (-7) ∧ numeral "5\n\n" = .error (.expectedNumeral "5\n\n") ∧
      register "$-0\n" = .ok ⟨0, by decide⟩ := by
  decide +kernel

end Literal
end MipsAssembler
