import Mathlib
import MipsAssembler.Proofs.ScanAutomaton

/-!
# Which lists of tokens can be written down

A scan returns words and commas, and every comma closes the word before it.  So not every
list of words and commas is the scan of a text: a comma has to have a word directly before
it, and in particular it cannot come first.  Lists with this property are called
`Punctuated`.  Here we prove that there are no further conditions.  Every punctuated list
is scanned from some text, and such a text can be given by a rule that looks at two tokens
at a time: `join` writes the words one after another, with a comma behind a word that has
one in the list and with a blank behind every other word.

## Behind a comma

`WellFormed` allows a comma in the first place, because the reader of statements has to
speak about the rest of a list.  The two notions meet where a list stands behind a comma:
`tokens` is punctuated exactly if `comma :: tokens` is well formed
(`punctuated_iff_wellFormed`).  Both directions of the main theorem go through this form.

* A scan that had found a comma before it saw the text would return the comma and the tokens
  of the text, and what a scan returns is well formed.  So no separate induction is needed to
  see that the first token of a text is a word.
* What is written for a word and its comma, or for a word and the blank behind it, adds just
  these tokens to any scan (`Emits`).  The rest of the list stands behind a comma or may be
  put there, so the induction goes on.
-/

namespace MipsAssembler
namespace Token

/-! ## Punctuated lists -/

/-- Every token is a comma or a word, and directly before every comma stands a token that is
not a comma. -/
structure Punctuated (tokens : List Token) : Prop where
  members : ∀ t ∈ tokens, t = comma ∨ IsWord t
  preceded : ∀ i, tokens[i]? = some comma →
    ∃ j t, i = j + 1 ∧ tokens[j]? = some t ∧ t ≠ comma

/-- A comma may be put in front of a list that does not begin with one. -/
theorem WellFormed.comma_cons {tokens : List Token} (h : WellFormed tokens)
    (hhead : tokens.head? ≠ some comma) : WellFormed (comma :: tokens) where
  members := by
    intro t ht
    rcases List.mem_cons.mp ht with rfl | ht
    · exact Or.inl rfl
    · exact h.members t ht
  separated := by
    refine List.isChain_cons.mpr ⟨fun t ht _ => ?_, h.separated⟩
    rintro rfl
    exact hhead ht

/-- The punctuated lists are those that may stand behind a comma. -/
theorem punctuated_iff_wellFormed {tokens : List Token} :
    Punctuated tokens ↔ WellFormed (comma :: tokens) := by
  constructor
  · intro h
    have hhead : tokens.head? ≠ some comma := by
      intro hcomma
      rw [List.head?_eq_getElem?] at hcomma
      obtain ⟨j, -, hj, -⟩ := h.preceded 0 hcomma
      cases hj
    refine WellFormed.comma_cons ⟨h.members, ?_⟩ hhead
    refine List.isChain_iff_getElem.mpr fun i hi hcomma hnext => ?_
    have hi' : i < tokens.length := Nat.lt_of_succ_lt hi
    have hbehind : tokens[i + 1]? = some comma := by rw [List.getElem?_eq_getElem hi, hnext]
    obtain ⟨j, t, hj, ht, hne⟩ := h.preceded (i + 1) hbehind
    cases hj
    rw [List.getElem?_eq_getElem hi', hcomma] at ht
    exact hne (Option.some.inj ht).symm
  · intro h
    refine ⟨fun t ht => h.members t (List.mem_cons_of_mem comma ht), fun i hi => ?_⟩
    obtain ⟨hlt, hcomma⟩ := List.getElem?_eq_some_iff.mp hi
    have hchain := List.isChain_iff_getElem.mp h.separated
    cases i with
    | zero => exact absurd hcomma (hchain 0 (by simpa using hlt) rfl)
    | succ j =>
      have hj : j < tokens.length := Nat.lt_of_succ_lt hlt
      refine ⟨j, tokens[j], rfl, List.getElem?_eq_getElem hj, fun hprevious => ?_⟩
      exact hchain (j + 1) (by simpa using hlt) hprevious hcomma

/-- The tokens of a text are punctuated. -/
theorem punctuated_of_scan {text : String} {tokens : List Token} (h : scan text = .ok tokens) :
    Punctuated tokens := by
  have hcomma : WellFormed ([comma] : List Token).reverse := WellFormed.nil.comma_cons (by simp)
  -- the same scan, with a comma already found
  have hscan : scanFrom 0 [comma] text.toList = .ok (comma :: tokens) := by
    rw [scan_eq_run] at h
    rw [scanFrom_eq_run]
    cases hrun : Mode.run 0 .boundary text.toList with
    | error p =>
      rw [hrun] at h
      cases h
    | ok found =>
      rw [hrun] at h
      cases h
      rfl
  exact punctuated_iff_wellFormed.mpr (wellFormed_of_scanFrom hcomma hscan)

/-! ## Writing tokens down -/

/-- The text of a list of tokens: behind each word stands a comma if the next token is one,
and otherwise a blank. -/
def join (blank : Char) : List Token → String
  | [] => ""
  | t :: rest =>
    if t = comma then join blank rest
    else t ++ (if rest.head? = some comma then "," else String.singleton blank) ++ join blank rest

theorem join_comma_cons (blank : Char) (rest : List Token) :
    join blank (comma :: rest) = join blank rest := by
  rw [join, if_pos rfl]

theorem toList_join_word (blank : Char) {w : Token} (hw : IsWord w) (rest : List Token) :
    (join blank (w :: rest)).toList =
      w.toList ++ [if rest.head? = some comma then ',' else blank] ++ (join blank rest).toList := by
  have hne : w ≠ comma := by
    rintro rfl
    exact not_isWord_comma hw
  rw [join, if_neg hne, String.toList_append, String.toList_append]
  split_ifs
  · rfl
  · rw [String.toList_singleton]

/-- The text of a list that may stand behind a comma adds these tokens to any scan. -/
theorem emits_join {blank : Char} (hblank : isBlank blank = true) {tokens : List Token}
    (h : WellFormed (comma :: tokens)) : Emits (join blank tokens).toList tokens := by
  -- a word is written together with the comma behind it, so the step is one token or two
  induction tokens using List.twoStepInduction with
  | nil => exact .nil
  | singleton w =>
    have hw : IsWord w := h.isWord_after_comma (k := 0) rfl rfl
    rw [toList_join_word blank hw]
    exact (Emits.word_blank hw hblank).append .nil
  | cons_cons w t rest ihrest ih =>
    have hw : IsWord w := h.isWord_after_comma (k := 0) rfl rfl
    rw [toList_join_word blank hw, List.head?_cons]
    by_cases ht : t = comma
    · subst ht
      rw [if_pos rfl, join_comma_cons]
      exact (Emits.word_comma hw).append (ihrest (h.drop 2))
    · have hsome : some t ≠ some comma := fun hcomma => ht (Option.some.inj hcomma)
      rw [if_neg hsome]
      exact (Emits.word_blank hw hblank).append (ih t ((h.drop 2).comma_cons hsome))

theorem scan_join {blank : Char} (hblank : isBlank blank = true) {tokens : List Token}
    (h : Punctuated tokens) : scan (join blank tokens) = .ok tokens :=
  (emits_join hblank (punctuated_iff_wellFormed.mp h)).scan_eq

/-- **The punctuated lists are the scans of texts, and `join` writes them.**  The tokens of a
text are punctuated, and a punctuated list is scanned from its text, whichever blank it was
written with.  So a text that is scanned and written again is scanned to the same. -/
theorem scan_image_join (blank : Char) (hblank : isBlank blank = true) :
    (∀ text tokens, scan text = .ok tokens → Punctuated tokens) ∧
    (∀ tokens, Punctuated tokens → scan (join blank tokens) = .ok tokens) ∧
    ∀ text tokens, scan text = .ok tokens → scan (join blank tokens) = scan text := by
  refine ⟨fun text tokens h => punctuated_of_scan h, fun tokens h => scan_join hblank h, ?_⟩
  intro text tokens h
  rw [h, scan_join hblank (punctuated_of_scan h)]

/-- A text with a comment in it, written again with tabs. -/
theorem scan_image_join_tab :
    isBlank '\t' = true ∧ scan "a#b,c #,\nd" = .ok ["a#b", ",", "c", "d"] ∧
      Punctuated ["a#b", ",", "c", "d"] ∧
      join '\t' ["a#b", ",", "c", "d"] = "a#b,c\td\t" ∧
      scan (join '\t' ["a#b", ",", "c", "d"]) = .ok ["a#b", ",", "c", "d"] := by
  have hscan : scan "a#b,c #,\nd" = .ok ["a#b", ",", "c", "d"] := by
    rw [scan_eq_run]
    rfl
  obtain ⟨hpunctuated, hjoin, -⟩ := scan_image_join '\t' rfl
  have htokens : Punctuated ["a#b", ",", "c", "d"] := hpunctuated _ _ hscan
  exact ⟨rfl, hscan, htokens, by decide, hjoin _ htokens⟩

end Token
end MipsAssembler
