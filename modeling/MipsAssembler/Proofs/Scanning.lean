import Mathlib
import MipsAssembler.Token
import MipsAssembler.Proofs.Outcome

/-!
# Which token lists a scan returns

A token is a comma or a word.  A word is a nonempty stretch of characters that are
neither blanks nor commas, and it does not begin with `#`.  Not every list of such
tokens is the scan of a text, because a comma that does not close a word is a fault.
In the lists that do arise every comma has a word directly before it, and `WellFormed`
keeps what is true of every part of such a list as well:

* every token is a comma or a word (`WellFormed.members`);
* no comma stands directly behind another (`WellFormed.separated`).

`wellFormed_of_scan` proves that every successful scan is of this form.  The reader of
statements needs the second part in one place, but there it is decisive: it is the
reason why the last operand of a branch is never a comma, while that of a jump may be
one.

In the other direction, `Emits cs tokens` says that the characters `cs` add exactly
`tokens` to any scan, whatever was found before and whatever follows.  Stretches with
this property can be put side by side (`Emits.append`), so the scan of a text that was
written line by line is put together from the scans of its words.
-/

namespace MipsAssembler
namespace Token

/-! ## Words -/

/-- A token that is a word: nonempty, without blanks and commas, and not the beginning
of a comment. -/
structure IsWord (token : Token) : Prop where
  ne_nil : token.toList ≠ []
  head : token.toList.head? ≠ some '#'
  continues : ∀ c ∈ token.toList, continuesWord c = true

theorem continuesWord_iff {c : Char} : continuesWord c = true ↔ isBlank c = false ∧ c ≠ ',' := by
  simp [continuesWord]

theorem not_continuesWord_of_isBlank {c : Char} (h : isBlank c = true) :
    continuesWord c = false := by
  simp [continuesWord, h]

theorem not_continuesWord_comma : continuesWord ',' = false := rfl

/-- A comma is no word. -/
theorem not_isWord_comma : ¬ IsWord comma := by
  intro h
  have hcomma : continuesWord ',' = true := h.continues ',' (by decide)
  rw [not_continuesWord_comma] at hcomma
  exact Bool.noConfusion hcomma

/-- The characters of a word, one at the front. -/
theorem IsWord.exists_cons {token : Token} (h : IsWord token) :
    ∃ c cs, token.toList = c :: cs ∧ c ≠ '#' ∧ continuesWord c = true ∧
      ∀ d ∈ cs, continuesWord d = true := by
  obtain ⟨c, cs, hcs⟩ := List.exists_cons_of_ne_nil h.ne_nil
  have hhead := h.head
  have hall := h.continues
  rw [hcs] at hhead hall
  refine ⟨c, cs, hcs, fun hc => hhead (by rw [hc]; rfl), hall c List.mem_cons_self, ?_⟩
  exact fun d hd => hall d (List.mem_cons_of_mem c hd)

/-- A nonempty token of characters that can stand anywhere in a word is a word. -/
theorem isWord_of_forall {token : Token} (hne : token.toList ≠ [])
    (h : ∀ c ∈ token.toList, continuesWord c = true ∧ c ≠ '#') : IsWord token where
  ne_nil := hne
  head := fun hhash => (h '#' (List.mem_of_head? hhash)).2 rfl
  continues := fun c hc => (h c hc).1

/-- The word that begins with `c`, as the scan cuts it. -/
theorem isWord_ofList {c : Char} {cs : List Char} (hhash : c ≠ '#') (hblank : ¬ isBlank c = true)
    (hcomma : c ≠ ',') : IsWord (String.ofList (c :: cs.takeWhile continuesWord)) where
  ne_nil := by simp
  head := by simpa using hhash
  continues := by
    intro d hd
    rw [String.toList_ofList, List.mem_cons] at hd
    rcases hd with rfl | hd
    · exact continuesWord_iff.mpr ⟨by simpa using hblank, hcomma⟩
    · exact List.mem_takeWhile_imp hd

/-! ## One step of a scan -/

section Steps

variable {position : Nat} {found : List Token}

theorem scanFrom_nil : scanFrom position found [] = .ok found.reverse := by
  rw [scanFrom]

/-- A blank is passed over. -/
theorem scanFrom_blank {b : Char} (hb : isBlank b = true) (cs : List Char) :
    scanFrom position found (b :: cs) = scanFrom (position + 1) found cs := by
  have hhash : b ≠ '#' := by
    rintro rfl
    exact absurd hb (by decide)
  rw [scanFrom, if_neg hhash, if_pos hb]

/-- A word is cut off at the first character that does not continue it.  If that is a
comma, the comma is taken along. -/
theorem scanFrom_word {w : Token} (hw : IsWord w) {c : Char} (hc : continuesWord c = false)
    (rest : List Char) :
    scanFrom position found (w.toList ++ c :: rest) =
      if c = ',' then scanFrom (position + w.toList.length + 1) (comma :: w :: found) rest
      else scanFrom (position + w.toList.length) (w :: found) (c :: rest) := by
  obtain ⟨d, ds, hds, hhash, hd, hall⟩ := hw.exists_cons
  obtain ⟨hblank, hcomma⟩ := continuesWord_iff.mp hd
  have htake : (ds ++ c :: rest).takeWhile continuesWord = ds := by
    rw [List.takeWhile_append_of_pos hall, List.takeWhile_cons_of_neg (by simp [hc]),
      List.append_nil]
  have hdrop : (ds ++ c :: rest).dropWhile continuesWord = c :: rest := by
    rw [List.dropWhile_append_of_pos hall, List.dropWhile_cons_of_neg (by simp [hc])]
  have hword : String.ofList (d :: ds) = w := by rw [← hds, String.ofList_toList]
  have hposition : position + 1 + ds.length = position + (d :: ds).length := by
    rw [List.length_cons]
    omega
  rw [hds, List.cons_append, scanFrom, if_neg hhash, if_neg (by simp [hblank]), if_neg hcomma]
  simp only [htake, hdrop, hword, hposition, List.head?_cons, Option.some.injEq, List.tail_cons]

end Steps

/-! ## Stretches of a text -/

/-- The characters `cs` add the tokens `tokens` to a scan, whatever was found before
them and whatever follows. -/
def Emits (cs : List Char) (tokens : List Token) : Prop :=
  ∀ (position : Nat) (found : List Token) (rest : List Char),
    scanFrom position found (cs ++ rest) =
      scanFrom (position + cs.length) (tokens.reverse ++ found) rest

namespace Emits

theorem nil : Emits [] [] := fun _ _ _ => rfl

/-- Two stretches side by side. -/
theorem append {as bs : List Char} {ss ts : List Token} (ha : Emits as ss) (hb : Emits bs ts) :
    Emits (as ++ bs) (ss ++ ts) := by
  intro position found rest
  rw [List.append_assoc, ha, hb, List.length_append, List.reverse_append, List.append_assoc,
    Nat.add_assoc]

theorem blank {b : Char} (hb : isBlank b = true) : Emits [b] [] :=
  fun _ _ rest => scanFrom_blank hb rest

/-- A word with a blank behind it is a token. -/
theorem word_blank {w : Token} (hw : IsWord w) {b : Char} (hb : isBlank b = true) :
    Emits (w.toList ++ [b]) [w] := by
  intro position found rest
  have hne : b ≠ ',' := by
    rintro rfl
    exact absurd hb (by decide)
  rw [List.append_assoc, List.singleton_append,
    scanFrom_word hw (not_continuesWord_of_isBlank hb), if_neg hne, scanFrom_blank hb,
    List.length_append]
  rfl

/-- A word with a comma behind it is two tokens. -/
theorem word_comma {w : Token} (hw : IsWord w) : Emits (w.toList ++ [',']) [w, comma] := by
  intro position found rest
  rw [List.append_assoc, List.singleton_append, scanFrom_word hw not_continuesWord_comma,
    if_pos rfl, List.length_append]
  rfl

/-- A text of stretches, one for each element of a list. -/
theorem flatMap {α : Type} {xs : List α} {text : α → List Char} {tokens : α → List Token}
    (h : ∀ x ∈ xs, Emits (text x) (tokens x)) : Emits (xs.flatMap text) (xs.flatMap tokens) := by
  induction xs with
  | nil => exact nil
  | cons x xs ih =>
    rw [List.flatMap_cons, List.flatMap_cons]
    exact (h x List.mem_cons_self).append (ih fun y hy => h y (List.mem_cons_of_mem x hy))

/-- A text that emits some tokens is scanned to them. -/
theorem scan_eq {text : String} {tokens : List Token} (h : Emits text.toList tokens) :
    scan text = .ok tokens := by
  have hscan := h 0 [] []
  rw [List.append_nil, List.append_nil, scanFrom_nil, List.reverse_reverse] at hscan
  exact hscan

end Emits

/-! ## The tokens of a scan -/

/-- Every token is a comma or a word, and no comma stands directly behind another. -/
structure WellFormed (tokens : List Token) : Prop where
  members : ∀ t ∈ tokens, t = comma ∨ IsWord t
  separated : tokens.IsChain fun s t => s = comma → t ≠ comma

namespace WellFormed

variable {found tokens : List Token}

theorem nil : WellFormed [] where
  members := by simp
  separated := List.isChain_nil

/-- What follows some tokens is well formed if all is. -/
theorem drop (h : WellFormed tokens) (n : Nat) : WellFormed (tokens.drop n) where
  members := fun t ht => h.members t (List.mem_of_mem_drop ht)
  separated := h.separated.drop n

/-- Behind a comma stands a word. -/
theorem isWord_after_comma (h : WellFormed tokens) {k : Nat} {t : Token}
    (hcomma : tokens[k]? = some comma) (ht : tokens[k + 1]? = some t) : IsWord t := by
  obtain ⟨hk, hcomma⟩ := List.getElem?_eq_some_iff.mp hcomma
  obtain ⟨hk', ht⟩ := List.getElem?_eq_some_iff.mp ht
  have hne : tokens[k + 1] ≠ comma := List.isChain_iff_getElem.mp h.separated k hk' hcomma
  rcases h.members t (ht ▸ List.getElem_mem hk') with rfl | hword
  · exact absurd ht hne
  · exact hword

/-- A word may be added at the end. -/
theorem snoc_word (h : WellFormed tokens) {w : Token} (hw : IsWord w) :
    WellFormed (tokens ++ [w]) where
  members := by
    intro t ht
    rcases List.mem_append.mp ht with ht | ht
    · exact h.members t ht
    · rw [List.mem_singleton.mp ht]
      exact Or.inr hw
  separated := by
    refine List.isChain_append.mpr ⟨h.separated, List.isChain_singleton w, ?_⟩
    rintro s _ t ht - rfl
    cases ht
    exact not_isWord_comma hw

/-- A word may be added at the end together with the comma that closes it. -/
theorem snoc_word_comma (h : WellFormed tokens) {w : Token} (hw : IsWord w) :
    WellFormed (tokens ++ [w] ++ [comma]) where
  members := by
    intro t ht
    rcases List.mem_append.mp ht with ht | ht
    · exact (h.snoc_word hw).members t ht
    · exact Or.inl (List.mem_singleton.mp ht)
  separated := by
    refine List.isChain_append.mpr ⟨(h.snoc_word hw).separated, List.isChain_singleton comma, ?_⟩
    rintro s hs t - hcomma
    rw [List.getLast?_concat] at hs
    cases hs
    rw [hcomma] at hw
    exact absurd hw not_isWord_comma

end WellFormed

/-- One step of the scan keeps what was found well formed, and so does the whole scan. -/
theorem wellFormed_of_scanFrom {position : Nat} {found : List Token} {cs : List Char}
    {tokens : List Token} (hfound : WellFormed found.reverse)
    (h : scanFrom position found cs = .ok tokens) : WellFormed tokens := by
  fun_induction scanFrom position found cs with
  | case1 =>
    cases h
    exact hfound
  | case2 position found cs body ih => exact ih hfound h
  | case3 position found c cs hhash hblank ih => exact ih hfound h
  | case4 => cases h
  | case5 position found c cs hhash hblank hcomma body word rest hnext ih =>
    refine ih ?_ h
    rw [List.reverse_cons, List.reverse_cons]
    exact hfound.snoc_word_comma (isWord_ofList hhash hblank hcomma)
  | case6 position found c cs hhash hblank hcomma body word rest hnext ih =>
    refine ih ?_ h
    rw [List.reverse_cons]
    exact hfound.snoc_word (isWord_ofList hhash hblank hcomma)

/-- **The tokens of a text are well formed.** -/
theorem wellFormed_of_scan {text : String} {tokens : List Token} (h : scan text = .ok tokens) :
    WellFormed tokens :=
  wellFormed_of_scanFrom (show WellFormed ([] : List Token).reverse from .nil) h

/-! ## The fault of a scan -/

/-- A scan stops only at a comma that closes no word. -/
theorem failsOnly_scan (text : String) :
    Outcome.FailsOnly (fun fault : Fault => fault.kind = .lex) (scan text) := by
  have hfrom (position : Nat) (found : List Token) (cs : List Char) :
      Outcome.FailsOnly (fun fault : Fault => fault.kind = .lex)
        (scanFrom position found cs) := by
    fun_induction scanFrom position found cs with
    | case1 => exact Outcome.FailsOnly.ok _
    | case4 => exact Outcome.FailsOnly.error rfl
    | case2 _ _ _ _ ih | case3 _ _ _ _ _ _ ih => exact ih
    | case5 _ _ _ _ _ _ _ _ _ _ _ ih | case6 _ _ _ _ _ _ _ _ _ _ _ ih => exact ih
  exact hfrom 0 [] text.toList

end Token
end MipsAssembler
