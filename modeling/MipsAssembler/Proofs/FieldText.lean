import Mathlib
import MipsAssembler.Proofs.Bits.TwosComplement
import MipsAssembler.Proofs.SignedDigits
import MipsAssembler.Proofs.WordText

/-!
# Numbers as text of a fixed width

The binary text of an integer has a least width and no greatest one, and the sign of a negative
integer is counted in it.  So the text always determines the integer, but it has the width that
was asked for only if the integer fits.  For fields that all fit, the texts can be joined: the
result is as long as the widths together, and is the number in which every field has the weight
of the bits behind it (`Field.isBinary_texts`).  That is why a word may be put together as text.

In hexadecimal four binary digits make one.  `ofDigits_groups` says that the numbers of the
consecutive groups of four are the digits of the whole number in base sixteen, and
`padded_digits_ofDigits` that digits are shown as they are; together they give the hexadecimal
text of a word from its binary text, group by group.
-/

namespace MipsAssembler

namespace Bits

/-! ## Widths -/

section ToBinary

variable {x : Int} {n : Nat}

theorem length_toBinary_natCast (x n : Nat) :
    (toBinary (x : Int) n).length = max n (digits 2 x).length := by
  rw [← String.length_toList, toList_toBinary_natCast, length_padded]

/-- A number fits exactly if it does not have too many digits. -/
theorem length_digits_le_iff {x n : Nat} (hn : 1 ≤ n) :
    (digits 2 x).length ≤ n ↔ fitsUnsigned (x : Int) n = true := by
  rw [digits, Nat.length_toDigits_le_iff (by decide) hn, fitsUnsigned_iff, weight_eq]
  constructor
  · intro h
    exact ⟨Int.natCast_nonneg x, by exact_mod_cast h⟩
  · rintro ⟨-, h⟩
    exact_mod_cast h

/-- Binary text has the width that was asked for if the integer fits, and is longer if not. -/
theorem length_toBinary_iff (hx : 0 ≤ x) (hn : 1 ≤ n) :
    ((toBinary x n).length = n ↔ fitsUnsignedAt x n = .ok true) ∧
      (n < (toBinary x n).length ↔ fitsUnsignedAt x n = .ok false) := by
  obtain ⟨m, rfl⟩ := Int.eq_ofNat_of_zero_le hx
  have hfits := length_digits_le_iff (x := m) hn
  have hok : fitsUnsignedAt (m : Int) n = .ok (fitsUnsigned (m : Int) n) :=
    (ok_of_width_pos hn (m : Int)).2.2.2
  show ((toBinary (m : Int) n).length = n ↔ fitsUnsignedAt (m : Int) n = .ok true) ∧
    (n < (toBinary (m : Int) n).length ↔ fitsUnsignedAt (m : Int) n = .ok false)
  rw [hok, length_toBinary_natCast, Except.ok.injEq, Except.ok.injEq, ← Bool.not_eq_true, ← hfits]
  constructor
  · exact max_eq_left_iff
  · rw [lt_max_iff, not_le, or_iff_right (lt_irrefl n)]

end ToBinary

/-! ## Fields -/

/-- A number that fits a positive number of bits, and how many. -/
structure Field where
  value : Int
  width : Nat
  width_pos : 1 ≤ width
  fits : fitsUnsigned value width = true

/-- Two binary texts in a row: the first has the weight of all digits of the second. -/
theorem IsBinary.append {m n a b : Nat} {s t : String} (hs : IsBinary m a s)
    (ht : IsBinary n b t) : IsBinary (m + n) (a * 2 ^ n + b) (s ++ t) where
  length_eq := by rw [String.length_append, hs.length_eq, ht.length_eq]
  allBinary := by
    intro c hc
    rw [String.toList_append, List.mem_append] at hc
    exact hc.elim (hs.allBinary c) (ht.allBinary c)
  value_eq := by
    rw [String.toList_append, Nat.ofDigitChars_append, hs.value_eq, ofDigitChars_eq_add,
      ht.value_eq, String.length_toList, ht.length_eq, Nat.mul_comm]

namespace Field

/-- A natural number that fits, as a field. -/
def ofNat (v k : Nat) (hk : 1 ≤ k) (hv : v < 2 ^ k) : Field where
  value := v
  width := k
  width_pos := hk
  fits := fitsUnsigned_iff.mpr ⟨Int.natCast_nonneg v, by rw [weight_eq]; exact_mod_cast hv⟩

@[simp] theorem value_ofNat {v k : Nat} {hk : 1 ≤ k} {hv : v < 2 ^ k} :
    (ofNat v k hk hv).value = v := rfl

@[simp] theorem width_ofNat {v k : Nat} {hk : 1 ≤ k} {hv : v < 2 ^ k} :
    (ofNat v k hk hv).width = k := rfl

/-- The field in binary digits. -/
def text (f : Field) : String := toBinary f.value f.width

/-- Fields that are joined, the first one in front. -/
def texts (fields : List Field) : String := String.join (fields.map text)

/-- The number of bits of all fields. -/
def bits (fields : List Field) : Nat := (fields.map width).sum

/-- The fields as one number: each has the weight of the bits behind it. -/
def total (fields : List Field) : Int :=
  ∑ i : Fin fields.length, fields[i].value * 2 ^ bits (fields.drop (i + 1))

@[simp] theorem bits_nil : bits [] = 0 := rfl

@[simp] theorem total_nil : total [] = 0 := rfl

theorem bits_cons (f : Field) (fields : List Field) :
    bits (f :: fields) = f.width + bits fields := by
  simp [bits]

theorem texts_cons (f : Field) (fields : List Field) :
    texts (f :: fields) = f.text ++ texts fields := by
  rw [texts, List.map_cons, String.join_cons]
  rfl

theorem total_cons (f : Field) (fields : List Field) :
    total (f :: fields) = f.value * 2 ^ bits fields + total fields := by
  show ∑ i : Fin (fields.length + 1), _ = _
  rw [Fin.sum_univ_succ]
  rfl

/-- A field is as wide as it says, because it fits. -/
theorem isBinary_text (f : Field) :
    ∃ m : Nat, (m : Int) = f.value ∧ IsBinary f.width m f.text := by
  obtain ⟨hnonneg, hlt⟩ := fitsUnsigned_iff.mp f.fits
  obtain ⟨m, hm⟩ := Int.eq_ofNat_of_zero_le hnonneg
  refine ⟨m, hm.symm, ?_⟩
  rw [hm, weight_eq] at hlt
  rw [text, hm]
  exact isBinary_toBinary f.width_pos (by exact_mod_cast hlt)

/-- **Fields are packed by joining their texts.** -/
theorem isBinary_texts (fields : List Field) :
    ∃ m : Nat, (m : Int) = total fields ∧ IsBinary (bits fields) m (texts fields) := by
  induction fields with
  | nil => exact ⟨0, rfl, rfl, fun c hc => absurd hc List.not_mem_nil, rfl⟩
  | cons f fields ih =>
    obtain ⟨a, ha, hf⟩ := f.isBinary_text
    obtain ⟨b, hb, hfields⟩ := ih
    refine ⟨a * 2 ^ bits fields + b, ?_, ?_⟩
    · rw [total_cons, ← ha, ← hb]
      push_cast
      rfl
    · rw [bits_cons, texts_cons]
      exact hf.append hfields

end Field

/-! ## Groups of four -/

/-- The number of the group of four digits with a given index. -/
def group (cs : List Char) (i : Nat) : Nat := Nat.ofDigitChars 2 ((cs.drop (4 * i)).take 4) 0

section Groups

variable {cs : List Char}

theorem ofDigitChars_lt_of_allBinary (h : BinaryNumeral.AllBinary cs) :
    Nat.ofDigitChars 2 cs 0 < 2 ^ cs.length := by
  refine ofDigitChars_lt fun c hc => ?_
  rcases h c hc with rfl | rfl <;> decide

theorem group_lt (h : BinaryNumeral.AllBinary cs) (i : Nat) : group cs i < 16 := by
  have hbinary : BinaryNumeral.AllBinary ((cs.drop (4 * i)).take 4) :=
    fun c hc => h c (List.mem_of_mem_drop (List.mem_of_mem_take hc))
  calc group cs i < 2 ^ ((cs.drop (4 * i)).take 4).length := ofDigitChars_lt_of_allBinary hbinary
    _ ≤ 2 ^ 4 := Nat.pow_le_pow_right (by decide) (List.length_take_le 4 _)

theorem group_succ (cs : List Char) (i : Nat) : group cs (i + 1) = group (cs.drop 4) i := by
  rw [group, group, List.drop_drop]
  congr 4
  omega

/-- The groups of four are the digits in base sixteen. -/
theorem ofDigits_groups (k : Nat) (hlength : cs.length = 4 * k) :
    Nat.ofDigits 16 ((List.range k).map (group cs)).reverse = Nat.ofDigitChars 2 cs 0 := by
  induction k generalizing cs with
  | zero =>
    rw [List.eq_nil_of_length_eq_zero hlength]
    rfl
  | succ k ih =>
    have hrest : (cs.drop 4).length = 4 * k := by
      rw [List.length_drop]
      omega
    have hgroups : (List.range (k + 1)).map (group cs) =
        group cs 0 :: (List.range k).map (group (cs.drop 4)) := by
      rw [List.range_succ_eq_map, List.map_cons, List.map_map]
      congr 1
      exact List.map_congr_left fun i _ => group_succ cs i
    have hfirst : group cs 0 = Nat.ofDigitChars 2 (cs.take 4) 0 := rfl
    rw [hgroups, Nat.ofDigits_reverse_cons, ih hrest, List.length_map, List.length_range, hfirst]
    conv_rhs => rw [← List.take_append_drop 4 cs, Nat.ofDigitChars_append, ofDigitChars_eq_add,
      hrest, pow_mul]
    exact Nat.add_comm _ _

end Groups

/-- The digits of a number that is given by its digits, least significant first, are these
digits. -/
theorem padded_digits_ofDigits {b : Nat} (hb : 1 < b) {l : List Nat} (hne : l ≠ [])
    (hl : ∀ d ∈ l, d < b) :
    padded l.length (digits b (Nat.ofDigits b l)) = (l.map Nat.digitChar).reverse := by
  induction l with
  | nil => exact absurd rfl hne
  | cons d l ih =>
    have hd : d < b := hl d List.mem_cons_self
    by_cases hnil : l = []
    · subst hnil
      rw [Nat.ofDigits_singleton, digits, Nat.toDigits_of_lt_base hd]
      rfl
    · have hdiv : (d + b * Nat.ofDigits b l) / b = Nat.ofDigits b l := by
        rw [Nat.add_mul_div_left d _ (by omega), Nat.div_eq_of_lt hd, Nat.zero_add]
      have hmod : (d + b * Nat.ofDigits b l) % b = d := by
        rw [Nat.add_mul_mod_self_left, Nat.mod_eq_of_lt hd]
      rw [Nat.ofDigits_cons, List.length_cons,
        padded_digits_succ hb (List.length_pos_of_ne_nil hnil), hdiv, hmod,
        ih hnil fun e he => hl e (List.mem_cons_of_mem d he), List.map_cons, List.reverse_cons]

/-- Digits are shown by the number that they stand for. -/
theorem padded_digits_row {b : Nat} (hb : 1 < b) {ds : List (Fin b)} (hne : ds ≠ []) :
    padded ds.length (digits b (Nat.ofDigits b (ds.reverse.map Fin.val))) =
      SignedDigits.row ds := by
  have hpadded := padded_digits_ofDigits hb (l := ds.reverse.map Fin.val) (by simpa using hne)
    (by simp)
  rw [List.length_map, List.length_reverse] at hpadded
  rw [hpadded, List.map_reverse, List.map_reverse, List.reverse_reverse, List.map_map]
  rfl

end Bits

/-! ## Words as text in both bases -/

namespace Listing

/-- A text of 32 binary digits. -/
def IsWordText (text : String) : Prop := text.length = 32 ∧ BinaryNumeral.AllBinary text.toList

/-- A text of eight lower-case hexadecimal digits. -/
def IsHexText (text : String) : Prop := text.length = 8 ∧ ∀ c ∈ text.toList, c ∈ hexDigits

section WordText

variable {word text : String}

theorem getElem?_hexDigits : ∀ d < 16, hexDigits[d]? = some d.digitChar := by
  decide

theorem digitChar_mem_hexDigits {d : Nat} (h : d < 16) : d.digitChar ∈ hexDigits :=
  List.mem_of_getElem? (getElem?_hexDigits d h)

theorem exists_digitChar_of_mem_hexDigits {c : Char} (h : c ∈ hexDigits) :
    ∃ d < 16, d.digitChar = c := by
  obtain ⟨d, hd⟩ := List.mem_iff_getElem?.mp h
  have hlt : d < 16 := (List.getElem?_eq_some_iff.mp hd).1
  rw [getElem?_hexDigits d hlt] at hd
  exact ⟨d, hlt, Option.some.inj hd⟩

theorem IsWordText.ofDigitChars_lt (h : IsWordText word) :
    Nat.ofDigitChars 2 word.toList 0 < 2 ^ 32 := by
  have hlt := Bits.ofDigitChars_lt_of_allBinary h.2
  rwa [String.length_toList, h.1] at hlt

/-- The hexadecimal line for a text of 32 binary digits is that of the number they spell. -/
theorem hexOfText_eq_of_isWordText (h : IsWordText word) :
    hexOfText word =
      .ok (String.ofList (Bits.padded 8 (Bits.digits 16 (Nat.ofDigitChars 2 word.toList 0)))) := by
  have hne : word.toList ≠ [] := by
    intro hnil
    have hlength := h.1
    rw [← String.length_toList, hnil] at hlength
    exact absurd hlength (by decide)
  rw [hexOfText, BinaryNumeral.value?_of_allBinary h.2 hne]
  show Except.ok (Bits.hex32 _) = _
  rw [Bits.hex32, Bits.low32_natCast h.ofDigitChars_lt]

/-- The hexadecimal digits of a word are the numbers of its groups of four binary digits. -/
theorem hexOfText_groups (h : IsWordText word) :
    hexOfText word =
      .ok (String.ofList ((List.range 8).map fun i => (Bits.group word.toList i).digitChar)) := by
  have hlength : word.toList.length = 4 * 8 := by rw [String.length_toList, h.1]
  have hgroups := Bits.ofDigits_groups 8 hlength
  have hdigits : ∀ d ∈ ((List.range 8).map (Bits.group word.toList)).reverse, d < 16 := by
    intro d hd
    obtain ⟨i, -, rfl⟩ := List.mem_map.mp (List.mem_reverse.mp hd)
    exact Bits.group_lt h.2 i
  have hpadded := Bits.padded_digits_ofDigits (by decide) (by simp) hdigits
  rw [hgroups, List.map_reverse, List.reverse_reverse, List.map_map] at hpadded
  rw [hexOfText_eq_of_isWordText h]
  exact congrArg (Except.ok ∘ String.ofList) hpadded

theorem isHexText_groups (h : IsWordText word) :
    IsHexText
      (String.ofList ((List.range 8).map fun i => (Bits.group word.toList i).digitChar)) := by
  constructor
  · rw [← String.length_toList, String.toList_ofList, List.length_map, List.length_range]
  · intro c hc
    rw [String.toList_ofList] at hc
    obtain ⟨i, -, rfl⟩ := List.mem_map.mp hc
    exact digitChar_mem_hexDigits (Bits.group_lt h.2 i)

/-- Words with the same hexadecimal text are the same text. -/
theorem eq_of_hexOfText_eq {word' : String} (h : IsWordText word) (h' : IsWordText word')
    (heq : hexOfText word = hexOfText word') : word = word' := by
  have hlt : Nat.ofDigitChars 2 word.toList 0 < 16 ^ 8 := h.ofDigitChars_lt
  have hlt' : Nat.ofDigitChars 2 word'.toList 0 < 16 ^ 8 := h'.ofDigitChars_lt
  rw [hexOfText_eq_of_isWordText h, hexOfText_eq_of_isWordText h'] at heq
  have htext := congrArg String.toList (Except.ok.inj heq)
  rw [String.toList_ofList, String.toList_ofList] at htext
  have hvalue := Bits.padded_digits_inj (by decide) (by decide) (by decide) hlt hlt' htext
  have hbinary : Bits.IsBinary 32 (Nat.ofDigitChars 2 word.toList 0) word := ⟨h.1, h.2, rfl⟩
  have hbinary' : Bits.IsBinary 32 (Nat.ofDigitChars 2 word.toList 0) word' :=
    ⟨h'.1, h'.2, hvalue.symm⟩
  exact hbinary.unique hbinary'

/-- A text of eight hexadecimal digits is a row of eight digits, which stand for a number of 32
bits. -/
theorem IsHexText.exists_row (h : IsHexText text) :
    ∃ ds : List (Fin 16), ds.length = 8 ∧ SignedDigits.row ds = text.toList ∧
      Nat.ofDigits 16 (ds.reverse.map Fin.val) < 2 ^ 32 := by
  obtain ⟨ds, hds⟩ : ∃ ds : List (Fin 16), SignedDigits.row ds = text.toList := by
    refine SignedDigits.exists_row_eq fun c hc => ?_
    obtain ⟨d, hd, rfl⟩ := exists_digitChar_of_mem_hexDigits (h.2 c hc)
    exact ⟨⟨d, hd⟩, rfl⟩
  have hlength : ds.length = 8 := by
    rw [← SignedDigits.length_row, hds, String.length_toList, h.1]
  have hlt := Nat.ofDigits_lt_base_pow_length (b := 16) (l := ds.reverse.map Fin.val) (by decide)
    (by simp)
  rw [List.length_map, List.length_reverse, hlength] at hlt
  exact ⟨ds, hlength, hds, hlt⟩

/-- Every text of eight hexadecimal digits is that of a word. -/
theorem exists_word_of_isHexText (h : IsHexText text) :
    ∃ word, IsWordText word ∧ hexOfText word = .ok text := by
  obtain ⟨ds, hlength, hds, hlt⟩ := h.exists_row
  -- the word is the number of the digits in binary
  have hword : Bits.IsBinary 32 _ _ := Bits.isBinary_toBinary (by decide) hlt
  refine ⟨_, ⟨hword.length_eq, hword.allBinary⟩, ?_⟩
  have hpadded := Bits.padded_digits_row (by decide) (List.ne_nil_of_length_eq_add_one hlength)
  rw [hlength, hds] at hpadded
  rw [hexOfText_eq_of_isWordText ⟨hword.length_eq, hword.allBinary⟩, hword.value_eq, hpadded,
    String.ofList_toList]

/-- The hexadecimal texts of words as a function on texts, which is a bijection. -/
theorem exists_bijective_hexOfText :
    ∃ f : {word // IsWordText word} → {text // IsHexText text},
      (∀ word, hexOfText word.val = .ok (f word).val) ∧ Function.Bijective f := by
  refine ⟨fun word => ⟨_, isHexText_groups word.property⟩,
    fun word => hexOfText_groups word.property, fun word word' heq => ?_, fun text => ?_⟩
  · refine Subtype.ext (eq_of_hexOfText_eq word.property word'.property ?_)
    rw [hexOfText_groups word.property, hexOfText_groups word'.property]
    exact congrArg Except.ok (congrArg Subtype.val heq)
  · obtain ⟨word, hword, htext⟩ := exists_word_of_isHexText text.property
    refine ⟨⟨word, hword⟩, Subtype.ext ?_⟩
    exact Except.ok.inj ((hexOfText_groups hword).symm.trans htext)

end WordText

end Listing

namespace Bits

/-- **Text of a fixed width loses nothing, and packs.**  The binary text of an integer is a
numeral for it and is read back, at any width, also in hexadecimal.  Where the integer is not
negative and the width is positive, the text has that width exactly if the integer fits, and
otherwise more.  The texts of fields that fit, one behind the other, have all their bits together,
and are the number in which every field has the weight of the bits behind it.  The hexadecimal text
of 32 binary digits has the numbers of their groups of four as its digits, and this is a bijection
onto the texts of eight hexadecimal digits. -/
theorem fixed_width_text :
    (∀ (x : Int) (n : Nat), toBinaryAt x n = .ok (toBinary x n) ∧
      (∃ w : SignedDigits 2, toBinary x n = w.text ∧ w.value = x) ∧
      BinaryNumeral.value? (toBinary x n) = some x ∧
      Listing.hexOfText (toBinary x n) = .ok (hex32 x)) ∧
    (∀ (x : Int) (n : Nat), 0 ≤ x → 1 ≤ n →
      ((toBinary x n).length = n ↔ fitsUnsignedAt x n = .ok true) ∧
      (n < (toBinary x n).length ↔ fitsUnsignedAt x n = .ok false)) ∧
    (∀ fields : List Field, (Field.texts fields).length = (fields.map Field.width).sum ∧
      BinaryNumeral.AllBinary (Field.texts fields).toList ∧
      (Nat.ofDigitChars 2 (Field.texts fields).toList 0 : Int) =
        ∑ i : Fin fields.length,
          fields[i].value * 2 ^ ((fields.drop (i + 1)).map Field.width).sum) ∧
    (∀ word, Listing.IsWordText word →
      ∃ text, Listing.hexOfText word = .ok text ∧ text.length = 8 ∧
        ∀ i < 8, text.toList[i]? =
          hexDigits[Nat.ofDigitChars 2 ((word.toList.drop (4 * i)).take 4) 0]?) ∧
    ∃ f : {word // Listing.IsWordText word} → {text // Listing.IsHexText text},
      (∀ word, Listing.hexOfText word.val = .ok (f word).val) ∧ Function.Bijective f := by
  refine ⟨fun x n => ⟨if_neg (by omega), exists_signedDigits_toBinary x n, value?_toBinary x n,
    hexOfText_toBinary_int x n⟩, fun x n => length_toBinary_iff, fun fields => ?_,
    fun word hword => ?_, Listing.exists_bijective_hexOfText⟩
  · obtain ⟨m, hm, hbinary⟩ := Field.isBinary_texts fields
    refine ⟨hbinary.length_eq, hbinary.allBinary, ?_⟩
    rw [hbinary.value_eq, hm]
    rfl
  · refine ⟨_, Listing.hexOfText_groups hword, (Listing.isHexText_groups hword).1, fun i hi => ?_⟩
    show _ = hexDigits[group word.toList i]?
    rw [String.toList_ofList, List.getElem?_map, List.getElem?_range hi,
      Listing.getElem?_hexDigits _ (group_lt hword.2 i)]
    rfl

end Bits
end MipsAssembler
