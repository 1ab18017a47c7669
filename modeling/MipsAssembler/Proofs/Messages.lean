import Mathlib
import MipsAssembler.Trace
import MipsAssembler.Proofs.Literals

/-!
# What messages tell

A fault is shown as a sentence around what it quotes, and an event of a trace as a sentence
around its counts.  This file says that the sentences lose nothing: a message tells which
rule was broken and what text was quoted (`Fault.message_eq_iff`), which is all that a fault
carries (`Fault.eq_of_quoted?_eq`), and a line of a trace tells the event
(`Trace.Event.message_injective`).

For faults the argument is that the first part of a sentence is never the beginning of the
first part of another one.  Two messages that are equal have both first parts at their
beginning, so one of these is the beginning of the other, and they are the same.  For events
the first character decides, and the counts end at the first character that no numeral has.

The other question about faults is which of them can be shown at all (`Fault.RaisedAs`).
-/

namespace MipsAssembler

/-! ## Numerals in texts -/

namespace Literal

theorem natAbs_lt_pow_iff (n : Int) (b k : Nat) : n.natAbs < b ^ k ↔ |n| < (b : Int) ^ k := by
  rw [← Int.natCast_natAbs]
  exact_mod_cast Iff.rfl

theorem isWritable_iff {n : Int} : isWritable n = true ↔ |n| < 10 ^ 4300 := by
  rw [isWritable, decide_eq_true_iff, Nat.pow_eq, natAbs_lt_pow_iff, maxDigits, Nat.cast_ofNat]

/-- An integer can be shown exactly when its numeral is not too long. -/
theorem isWritable_iff_writable {n : Int} : isWritable n = true ↔ Writable n := by
  rw [isWritable, decide_eq_true_iff, Nat.pow_eq, Writable,
    Nat.length_toDigits_le_iff (by decide) (by decide)]

end Literal

/-- Two rows are cut at the first place of a value. -/
theorem append_cons_inj_of_notMem_left {α : Type} {a : α} {xs ys zs ws : List α} (hxs : a ∉ xs)
    (hys : a ∉ ys) (h : xs ++ a :: zs = ys ++ a :: ws) : xs = ys ∧ zs = ws := by
  induction xs generalizing ys with
  | nil =>
    cases ys with
    | nil => exact ⟨rfl, (List.cons.inj h).2⟩
    | cons y ys => exact absurd (List.mem_cons.mpr (Or.inl (List.cons.inj h).1)) hys
  | cons x xs ih =>
    cases ys with
    | nil => exact absurd (List.mem_cons.mpr (Or.inl (List.cons.inj h).1.symm)) hxs
    | cons y ys =>
      obtain ⟨rfl, htail⟩ := List.cons.inj h
      obtain ⟨rfl, rfl⟩ :=
        ih (List.not_mem_of_not_mem_cons hxs) (List.not_mem_of_not_mem_cons hys) htail
      exact ⟨rfl, rfl⟩

theorem blank_notMem_toString (n : Int) : ' ' ∉ (toString n).toList :=
  Literal.notMem_toString (by decide) (by decide)

/-- A numeral ends at the first blank. -/
theorem toString_append_blank_inj {m n : Int} {zs ws : List Char}
    (h : (toString m).toList ++ ' ' :: zs = (toString n).toList ++ ' ' :: ws) :
    m = n ∧ zs = ws := by
  obtain ⟨hnumeral, hrest⟩ :=
    append_cons_inj_of_notMem_left (blank_notMem_toString m) (blank_notMem_toString n) h
  exact ⟨Int.repr_injective (String.toList_inj.mp hnumeral), hrest⟩

/-- A numeral at the end begins behind the last blank. -/
theorem append_toString_inj {m n : Int} {xs ys : List Char}
    (h : xs ++ ' ' :: (toString m).toList = ys ++ ' ' :: (toString n).toList) :
    xs = ys ∧ m = n := by
  have hblank (k : Int) : ' ' ∉ (toString k).toList.reverse := by
    rw [List.mem_reverse]
    exact blank_notMem_toString k
  have hreverse := congrArg List.reverse h
  simp only [List.reverse_append, List.reverse_cons, List.append_assoc, List.singleton_append]
    at hreverse
  obtain ⟨hnumeral, hrest⟩ := append_cons_inj_of_notMem_left (hblank m) (hblank n) hreverse
  rw [List.reverse_inj] at hnumeral hrest
  exact ⟨hrest, Int.repr_injective (String.toList_inj.mp hnumeral)⟩

/-! ## Faults -/

namespace Fault

variable {fault fault' : Fault}

/-- What is raised for a fault: the fault, or, if it quotes an integer of more than 4300
digits, that there is a number which cannot be shown. -/
inductive RaisedAs : Fault → Fault → Prop
  | shown {fault : Fault} (h : ∀ v, fault.quoted? = some (.number v) → |v| < 10 ^ 4300) :
      RaisedAs fault fault
  | unshowable {fault : Fault} {v : Int} (h : fault.quoted? = some (.number v))
      (hv : 10 ^ 4300 ≤ |v|) : RaisedAs fault .unshowableNumber

theorem raised_of_quoted?_number {v : Int} (h : fault.quoted? = some (.number v)) :
    fault.raised = if |v| < 10 ^ 4300 then fault else .unshowableNumber := by
  rw [raised, h]
  exact if_congr Literal.isWritable_iff rfl rfl

theorem raised_of_quoted?_ne_number (h : ∀ v, fault.quoted? ≠ some (.number v)) :
    fault.raised = fault := by
  unfold raised
  split
  next operand hquoted =>
    cases operand with
    | number v => exact absurd hquoted (h v)
    | _ => rfl
  next => rfl

theorem raised_eq_iff : fault.raised = fault' ↔ fault.RaisedAs fault' := by
  by_cases hnumber : ∃ v, fault.quoted? = some (.number v)
  · obtain ⟨v, hv⟩ := hnumber
    rw [raised_of_quoted?_number hv]
    by_cases hshown : |v| < 10 ^ 4300
    · rw [if_pos hshown]
      constructor
      · rintro rfl
        refine .shown fun w hw => ?_
        cases hv.symm.trans hw
        exact hshown
      · intro h
        cases h with
        | shown _ => rfl
        | unshowable hw hlarge =>
          cases hv.symm.trans hw
          exact absurd hshown (not_lt.mpr hlarge)
    · rw [if_neg hshown]
      constructor
      · rintro rfl
        exact .unshowable hv (not_lt.mp hshown)
      · intro h
        cases h with
        | shown h => exact absurd (h v hv) hshown
        | unshowable _ _ => rfl
  · rw [not_exists] at hnumber
    rw [raised_of_quoted?_ne_number hnumber]
    constructor
    · rintro rfl
      exact .shown fun v hv => absurd hv (hnumber v)
    · intro h
      cases h with
      | shown _ => rfl
      | unshowable hv _ => exact absurd hv (hnumber _)

theorem raising_eq_ok_iff {α : Type} {result : Except Fault α} {a : α} :
    raising result = .ok a ↔ result = .ok a := by
  cases result with
  | ok b => rfl
  | error cause =>
    constructor <;>
    · intro h
      cases h

theorem raising_eq_error_iff {α : Type} {result : Except Fault α} :
    raising result = .error fault ↔ ∃ cause, result = .error cause ∧ cause.RaisedAs fault := by
  cases result with
  | ok b =>
    constructor
    · intro h
      cases h
    · rintro ⟨cause, h, -⟩
      cases h
  | error cause =>
    rw [show raising (.error cause : Except Fault α) = .error cause.raised from rfl,
      Except.error.injEq, raised_eq_iff]
    constructor
    · exact fun h => ⟨cause, rfl, h⟩
    · rintro ⟨cause', h, hraised⟩
      cases h
      exact hraised

theorem raising_map {α β : Type} (f : α → β) (result : Except Fault α) :
    raising (f <$> result) = f <$> raising result := by
  cases result <;> rfl

/-! ### Sentences -/

/-- One fault for each rule, in the order of the rules. -/
def samples : List Fault :=
  [emptyToken 0, expectedNumeral "", numeralTooLong 0, expectedRegister "", noSuchRegister "",
    expectedLabel, labelStartsWithDigit "", labelContainsColon "", expectedAccess "",
    expectedComma "", unknownInstruction "", duplicateLabel "", undeclaredLabel (.name ""),
    negativeData 0, dataTooLarge 0, immediateOutOfRange 0, targetOutOfRange 0, unplacedLabel "",
    unknownDirective "", unknownOperation "", invalidRegister (.name ""),
    unresolvedImmediate (.name ""), unresolvedTarget (.name ""), foreignItem "", missingOperand,
    incomparableData "", unhashableReference "", unshowableNumber]

theorem exists_sample (fault : Fault) :
    ∃ sample, samples[fault.ctorIdx]? = some sample ∧ sample.ctorIdx = fault.ctorIdx ∧
      sample.wording = fault.wording := by
  cases fault <;> exact ⟨_, rfl, rfl, rfl⟩

/-- The sentence depends on the rule alone. -/
theorem wording_eq_of_ctorIdx_eq (h : fault.ctorIdx = fault'.ctorIdx) :
    fault.wording = fault'.wording := by
  obtain ⟨sample, hsample, -, hwording⟩ := exists_sample fault
  obtain ⟨sample', hsample', -, hwording'⟩ := exists_sample fault'
  rw [h, hsample', Option.some.injEq] at hsample
  rw [← hwording, ← hwording', hsample]

/-- The bytes of the first part of the sentence.  A text is kept as its bytes, so these can be
compared without decoding them. -/
def firstBytes (fault : Fault) : List UInt8 := fault.wording.1.toByteArray.data.toList

theorem ctorIdx_eq_of_sample_beginning :
    ∀ sample ∈ samples, ∀ sample' ∈ samples,
      sample.firstBytes <+: sample'.firstBytes → sample.ctorIdx = sample'.ctorIdx := by
  decide +kernel

/-- No sentence begins as another one does. -/
theorem ctorIdx_eq_of_beginning (h : fault.firstBytes <+: fault'.firstBytes) :
    fault.ctorIdx = fault'.ctorIdx := by
  obtain ⟨sample, hsample, hrule, hwording⟩ := exists_sample fault
  obtain ⟨sample', hsample', hrule', hwording'⟩ := exists_sample fault'
  rw [firstBytes, firstBytes, ← hwording, ← hwording'] at h
  rw [← hrule, ← hrule']
  exact ctorIdx_eq_of_sample_beginning _ (List.mem_of_getElem? hsample) _
    (List.mem_of_getElem? hsample') h

theorem firstBytes_prefix_message (fault : Fault) :
    fault.firstBytes <+: fault.message.toByteArray.data.toList := by
  rw [message, String.append_assoc, String.toByteArray_append, ByteArray.data_append,
    Array.toList_append]
  exact List.prefix_append _ _

theorem ctorIdx_eq_of_message_eq (h : fault.message = fault'.message) :
    fault.ctorIdx = fault'.ctorIdx := by
  have hfirst := fault.firstBytes_prefix_message
  have hfirst' := fault'.firstBytes_prefix_message
  rw [← h] at hfirst'
  rcases List.prefix_or_prefix_of_prefix hfirst hfirst' with hbegins | hbegins
  · exact ctorIdx_eq_of_beginning hbegins
  · exact (ctorIdx_eq_of_beginning hbegins).symm

/-- **A message tells the rule that was broken and the text that was quoted.** -/
theorem message_eq_iff :
    fault.message = fault'.message ↔
      fault.ctorIdx = fault'.ctorIdx ∧ fault.quotedText = fault'.quotedText := by
  constructor
  · intro h
    have hrule := ctorIdx_eq_of_message_eq h
    refine ⟨hrule, ?_⟩
    rw [message, message, wording_eq_of_ctorIdx_eq hrule, String.append_left_inj,
      String.append_right_inj] at h
    exact h
  · rintro ⟨hrule, hquoted⟩
    rw [message, message, wording_eq_of_ctorIdx_eq hrule, hquoted]

/-- A fault is the rule that was broken and what it quotes, so nothing that it carries is
left out of its message. -/
theorem eq_of_quoted?_eq (hrule : fault.ctorIdx = fault'.ctorIdx)
    (hquoted : fault.quoted? = fault'.quoted?) : fault = fault' := by
  cases fault <;> cases fault' <;> cases hrule <;>
    first
    | rfl
    | cases hquoted; rfl

/-- The fault can be read off its message where what it quotes can be read off the text. -/
theorem message_eq_iff_of_quotedText
    (h : fault.quotedText = fault'.quotedText → fault.quoted? = fault'.quoted?) :
    fault.message = fault'.message ↔ fault = fault' := by
  constructor
  · intro hmessage
    obtain ⟨hrule, htext⟩ := message_eq_iff.mp hmessage
    exact eq_of_quoted?_eq hrule (h htext)
  · rintro rfl
    rfl

/-- This is so where a number or a position is quoted. -/
theorem message_eq_iff_of_numbers {m n : Int} (hm : fault.quoted? = some (.number m))
    (hn : fault'.quoted? = some (.number n)) :
    fault.message = fault'.message ↔ fault = fault' := by
  refine message_eq_iff_of_quotedText fun htext => ?_
  rw [quotedText, quotedText, hm, hn] at htext
  rw [hm, hn, Int.repr_injective htext]

/-- It is so too where a name or a token is quoted. -/
theorem message_eq_iff_of_names {s t : String} (hs : fault.quoted? = some (.name s))
    (ht : fault'.quoted? = some (.name t)) :
    fault.message = fault'.message ↔ fault = fault' := by
  refine message_eq_iff_of_quotedText fun htext => ?_
  rw [quotedText, quotedText, hs, ht] at htext
  rw [hs, ht, show s = t from htext]

end Fault

/-! ## Events -/

namespace Trace
namespace Event

/-! The lines by their characters.  Each numeral stands before a blank or at the end. -/

theorem repr_natCast (n : Nat) : (n : Int).repr = n.repr := rfl

theorem toList_message_scanned (tokens : Nat) :
    (scanned tokens).message.toList =
      "tokenize: ".toList ++ ((toString (tokens : Int)).toList ++ ' ' :: "tokens".toList) := by
  show ("tokenize: " ++ toString tokens ++ " tokens").toList = _
  simp [repr_natCast]

theorem toList_message_parsed (statements : Nat) :
    (parsed statements).message.toList =
      "parse: ".toList ++ ((toString (statements : Int)).toList ++ ' ' :: "símbolos".toList) := by
  show ("parse: " ++ toString statements ++ " símbolos").toList = _
  simp [repr_natCast]

theorem toList_message_placed (label : String) (slot : Int) :
    (placed label slot).message.toList =
      "etiqueta ".toList ++
        ((label.toList ++ " -> pc".toList) ++ ' ' :: (toString slot).toList) := by
  show ("etiqueta " ++ label ++ " -> pc " ++ toString slot).toList = _
  simp

theorem toList_message_branched (slot : Nat) (distance : Int) :
    (branched slot distance).message.toList =
      "beq en pc ".toList ++ ((toString (slot : Int)).toList ++
        ' ' :: ("-> offset".toList ++ ' ' :: (toString distance).toList)) := by
  show ("beq en pc " ++ toString slot ++ " -> offset " ++ toString distance).toList = _
  simp [repr_natCast]

theorem toList_message_assembled (tokens statements words : Nat) :
    (assembled tokens statements words).message.toList =
      "assemble: ".toList ++ ((toString (tokens : Int)).toList ++
        ' ' :: ("tokens, ".toList ++ ((toString (statements : Int)).toList ++
          ' ' :: ("símbolos, ".toList ++ ((toString (words : Int)).toList ++
            ' ' :: "palabras".toList))))) := by
  show ("assemble: " ++ toString tokens ++ " tokens, " ++ toString statements ++ " símbolos, " ++
    toString words ++ " palabras").toList = _
  simp [repr_natCast]

theorem toList_message_written (words : Nat) (path : String) :
    (written words path).message.toList =
      (toString (words : Int)).toList ++ ' ' :: ("palabras -> ".toList ++ path.toList) := by
  show (toString words ++ " palabras -> " ++ path).toList = _
  simp [repr_natCast]

/-- The letter with which a line begins, if it begins with a letter. -/
def opening? : Event → Option Char
  | scanned _ => some 't'
  | parsed _ => some 'p'
  | placed .. => some 'e'
  | branched .. => some 'b'
  | assembled .. => some 'a'
  | written .. => none

theorem head?_message (event : Event) :
    event.message.toList.head?.filter (fun c => !Literal.isDigit c) = event.opening? := by
  cases event with
  | written words path =>
    obtain ⟨c, cs, hcs⟩ := List.exists_cons_of_ne_nil (Nat.toDigits_ne_nil (n := words) (b := 10))
    have hdigit : Literal.isDigit c = true :=
      Literal.isDigit_of_mem_toDigits (n := words) (by simp [hcs])
    simp [toList_message_written, repr_natCast, hcs, hdigit, opening?]
  | scanned tokens => simp [toList_message_scanned, opening?, Literal.isDigit]
  | parsed statements => simp [toList_message_parsed, opening?, Literal.isDigit]
  | placed label slot => simp [toList_message_placed, opening?, Literal.isDigit]
  | branched slot distance => simp [toList_message_branched, opening?, Literal.isDigit]
  | assembled tokens statements words =>
    simp [toList_message_assembled, opening?, Literal.isDigit]

theorem ctorIdx_eq_of_message_eq {event event' : Event} (h : event.message = event'.message) :
    event.ctorIdx = event'.ctorIdx := by
  have hopening : event.opening? = event'.opening? := by
    rw [← head?_message, ← head?_message, h]
  cases event <;> cases event' <;> first | rfl | simp [opening?] at hopening

/-- **A line of a trace tells the event.** -/
theorem message_injective : Function.Injective message := by
  intro event event' h
  have hrule := ctorIdx_eq_of_message_eq h
  rw [← String.toList_inj] at h
  cases event with
  | scanned tokens =>
    cases event' with
    | scanned tokens' =>
      rw [toList_message_scanned, toList_message_scanned] at h
      obtain ⟨htokens, -⟩ := toString_append_blank_inj (List.append_cancel_left h)
      rw [Int.natCast_inj.mp htokens]
    | _ => cases hrule
  | parsed statements =>
    cases event' with
    | parsed statements' =>
      rw [toList_message_parsed, toList_message_parsed] at h
      obtain ⟨hstatements, -⟩ := toString_append_blank_inj (List.append_cancel_left h)
      rw [Int.natCast_inj.mp hstatements]
    | _ => cases hrule
  | placed label slot =>
    cases event' with
    | placed label' slot' =>
      rw [toList_message_placed, toList_message_placed] at h
      obtain ⟨hlabel, hslot⟩ := append_toString_inj (List.append_cancel_left h)
      rw [String.toList_inj.mp (List.append_cancel_right hlabel), hslot]
    | _ => cases hrule
  | branched slot distance =>
    cases event' with
    | branched slot' distance' =>
      rw [toList_message_branched, toList_message_branched] at h
      obtain ⟨hslot, h⟩ := toString_append_blank_inj (List.append_cancel_left h)
      obtain ⟨-, hdistance⟩ := append_toString_inj h
      rw [Int.natCast_inj.mp hslot, hdistance]
    | _ => cases hrule
  | assembled tokens statements words =>
    cases event' with
    | assembled tokens' statements' words' =>
      rw [toList_message_assembled, toList_message_assembled] at h
      obtain ⟨htokens, h⟩ := toString_append_blank_inj (List.append_cancel_left h)
      obtain ⟨hstatements, h⟩ := toString_append_blank_inj (List.append_cancel_left h)
      obtain ⟨hwords, -⟩ := toString_append_blank_inj (List.append_cancel_left h)
      rw [Int.natCast_inj.mp htokens, Int.natCast_inj.mp hstatements, Int.natCast_inj.mp hwords]
    | _ => cases hrule
  | written words path =>
    cases event' with
    | written words' path' =>
      rw [toList_message_written, toList_message_written] at h
      obtain ⟨hwords, h⟩ := toString_append_blank_inj h
      rw [Int.natCast_inj.mp hwords, String.toList_inj.mp (List.append_cancel_left h)]
    | _ => cases hrule

end Event
end Trace
end MipsAssembler
