/-!
# Steps that may fail

Every stage of the assembler is a step that returns a value or stops with a
fault, and stages are built from smaller steps in two ways only: one after
another, and over the elements of a list from left to right.  This file says, for
both, exactly when the whole succeeds and which fault it stops with otherwise.

The traversal of a list is described by positions.  It succeeds when the step
succeeds at every position, and its fault is that of the lowest position at which
the step fails.  "The lowest slot that is wrong" is the form in which faults of a
program are described everywhere else, so nothing about accumulators or monads is
visible behind this file.

`FailsOnly P x` says that every fault of `x` has the property `P`; it composes
along the same two constructions.
-/

namespace MipsAssembler
namespace Outcome

variable {ε α β : Type}

/-! ## One step after another -/

theorem ok_bind (a : α) (f : α → Except ε β) : (Except.ok a >>= f) = f a := rfl

theorem error_bind (e : ε) (f : α → Except ε β) : (Except.error e >>= f) = .error e := rfl

theorem bind_eq_ok_iff {x : Except ε α} {f : α → Except ε β} {b : β} :
    (x >>= f) = .ok b ↔ ∃ a, x = .ok a ∧ f a = .ok b := by
  cases x with
  | error e =>
    rw [error_bind]
    constructor
    · intro h
      cases h
    · rintro ⟨_, h, _⟩
      cases h
  | ok a =>
    rw [ok_bind]
    constructor
    · exact fun h => ⟨a, rfl, h⟩
    · rintro ⟨_, ha, h⟩
      cases ha
      exact h

/-- Two steps stop with the fault of the first, or with that of the second if the
first succeeds. -/
theorem bind_eq_error_iff {x : Except ε α} {f : α → Except ε β} {e : ε} :
    (x >>= f) = .error e ↔ x = .error e ∨ ∃ a, x = .ok a ∧ f a = .error e := by
  cases x with
  | error e' =>
    rw [error_bind]
    constructor
    · exact fun h => Or.inl (congrArg Except.error (Except.error.inj h))
    · rintro (h | ⟨_, h, _⟩)
      · exact congrArg Except.error (Except.error.inj h)
      · cases h
  | ok a =>
    rw [ok_bind]
    constructor
    · exact fun h => Or.inr ⟨a, rfl, h⟩
    · rintro (h | ⟨_, ha, h⟩)
      · cases h
      · cases ha
        exact h

/-- A step succeeds or has a fault. -/
theorem ok_or_error (x : Except ε α) : (∃ a, x = .ok a) ∨ ∃ e, x = .error e := by
  cases x with
  | error e => exact Or.inr ⟨e, rfl⟩
  | ok a => exact Or.inl ⟨a, rfl⟩

/-- A success that was found by looking at the value only. -/
theorem eq_ok_of_toOption {x : Except ε α} {a : α} (h : x.toOption = some a) : x = .ok a := by
  cases x with
  | error e => exact absurd h (by simp [Except.toOption])
  | ok b => rw [Option.some.inj h]

theorem toOption_map (f : α → β) (x : Except ε α) :
    (f <$> x).toOption = x.toOption.map f := by
  cases x <;> rfl

theorem map_eq_ok_iff {f : α → β} {x : Except ε α} {b : β} :
    f <$> x = .ok b ↔ ∃ a, x = .ok a ∧ f a = b := by
  cases x with
  | error e =>
    constructor
    · intro h
      cases h
    · rintro ⟨_, h, _⟩
      cases h
  | ok a =>
    constructor
    · exact fun h => ⟨a, rfl, Except.ok.inj h⟩
    · rintro ⟨_, ha, hb⟩
      cases ha
      exact congrArg Except.ok hb

/-- The fault of a step is not touched by what is done with its value. -/
theorem map_eq_error_iff {f : α → β} {x : Except ε α} {e : ε} :
    f <$> x = .error e ↔ x = .error e := by
  cases x with
  | error e' =>
    constructor
    · exact fun h => congrArg Except.error (Except.error.inj h)
    · exact fun h => congrArg Except.error (Except.error.inj h)
  | ok a =>
    constructor
    · intro h
      cases h
    · intro h
      cases h

/-! ## A step at every element of a list -/

/-- A traversal succeeds with the results of the single steps, position by
position. -/
theorem mapM_eq_ok_iff {f : α → Except ε β} {xs : List α} {ys : List β} :
    xs.mapM f = .ok ys ↔
      ys.length = xs.length ∧ ∀ (i : Nat) x, xs[i]? = some x → ∃ y, ys[i]? = some y ∧ f x = .ok y := by
  induction xs generalizing ys with
  | nil =>
    rw [List.mapM_nil]
    constructor
    · intro h
      cases h
      exact ⟨rfl, fun i x hx => absurd hx (by simp)⟩
    · rintro ⟨hlen, -⟩
      rw [List.length_nil, List.length_eq_zero_iff] at hlen
      rw [hlen]
      rfl
  | cons x xs ih =>
    rw [List.mapM_cons, bind_eq_ok_iff]
    constructor
    · rintro ⟨y, hy, htail⟩
      obtain ⟨ys', hys', hcons⟩ := bind_eq_ok_iff.mp htail
      cases hcons
      obtain ⟨hlen, hget⟩ := ih.mp hys'
      refine ⟨by rw [List.length_cons, List.length_cons, hlen], fun i z hz => ?_⟩
      cases i with
      | zero =>
        rw [List.getElem?_cons_zero] at hz ⊢
        cases hz
        exact ⟨y, rfl, hy⟩
      | succ i =>
        rw [List.getElem?_cons_succ] at hz ⊢
        exact hget i z hz
    · rintro ⟨hlen, hget⟩
      cases ys with
      | nil => exact absurd hlen (by simp)
      | cons y ys =>
        obtain ⟨y', hy', hfx⟩ := hget 0 x rfl
        cases hy'
        have htail : xs.mapM f = .ok ys := by
          refine ih.mpr ⟨Nat.succ.inj hlen, fun i z hz => ?_⟩
          exact hget (i + 1) z hz
        exact ⟨y, hfx, by rw [htail]; rfl⟩

/-- A traversal stops with the fault of the lowest position at which the step
fails. -/
theorem mapM_eq_error_iff {f : α → Except ε β} {xs : List α} {e : ε} :
    xs.mapM f = .error e ↔
      ∃ (i : Nat) (x : α), xs[i]? = some x ∧ f x = .error e ∧
        ∀ j < i, ∀ z, xs[j]? = some z → ∃ y, f z = .ok y := by
  induction xs with
  | nil =>
    rw [List.mapM_nil]
    constructor
    · intro h
      cases h
    · rintro ⟨_, _, h, _⟩
      exact absurd h (by simp)
  | cons x xs ih =>
    rw [List.mapM_cons, bind_eq_error_iff]
    constructor
    · rintro (hx | ⟨y, hy, htail⟩)
      · exact ⟨0, x, rfl, hx, fun j hj => absurd hj (Nat.not_lt_zero j)⟩
      · rcases bind_eq_error_iff.mp htail with herr | ⟨_, _, h⟩
        · obtain ⟨i, z, hz, hfz, hbelow⟩ := ih.mp herr
          refine ⟨i + 1, z, hz, hfz, fun j hj w hw => ?_⟩
          cases j with
          | zero =>
            cases hw
            exact ⟨y, hy⟩
          | succ j => exact hbelow j (Nat.lt_of_succ_lt_succ hj) w hw
        · cases h
    · rintro ⟨i, z, hz, hfz, hbelow⟩
      cases i with
      | zero =>
        cases hz
        exact Or.inl hfz
      | succ i =>
        obtain ⟨y, hy⟩ := hbelow 0 (Nat.succ_pos i) x rfl
        refine Or.inr ⟨y, hy, bind_eq_error_iff.mpr (Or.inl (ih.mpr ?_))⟩
        exact ⟨i, z, hz, hfz, fun j hj w hw => hbelow (j + 1) (Nat.succ_lt_succ hj) w hw⟩

/-- A traversal succeeds exactly when the step succeeds at every element. -/
theorem exists_mapM_eq_ok_iff {f : α → Except ε β} {xs : List α} :
    (∃ ys, xs.mapM f = .ok ys) ↔ ∀ x ∈ xs, ∃ y, f x = .ok y := by
  constructor
  · rintro ⟨ys, hys⟩ x hx
    obtain ⟨i, hi⟩ := List.mem_iff_getElem?.mp hx
    obtain ⟨y, _, hy⟩ := (mapM_eq_ok_iff.mp hys).2 i x hi
    exact ⟨y, hy⟩
  · intro hall
    rcases ok_or_error (xs.mapM f) with hok | ⟨e, herr⟩
    · exact hok
    · obtain ⟨i, x, hx, hfx, _⟩ := mapM_eq_error_iff.mp herr
      obtain ⟨y, hy⟩ := hall x (List.mem_of_getElem? hx)
      exact absurd (hfx.symm.trans hy) (by simp)

/-- What is done with the value of every step may be done with the values of the traversal. -/
theorem mapM_map_step {γ : Type} (g : β → γ) (f : α → Except ε β) (xs : List α) :
    (xs.mapM fun x => g <$> f x) = List.map g <$> xs.mapM f := by
  induction xs with
  | nil => rfl
  | cons x xs ih =>
    rw [List.mapM_cons, List.mapM_cons, ih]
    cases f x with
    | error e => rfl
    | ok y => cases xs.mapM f <;> rfl

/-! ## Properties of all faults of a step -/

/-- Every fault with which a step can stop has the property `P`. -/
def FailsOnly (P : ε → Prop) (x : Except ε α) : Prop := ∀ e, x = .error e → P e

namespace FailsOnly

variable {P : ε → Prop}

theorem ok (a : α) : FailsOnly P (.ok a : Except ε α) := by
  intro e he
  cases he

theorem error {e : ε} (h : P e) : FailsOnly P (.error e : Except ε α) := by
  intro e' he
  cases he
  exact h

theorem bind {x : Except ε α} {f : α → Except ε β} (hx : FailsOnly P x)
    (hf : ∀ a, FailsOnly P (f a)) : FailsOnly P (x >>= f) := by
  intro e he
  rcases bind_eq_error_iff.mp he with h | ⟨a, _, h⟩
  · exact hx e h
  · exact hf a e h

end FailsOnly
end Outcome
end MipsAssembler
