import Mathlib.Data.List.Forall2
import Mathlib.Tactic.Lemma
import Cohort.Error
set_option relaxedAutoImplicit false
set_option autoImplicit false

/-!
# Results in a row

A check that is made of several ends well if and only if each of them does.

## Main results

* `Cohort.Result.bind_eq_ok`, `Cohort.Result.bind_eq_error` — what two steps in a row return, and
  how they fail.
* `Cohort.Result.guard_eq_ok` — what a step returns that is refused under a condition.
* `Cohort.Result.mapM_eq_ok`, `Cohort.Result.exists_mapM_eq_ok`,
  `Cohort.Result.exists_of_mapM_eq_error` — what a step returns that is made for every element of a
  list, whether it returns something, and how it fails.
-/

namespace Cohort.Result

variable {ε α β : Type}

/-- Two steps in a row return a value if the first returns one from which the second returns
that. -/
@[simp] lemma bind_eq_ok {x : Except ε α} {f : α → Except ε β} {b : β} :
    (x >>= f) = .ok b ↔ ∃ a, x = .ok a ∧ f a = .ok b := by
  cases x with
  | error e =>
    constructor
    · intro h
      cases h
    · rintro ⟨a, ha, -⟩
      cases ha
  | ok a =>
    constructor
    · intro h
      exact ⟨a, rfl, h⟩
    · rintro ⟨a', ha, hf⟩
      cases ha
      exact hf

/-- Two steps in a row fail if the first does, or the second after it. -/
lemma bind_eq_error {x : Except ε α} {f : α → Except ε β} {e : ε} :
    (x >>= f) = .error e ↔ x = .error e ∨ ∃ a, x = .ok a ∧ f a = .error e := by
  cases x with
  | error e' =>
    constructor
    · intro h
      cases h
      exact .inl rfl
    · rintro (h | ⟨a, ha, -⟩)
      · cases h
        rfl
      · cases ha
  | ok a =>
    constructor
    · intro h
      exact .inr ⟨a, rfl, h⟩
    · rintro (h | ⟨a', ha, hf⟩)
      · cases h
      · cases ha
        exact hf

/-- A value that is returned is the result. -/
@[simp] lemma pure_eq_ok {a b : α} : (pure a : Except ε α) = .ok b ↔ a = b := by
  constructor
  · intro h
    exact Except.ok.inj h
  · rintro rfl
    rfl

/-- What follows an error is not done. -/
@[simp] lemma throw_bind (e : ε) (f : α → Except ε β) :
    ((throw e : Except ε α) >>= f) = .error e := rfl

/-- A step that is refused under a condition returns a value only where the condition fails. -/
@[simp] lemma guard_eq_ok {p : Prop} [Decidable p] {e : ε} {x : Except ε α} {a : α} :
    (if p then .error e else x) = .ok a ↔ ¬ p ∧ x = .ok a := by
  split
  case isTrue h => simp [h]
  case isFalse h => simp [h]

/-- A result that is mapped is a value if it was one. -/
@[simp] lemma map_eq_ok {x : Except ε α} {f : α → β} {b : β} :
    x.map f = .ok b ↔ ∃ a, x = .ok a ∧ f a = b := by
  cases x <;> simp [Except.map]

/-- A result that is mapped is an error if it was the same error. -/
lemma map_eq_error {x : Except ε α} {f : α → β} {e : ε} : x.map f = .error e ↔ x = .error e := by
  cases x <;> simp [Except.map]

/-- A step that is made for every element of a list returns the list of what it returns for each.

**Proof sketch.** Induction on the elements. -/
lemma mapM_eq_ok {f : α → Except ε β} {as : List α} {bs : List β} :
    as.mapM f = .ok bs ↔ List.Forall₂ (fun a b => f a = .ok b) as bs := by
  induction as generalizing bs with
  | nil =>
    rw [List.mapM_nil, pure_eq_ok, List.forall₂_nil_left_iff]
    exact eq_comm
  | cons a as ih =>
    rw [List.mapM_cons, List.forall₂_cons_left_iff]
    simp only [bind_eq_ok, pure_eq_ok, ih]
    constructor
    · rintro ⟨b, hb, rest, hrest, rfl⟩
      exact ⟨b, rest, hb, hrest, rfl⟩
    · rintro ⟨b, rest, hb, hrest, rfl⟩
      exact ⟨b, hb, rest, hrest, rfl⟩

/-- It returns a list if it returns something for every element.

**Proof sketch.** Induction on the elements, as for the lists that are returned. -/
lemma exists_mapM_eq_ok {f : α → Except ε β} {as : List α} :
    (∃ bs, as.mapM f = .ok bs) ↔ ∀ a ∈ as, ∃ b, f a = .ok b := by
  simp only [mapM_eq_ok]
  induction as with
  | nil => simp
  | cons a as ih =>
    simp only [List.forall₂_cons_left_iff, List.forall_mem_cons, ← ih]
    constructor
    · rintro ⟨_, b, bs, hb, hbs, -⟩
      exact ⟨⟨b, hb⟩, bs, hbs⟩
    · rintro ⟨⟨b, hb⟩, bs, hbs⟩
      exact ⟨_, b, bs, hb, hbs, rfl⟩

/-- If it fails, it fails for one of the elements.

**Proof sketch.** Induction on the elements. The first one fails, or one of the others does. -/
lemma exists_of_mapM_eq_error {f : α → Except ε β} {as : List α} {e : ε}
    (h : as.mapM f = .error e) : ∃ a ∈ as, f a = .error e := by
  induction as with
  | nil => cases h
  | cons a as ih =>
    rw [List.mapM_cons, bind_eq_error] at h
    rcases h with h | ⟨b, -, h⟩
    · exact ⟨a, List.mem_cons_self, h⟩
    · rcases bind_eq_error.1 h with h | ⟨bs, -, h⟩
      · obtain ⟨other, hother, herror⟩ := ih h
        exact ⟨other, List.mem_cons_of_mem _ hother, herror⟩
      · cases h

/-- A step that is made for what an option holds returns a value if it does for that. -/
lemma exists_option_mapM_eq_ok {f : α → Except ε β} {held : Option α} :
    (∃ b, held.mapM f = .ok b) ↔ ∀ a ∈ held, ∃ b, f a = .ok b := by
  cases held with
  | none => exact iff_of_true ⟨none, rfl⟩ fun _ h => by cases h
  | some a =>
    simp only [Option.mem_def, Option.some.injEq, forall_eq']
    constructor
    · rintro ⟨b, hb⟩
      obtain ⟨b, hb, -⟩ := map_eq_ok.1 hb
      exact ⟨b, hb⟩
    · rintro ⟨b, hb⟩
      exact ⟨some b, map_eq_ok.2 ⟨b, hb, rfl⟩⟩

end Cohort.Result
