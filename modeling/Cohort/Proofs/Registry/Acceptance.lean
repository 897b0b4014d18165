import Cohort.Proofs.Registry.Operation
set_option relaxedAutoImplicit false
set_option autoImplicit false

/-!
# Operations that are accepted

An operation is accepted if and only if its checks are passed, and several in a row are accepted if
and only if each of them is, on what the others before it left.

## Main definitions

* `Cohort.Registry.performAll` — operations on a project, up to the first that is refused.

## Main results

* `Cohort.Registry.perform_eq_ok` — an operation is accepted if and only if it has an edit to make.
* `Cohort.Registry.performAll_append` — some operations and then others.
* `Cohort.Registry.performAll_eq_after` — what operations lead to that are all accepted.
-/

namespace Cohort.Registry

open Result

variable {r : Registry} {project : String} {op : Operation}

/-! ### One operation -/

/-- An operation that is accepted makes its edit, and the project has the next version. -/
lemma exists_edits_of_perform (h : (r.perform project op).1 = .ok ()) :
    ∃ edited, Edits (r.snapshot project) op edited ∧
      ∀ other, (r.perform project op).2.snapshot other =
        if project = other then { edited with version := (r.snapshot project).version + 1 }
        else r.snapshot other := by
  have hled := perform_led r project op
  generalize r.perform project op = outcome at h hled
  cases hled with
  | refused kept => cases h
  | accepted made changed => exact ⟨_, made, changed⟩

/-- A change is accepted if its edit is. -/
lemma change_accepts {edit : Snapshot → Result (Unit × Snapshot)}
    (h : ∃ made, edit (r.snapshot project) = .ok made) : (r.change project edit).1 = .ok () := by
  obtain ⟨made, hmade⟩ := h
  simp only [change, hmade]

/-- A change that starts with the check of a definition is accepted if the definition and its edit
are. -/
lemma submit_accepts {α β : Type} {definition : Result α}
    {edit : α → Snapshot → Result (β × Snapshot)} {a : α} (hdefinition : definition = .ok a)
    (h : ∃ made, edit a (r.snapshot project) = .ok made) :
    (r.submit project definition edit).discard.1 = .ok () := by
  obtain ⟨made, hmade⟩ := h
  subst hdefinition
  simp only [submit, change, hmade]
  rfl

/-- An operation that has an edit to make is accepted.

**Proof sketch.** By the operation: what is known of its edit is what its checks ask for, one after
the other. -/
lemma perform_of_edits {edited : Snapshot} (h : Edits (r.snapshot project) op edited) :
    (r.perform project op).1 = .ok () := by
  cases h with
  | createEventSchema compiled free =>
    refine submit_accepts compiled ?_
    simp only [throw_bind, guard_eq_ok, pure_eq_ok]
    exact ⟨_, free, rfl⟩
  | updateEventSchema compiled same present =>
    refine submit_accepts (renewedEventSchema_eq_ok.2 ⟨compiled, same⟩) ?_
    simp only [bind_eq_ok, checkPresent_eq_ok, pure_eq_ok]
    exact ⟨_, (), present, rfl⟩
  | deleteEventSchema present =>
    refine change_accepts ?_
    simp only [bind_eq_ok, checkPresent_eq_ok, pure_eq_ok]
    exact ⟨_, (), present, rfl⟩
  | createProfileProperty compiled free =>
    refine submit_accepts compiled ?_
    simp only [bind_eq_ok, pure_eq_ok]
    exact ⟨_, (), free, rfl⟩
  | updateProfileProperty compiled same present =>
    refine submit_accepts (renewedProfileProperty_eq_ok.2 ⟨compiled, same⟩) ?_
    simp only [bind_eq_ok, checkPresent_eq_ok, pure_eq_ok]
    exact ⟨_, (), present, rfl⟩
  | deleteProfileProperty present =>
    refine change_accepts ?_
    simp only [bind_eq_ok, checkPresent_eq_ok, pure_eq_ok]
    exact ⟨_, (), present, rfl⟩
  | createComputedField compiled free ordered =>
    refine submit_accepts compiled ?_
    simp only [bind_eq_ok, pure_eq_ok]
    exact ⟨_, (), free, _, ordered, rfl⟩
  | updateComputedField compiled same present ordered =>
    refine submit_accepts (renewedComputedField_eq_ok.2 ⟨compiled, same⟩) ?_
    simp only [bind_eq_ok, checkPresent_eq_ok, pure_eq_ok]
    exact ⟨_, (), present, _, ordered, rfl⟩
  | deleteComputedField present unused ordered =>
    refine change_accepts ?_
    simp only [bind_eq_ok, checkPresent_eq_ok, throw_bind, guard_eq_ok, pure_eq_ok]
    exact ⟨_, (), present, by simp [unused], _, ordered, rfl⟩
  | createSegment compiled free =>
    refine submit_accepts compiled ?_
    simp only [bind_eq_ok, pure_eq_ok]
    exact ⟨_, (), free, rfl⟩
  | updateSegment compiled free present =>
    refine submit_accepts compiled ?_
    simp only [bind_eq_ok, found_eq_ok, pure_eq_ok]
    exact ⟨_, (), free, _, present, rfl⟩
  | deleteSegment present =>
    refine change_accepts ?_
    simp only [bind_eq_ok, checkPresent_eq_ok, pure_eq_ok]
    exact ⟨_, (), present, rfl⟩

/-- An operation is accepted if and only if it has an edit to make. -/
theorem perform_eq_ok :
    (r.perform project op).1 = .ok () ↔ ∃ edited, Edits (r.snapshot project) op edited := by
  constructor
  · intro h
    obtain ⟨edited, hedit, -⟩ := exists_edits_of_perform h
    exact ⟨edited, hedit⟩
  · rintro ⟨edited, hedit⟩
    exact perform_of_edits hedit

/-! ### Several operations -/

/-- Operations on a project, one after the other, up to the first that is refused. -/
def performAll (r : Registry) (project : String) : List Operation → Outcome Unit
  | [] => (.ok (), r)
  | op :: ops =>
    match r.perform project op with
    | (.ok _, next) => next.performAll project ops
    | (.error e, next) => (.error e, next)

/-- Some operations and then others: if one of the former is refused, the latter are not made. -/
lemma performAll_append (r : Registry) (project : String) (ops more : List Operation) :
    r.performAll project (ops ++ more) =
      match r.performAll project ops with
      | (.ok _, next) => next.performAll project more
      | (.error e, next) => (.error e, next) := by
  induction ops generalizing r with
  | nil => rfl
  | cons op ops ih =>
    rw [List.cons_append, performAll, performAll]
    match r.perform project op with
    | (.ok _, next) => exact ih next
    | (.error _, _) => rfl

/-- To perform a list of one operation is to perform this operation. -/
lemma performAll_singleton (r : Registry) (project : String) (op : Operation) :
    r.performAll project [op] = r.perform project op := by
  rw [performAll]
  match r.perform project op with
  | (.ok _, _) => rfl
  | (.error _, _) => rfl

/-- A property of snapshots that edits keep is kept by operations, whether all are made or not.

**Proof sketch.** Induction on the operations. -/
lemma performAll_keeps {P : Snapshot → Prop}
    (edit : ∀ {s : Snapshot} {op : Operation} {edited : Snapshot}, P s → Edits s op edited →
      P { edited with version := s.version + 1 })
    (h : ∀ project, P (r.snapshot project)) (project : String) (ops : List Operation)
    (other : String) : P ((r.performAll project ops).2.snapshot other) := by
  induction ops generalizing r with
  | nil => exact h other
  | cons op ops ih =>
    have hkept := perform_keeps edit h project op
    rw [performAll]
    generalize r.perform project op = outcome at hkept
    obtain ⟨_ | _, next⟩ := outcome
    · exact hkept other
    · exact ih hkept

/-- Operations are accepted if and only if all but the last are, and the last on what they left. -/
lemma performAll_concat_eq_ok {ops : List Operation} :
    (r.performAll project (ops ++ [op])).1 = .ok () ↔
      (r.performAll project ops).1 = .ok () ∧
        ((r.performAll project ops).2.perform project op).1 = .ok () := by
  rw [performAll_append]
  match r.performAll project ops with
  | (.ok _, next) => simp [performAll_singleton]
  | (.error _, _) => simp

/-- What operations lead to of which all but the last are accepted. -/
lemma performAll_concat_snd {ops : List Operation} (h : (r.performAll project ops).1 = .ok ()) :
    (r.performAll project (ops ++ [op])).2 =
      ((r.performAll project ops).2.perform project op).2 := by
  rw [performAll_append]
  generalize r.performAll project ops = outcome at h
  obtain ⟨result, next⟩ := outcome
  subst h
  simp only [performAll_singleton]

/-- Operations that are all accepted on a new registry lead to what they lead to one by one. -/
theorem performAll_eq_after {ops : List Operation} (h : (empty.performAll project ops).1 = .ok ()) :
    (empty.performAll project ops).2 = after (ops.map fun op => (project, op)) := by
  induction ops using List.reverseRecOn with
  | nil => rfl
  | append_singleton ops op ih =>
    have hbefore := (performAll_concat_eq_ok.1 h).1
    rw [performAll_concat_snd hbefore, ih hbefore, List.map_append, List.map_singleton,
      after_concat]

end Cohort.Registry
