import Mathlib.Data.List.Forall2
import Cohort.Proofs.Report.Limits
import Cohort.Proofs.Subject.Conjunction
import Cohort.Proofs.Subject.Narrowing
import Cohort.Proofs.Subject.Session
set_option relaxedAutoImplicit false
set_option autoImplicit false

/-!
# Cells of a report

The columns of a report share what was found for a subject, and the segment of the report was
decided before them. Still each cell is what its column alone asks for: the meaning of an attribute,
or the value of an aggregate over the events. If all columns are aggregates of the same events, then
the row does not change if the subject is shown these events only.

## Main definitions

* `Cohort.Report.Source.Gives` — the value that a source gives for a subject.

## Main results

* `Cohort.Report.Plan.row?_gives`, `Cohort.Report.Plan.row?_metric` — each cell is the value that
  the source of its column gives.
* `Cohort.Report.Plan.row?_narrowed` — a row does not change with the events that its report does
  not count.
-/

namespace Cohort

/-! ### Computations for every element -/

/-- Elements in the same place of related lists are related. -/
lemma getElem?_of_forall₂ {α β : Type} {R : α → β → Prop} {as : List α} {bs : List β}
    (h : List.Forall₂ R as bs) {i : Nat} {a : α} (ha : as[i]? = some a) :
    ∃ b, bs[i]? = some b ∧ R a b := by
  obtain ⟨hi, rfl⟩ := List.getElem?_eq_some_iff.1 ha
  have hi' : i < bs.length := h.length_eq ▸ hi
  exact ⟨bs[i], List.getElem?_eq_getElem hi', h.get hi hi'⟩

namespace Lookup

variable {α β : Type} {f g : α → Lookup β} {as : List α}

/-- Computations that do the same on every element do the same on a list. -/
lemma mapM_congr (h : ∀ a ∈ as, f a = g a) : as.mapM f = as.mapM g := by
  induction as with
  | nil => rw [List.mapM_nil, List.mapM_nil]
  | cons a as ih =>
    rw [List.mapM_cons, List.mapM_cons, h a List.mem_cons_self,
      ih fun a' ha' => h a' (List.mem_cons_of_mem _ ha')]

/-- What each computation returns whatever was found before, it returns for its element.

**Proof sketch.** Induction on the elements, whatever was found before them. -/
lemma forall₂_mapM {made : α → β → Prop} (h : ∀ a ∈ as, ∀ found, made a (f a found).1)
    (found : Findings) : List.Forall₂ made as (as.mapM f found).1 := by
  induction as generalizing found with
  | nil =>
    rw [List.mapM_nil]
    exact .nil
  | cons a as ih =>
    rw [List.mapM_cons]
    refine .cons (h a List.mem_cons_self found) ?_
    exact ih (fun a' ha' => h a' (List.mem_cons_of_mem _ ha')) (f a found).2

end Lookup

namespace Report

/-! ### Cells -/

/-- The value that a source gives for a subject: the meaning of an attribute, or the value of an
aggregate over the events. -/
inductive Source.Gives (s : Subject) : Source → Json → Prop
  | property {name : String} {v : Json} (meaning : s.Denotes name v) : Gives s (.property name) v
  | metric (a : Aggregate) : Gives s (.metric a) (a.compute s.limits s.now s.events).value

/-- A source leads to the value that it gives. -/
lemma Source.valueOf_returns {s : Subject} (hs : s.snapshot.Ordered) (source : Source) :
    s.Returns (source.valueOf s) (source.Gives s) := by
  cases source with
  | property name =>
    intro found hfound
    obtain ⟨hmeaning, hfound'⟩ := Subject.valueOf_finds hs name found hfound
    exact ⟨.property hmeaning, hfound'⟩
  | metric a => exact fun found hfound => ⟨.metric a, hfound⟩

namespace Plan

variable {p : Plan} {s : Subject} {row : Row}

/-- A row is made of what its columns find, after it was decided that the subject belongs into the
report. -/
lemma row?_eq_some (h : p.row? s = some row) :
    row.profileId = s.profile.id ∧
      row.values = (p.columns.mapM (·.source.valueOf s) (p.shows s .none).2).1 := by
  unfold row? at h
  cases hshows : (p.shows s .none).1 with
  | false =>
    rw [rowIn?_of_shows_false hshows] at h
    cases h
  | true =>
    rw [rowIn?_of_shows_true hshows] at h
    obtain rfl := Option.some.inj h
    exact ⟨rfl, rfl⟩

/-- Deciding whether a subject belongs into a report keeps the findings sound. -/
lemma shows_returns (hs : s.snapshot.Ordered) (p : Plan) :
    s.Returns (p.shows s) (fun _ => True) := by
  unfold shows
  cases p.segment with
  | none => exact Subject.returns_pure trivial
  | some g =>
    refine (g.membershipIn_returns hs).bind fun m _ => ?_
    exact Subject.returns_pure trivial

/-- The cells of a row are the values that the sources of the columns give. -/
theorem row?_gives (hs : s.snapshot.Ordered) (h : p.row? s = some row) :
    List.Forall₂ (fun c v => c.source.Gives s v) p.columns row.values := by
  rw [(row?_eq_some h).2]
  have hsound := (p.shows_returns hs .none Subject.sound_none).2
  exact (Subject.Returns.mapM (fun c _ => c.source.valueOf_returns hs) _ hsound).1

/-- The cell of a column that shows an aggregate is the value of the aggregate, under any
definitions. -/
theorem row?_metric (h : p.row? s = some row) {place : Nat} {c : Column} {a : Aggregate}
    (hc : p.columns[place]? = some c) (ha : c.source = .metric a) :
    row.values[place]? = some (a.compute s.limits s.now s.events).value := by
  have hcells : List.Forall₂ (fun c v => ∀ a, c.source = .metric a →
      v = (a.compute s.limits s.now s.events).value) p.columns row.values := by
    rw [(row?_eq_some h).2]
    refine Lookup.forall₂_mapM (fun c _ found a ha => ?_) _
    rw [ha]
    rfl
  obtain ⟨v, hv, hvalue⟩ := getElem?_of_forall₂ hcells hc
  rw [hv, hvalue a ha]

/-! ### Events that a report counts -/

/-- A report with a common scope is restricted to no segment, and all its columns show aggregates of
the same events.

**Proof sketch.** The common scope is the first column's aggregate. All other columns were compared
with it, and the first one has its own events. -/
lemma eventScope?_eq_some {first : Aggregate} (h : p.eventScope? = some first) :
    p.segment = none ∧
      ∀ c ∈ p.columns, ∃ a, c.source = .metric a ∧ sameEvents a first = true := by
  unfold eventScope? at h
  split at h
  case isTrue => cases h
  case isFalse hsegment =>
    refine ⟨by simpa using hsegment, fun c hc => ?_⟩
    split at h
    case h_2 => cases h
    case h_1 b rest hcolumns =>
      split at h
      case isFalse => cases h
      case isTrue hrest =>
        obtain rfl := Option.some.inj h
        have hmem : c.aggregate? ∈ some b :: rest := hcolumns ▸ List.mem_map_of_mem hc
        have hsome : ∃ a, c.aggregate? = some a ∧ sameEvents a b = true := by
          rcases List.mem_cons.1 hmem with hfirst | hmem
          · exact ⟨b, hfirst, by simp [sameEvents]⟩
          · exact Option.any_eq_true _ _ |>.1 (List.all_eq_true.1 hrest _ hmem)
        obtain ⟨a, ha, hsame⟩ := hsome
        unfold Column.aggregate? at ha
        split at ha
        case h_1 hsource =>
          obtain rfl := Option.some.inj ha
          exact ⟨_, hsource, hsame⟩
        case h_2 => cases ha

/-- A row does not change with the events that its report does not count.

**Proof sketch.** The report has a common scope, so it shows everybody and looks at aggregates only.
Each of them is found in the same way among the events that are kept. -/
theorem row?_narrowed {first : Aggregate} {keeps : Event → Bool}
    (hscope : p.eventScope? = some first) (hroom : s.limits.Admit s.events.length)
    (hkeeps : ∀ a, sameEvents a first = true → s.Suffices keeps a) :
    p.row? (s.seeing (s.events.filter keeps)) = p.row? s := by
  obtain ⟨hsegment, hcolumns⟩ := eventScope?_eq_some hscope
  have hvalues : p.columns.mapM (·.source.valueOf (s.seeing (s.events.filter keeps))) =
      p.columns.mapM (·.source.valueOf s) := by
    refine Lookup.mapM_congr fun c hc => ?_
    obtain ⟨a, ha, hsame⟩ := hcolumns c hc
    rw [ha]
    exact Subject.aggregateValue_narrowed hroom (hkeeps a hsame)
  unfold row? rowIn? shows
  rw [hsegment, hvalues]
  rfl

end Plan

end Report

end Cohort
