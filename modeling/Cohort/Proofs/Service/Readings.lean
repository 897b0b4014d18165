import Cohort.Proofs.Service.Narrowing
set_option relaxedAutoImplicit false
set_option autoImplicit false

/-!
# Readings of a computed field

A computed field of a profile can be asked for on its own or with all others, and reports show it in
columns: by its name, or as the aggregate that it is. These requests fetch different events and look
different things up before, but all of them read the same value: the meaning of the field over the
whole history of the profile.

## Main definitions

* `Cohort.Report.Source.Spec.Shows` — a submitted column that shows a computed field.

## Main results

* `Cohort.Service.denotes_fetched` — a field keeps its meaning among the events that are fetched for
  it.
* `Cohort.Service.computedValue_reads`, `Cohort.Service.computedValues_reads`,
  `Cohort.Service.report_reads` — each kind of request reads the meaning.
* `Cohort.Service.readings_agree` — all readings are the same, after any operations on a registry
  and over any store.
-/

namespace Cohort

namespace Report

/-- A submitted column shows a computed field by its name, or as the aggregate that it is. -/
inductive Source.Spec.Shows (name : String) (f : ComputedField) : Source.Spec → Prop
  | property : Shows name f (.property name)
  | metric {m : Aggregate.Spec} {a : Aggregate} (accepted : Aggregate.compile m = .ok a)
      (computed : f.computation = .aggregate a) : Shows name f (.metric m)

/-- What a column gives that shows a computed field is the meaning of the field.

**Proof sketch.** By the way in which the column shows the field: as a property of its name, or by
the same aggregate. -/
lemma Column.denotes_of_gives {snapshot : Snapshot} {column : Column.Spec} {c : Column}
    {s : Subject} {name : String} {f : ComputedField} {v : Json}
    (hf : s.snapshot.computed.get? name = some f) (hc : Column.compile snapshot column = .ok c)
    (hshows : column.source.Shows name f) (hv : c.source.Gives s v) : s.Denotes name v := by
  unfold Column.compile at hc
  simp only [Result.throw_bind, Result.guard_eq_ok] at hc
  obtain ⟨-, hc⟩ := hc
  generalize column.source = source at hshows hc
  cases hshows with
  | property =>
    obtain rfl := Result.pure_eq_ok.1 hc
    cases hv with
    | property hmeaning => exact hmeaning
  | metric haccepted hcomputed =>
    simp only [haccepted] at hc
    obtain rfl := Result.pure_eq_ok.1 hc
    cases hv with
    | metric => exact .aggregate hf hcomputed

end Report

namespace Service

variable {s : Service} {store : Store} {project : String} {p : Profile} {name : String}
  {f : ComputedField} {v : Json}

section Reads

variable (hfiled : store.Filed)
  (hlength : (store.history project p.id).length ≤ s.settings.scanLength)
  (hf : (s.registry.snapshot project).computed.get? name = some f)
  (hv : (s.whole store project p).Denotes name v)

include hfiled hlength hf hv

/-- A field keeps its meaning among the events that are fetched for it.

**Proof sketch.** For an aggregate just the events are fetched that it counts, and for a formula all
events. -/
theorem denotes_fetched :
    (s.fetched store project (s.fieldQuery (s.registry.snapshot project) p.id name) p).Denotes
      name v := by
  unfold fieldQuery
  rw [hf, Option.map_some]
  cases hcomputed : f.computation with
  | aggregate a =>
    have hsame : Report.sameEvents a a = true := by simp [Report.sameEvents]
    have hnarrowed := hv.narrowed (whole_admits hlength) (scopedQuery_suffices hfiled p hsame) hf
      hcomputed
    exact hnarrowed
  | formula source e =>
    simp only [fetched_all hfiled]
    exact hv

variable (hordered : (s.registry.snapshot project).Ordered)
  (hp : store.profile? project p.id = some p)

include hordered hp

/-- A column of a report that shows a field has the meaning of the field in the row of a profile.

**Proof sketch.** The row is made of the profile with its identifier, and of its whole history as
the fetched events say the same. So the cell is what the column gives of this subject, and a field
has one meaning. -/
theorem report_reads {spec : Report.Spec} {plan : Report.Plan}
    (hcompile : Report.compile s.settings.reporting (s.registry.snapshot project) spec = .ok plan)
    {row : Report.Row}
    (hrow : row ∈ (plan.table s.now ((store.profiles project).map fun q =>
      s.fetched store project (s.rowQuery plan q.id) q)).rows)
    (hid : row.profileId = p.id) {place : Nat} {column : Report.Column.Spec}
    (hcolumn : spec.columns[place]? = some column) (hshows : column.source.Shows name f) :
    row.values[place]? = some v := by
  obtain ⟨subject, hsubject, hmade⟩ := plan.exists_row?_of_mem_rows _ _ hrow
  obtain ⟨q, hq, rfl⟩ := List.mem_map.1 hsubject
  -- profiles are stored under their identifiers, so the row is made of this profile
  obtain rfl : p = q := by
    have hqid : q.id = p.id := (Report.Plan.row?_eq_some hmade).1.symm.trans hid
    have hstored := hfiled.mem_profiles.1 hq
    rw [hqid, hp] at hstored
    exact Option.some.inj hstored
  rw [row?_rowQuery hfiled plan hlength] at hmade
  have hcells := Report.Plan.row?_gives (s := s.whole store project p) hordered hmade
  obtain ⟨c, hc, haccepted⟩ := getElem?_of_forall₂ (Report.compile_eq_ok.1 hcompile).columns hcolumn
  obtain ⟨cell, hcell, hgives⟩ := getElem?_of_forall₂ hcells hc
  have hmeaning : (s.whole store project p).Denotes name cell :=
    Report.Column.denotes_of_gives hf haccepted hshows hgives
  rw [hcell, hmeaning.unique hv]

variable (hsource : s.source = store.source)

include hsource

/-- A field on request has its meaning. -/
theorem computedValue_reads :
    ∃ degraded, (s.computedValue project p.id name).answer =
      (.ok ⟨name, f.dataType, v, degraded⟩,
        [s.fieldQuery (s.registry.snapshot project) p.id name]) := by
  let subject := s.fetched store project (s.fieldQuery (s.registry.snapshot project) p.id name) p
  have hmeaning : subject.Denotes name v := denotes_fetched hfiled hlength hf hv
  have hfound := (Subject.valueOf_finds (s := subject) hordered name .none Subject.sound_none).1
  have hvalue := congrArg Prod.fst (Subject.computedValue_of_eq_some (s := subject) hf .none)
  rw [hordered.named name f hf, hfound.unique hmeaning] at hvalue
  exact ⟨_, (computedValue_gives hsource hp hvalue).answer⟩

omit hlength in
/-- All fields on request have their meanings. -/
theorem computedValues_reads :
    ∃ values, (s.computedValues project p.id).answer = (.ok values, [.all p.id]) ∧
      values.get? name = some v := by
  have hanswer := (computedValues_gives hsource hp).answer
  rw [fetched_all hfiled] at hanswer
  have hvalues := (Subject.computedValues_returns (s := s.whole store project p) hordered .none
    Subject.sound_none).1
  exact ⟨_, hanswer, (hvalues name v).2 ⟨Index.contains_iff.2 ⟨f, hf⟩, hv⟩⟩

end Reads

/-- All readings of a computed field of a stored profile are the same, after any operations on a
registry and over any store, as long as a scan has room for the history of the profile: the field on
request, the field among all others, and the columns of reports that show it, by its name or as the
aggregate that it is.

**Proof sketch.** The field has one meaning over the whole history. If it is an aggregate, then all
that it counts is among the events that are fetched; otherwise all events are fetched. And what a
look-up returns is the meaning, whatever was looked up before. -/
theorem readings_agree (steps : List (String × Registry.Operation))
    (deposits : List (String × Store.Deposit)) (settings : Settings) (now : Instant)
    (project : String) (p : Profile) (name : String) (f : ComputedField)
    (hp : p ∈ (Store.after deposits).profiles project)
    (hlength : ((Store.after deposits).history project p.id).length ≤ settings.scanLength)
    (hf : ((Registry.after steps).snapshot project).computed.get? name = some f) :
    let store := Store.after deposits
    let s : Service := ⟨settings, Registry.after steps, store.source, now⟩
    ∃ v, (s.whole store project p).Denotes name v ∧
      (∃ degraded, (s.computedValue project p.id name).answer =
        (.ok ⟨name, f.dataType, v, degraded⟩,
          [s.fieldQuery (s.registry.snapshot project) p.id name])) ∧
      (∃ values, (s.computedValues project p.id).answer = (.ok values, [.all p.id]) ∧
        values.get? name = some v) ∧
      ∀ spec plan,
        Report.compile settings.reporting (s.registry.snapshot project) spec = .ok plan →
          ∃ table queries, (s.report project spec false).answer = (.ok table, queries) ∧
            ∀ row ∈ table.rows, row.profileId = p.id → ∀ (place : Nat) column,
              spec.columns[place]? = some column → column.source.Shows name f →
                row.values[place]? = some v := by
  intro store s
  have hfiled : store.Filed := Store.filed_after deposits
  have hsource : s.source = store.source := rfl
  have hordered : (s.registry.snapshot project).Ordered := Registry.ordered_after steps project
  have hstored : store.profile? project p.id = some p := hfiled.mem_profiles.1 hp
  obtain ⟨v, hv, -⟩ := Subject.existsUnique_denotes (s := s.whole store project p) hordered name
  refine ⟨v, hv, ?_, ?_, ?_⟩
  · exact computedValue_reads hfiled hlength hf hv hordered hstored hsource
  · exact computedValues_reads hfiled hf hv hordered hstored hsource
  · intro spec plan hcompile
    refine ⟨_, _, (report_gives hsource hcompile).answer, ?_⟩
    intro row hrow hid place column hcolumn hshows
    exact report_reads hfiled hlength hf hv hordered hstored hcompile hrow hid hcolumn hshows

/-! ### Bob's visits -/

/-- A report that shows the visits twice: as the field and as the aggregate that it is. -/
def visitColumns : Report.Spec :=
  { visitReport with
    columns := ⟨"field", none, .property "visits", none⟩ :: visitReport.columns }

/-- The report once it is accepted. -/
def visitColumnsPlan : Report.Plan :=
  { visitPlan with
    columns := ⟨"field", "field", .property "visits", .number, true⟩ :: visitPlan.columns }

/-- All readings of Bob's visits say that he came twice. -/
theorem bob_readings :
    let s : Service :=
      ⟨{}, Registry.after Registry.shopSteps, (Store.after shopDeposits).source, shop.now⟩
    (∃ degraded, (s.computedValue "shop" "bob" "visits").answer =
        (.ok ⟨"visits", .number, .ofInt 2, degraded⟩, [s.scopedQuery "bob" visitCount])) ∧
      (∃ values, (s.computedValues "shop" "bob").answer = (.ok values, [.all "bob"]) ∧
        values.get? "visits" = some (.ofInt 2)) ∧
      ∃ table queries, (s.report "shop" visitColumns false).answer = (.ok table, queries) ∧
        ∀ row ∈ table.rows, row.profileId = "bob" →
          row.values[0]? = some (.ofInt 2) ∧ row.values[1]? = some (.ofInt 2) := by
  intro s
  have hsnapshot : s.registry.snapshot "shop" = Registry.shop := Registry.shop_eq
  have hvisits : (s.registry.snapshot "shop").computed.get? "visits" =
      some Registry.visitsField := by
    rw [hsnapshot]
    rfl
  obtain ⟨v, hv, hvalue, hvalues, hreport⟩ := readings_agree Registry.shopSteps shopDeposits {}
    shop.now "shop" ⟨"bob", none, .empty, []⟩ "visits" Registry.visitsField (by decide +kernel)
    (by decide +kernel) hvisits
  have hcount : v = .ofInt 2 := by
    rw [hv.unique (.aggregate hvisits rfl)]
    decide +kernel
  subst hcount
  have hquery : s.fieldQuery (s.registry.snapshot "shop") "bob" "visits" =
      s.scopedQuery "bob" visitCount := by
    rw [hsnapshot]
    rfl
  have hcompile : Report.compile s.settings.reporting (s.registry.snapshot "shop") visitColumns =
      .ok visitColumnsPlan := by
    rw [hsnapshot]
    decide +kernel
  refine ⟨hquery ▸ hvalue, hvalues, ?_⟩
  obtain ⟨table, queries, hanswer, hrows⟩ := hreport visitColumns visitColumnsPlan hcompile
  refine ⟨table, queries, hanswer, fun row hrow hid => ⟨?_, ?_⟩⟩
  · exact hrows row hrow hid 0 _ rfl .property
  · exact hrows row hrow hid 1 _ rfl (.metric (by decide +kernel) rfl)

end Service

end Cohort
