import Cohort.Proofs.Wire.Definition
import Cohort.Wire.Report
set_option relaxedAutoImplicit false
set_option autoImplicit false

/-!
# Whatever is exchanged is read back

Whatever is read as a definition, as data or as a report is read again, as the same, from what is
written of it. What is written is not always what was read: defaults are filled in, and of traits
with one name only the one that counted is left.

## Main definitions

* `Cohort.Wire.Kind` — what is exchanged as JSON, with how it is read and written.

## Main results

* `Cohort.Wire.Kind.read_write` — what was read of any kind is read again from what is written of
  it.
-/

namespace Cohort

open Json (Document)
open Wire (Lists Record RoundTrips)

/-! ### Profiles, events and fixtures -/

/-- An identity is read back. -/
lemma Identity.roundTrips : RoundTrips ofDocument? toJson := by
  refine RoundTrips.record (fun _ => rfl) (by decide) fun r r' i h hheld => ?_
  simp only [Option.bind_eq_bind, Option.bind_eq_some_iff, Option.pure_def, Option.some.injEq] at h
  obtain ⟨kind, hkind, value, hvalue, rfl⟩ := h
  simp only [Record.Holds, List.forall_mem_cons] at hheld
  obtain ⟨hkind', hvalue', -⟩ := hheld
  rw [RoundTrips.text.required hkind hkind', RoundTrips.text.required hvalue hvalue']
  rfl

/-- A profile is read back. -/
lemma Profile.roundTrips : RoundTrips ofDocument? toJson := by
  refine RoundTrips.record (fun _ => rfl) (by decide) fun r r' p h hheld => ?_
  simp only [Option.bind_eq_bind, Option.bind_eq_some_iff, Option.pure_def, Option.some.injEq] at h
  obtain ⟨id, hid, externalId, hexternalId, traits, htraits, identities, hidentities, rfl⟩ := h
  simp only [Record.Holds, List.forall_mem_cons] at hheld
  obtain ⟨hid', hexternalId', htraits', hidentities', -⟩ := hheld
  rw [RoundTrips.text.required hid hid', RoundTrips.text.optional rfl hexternalId hexternalId',
    RoundTrips.fields.orElse rfl htraits htraits',
    Identity.roundTrips.list.orElse rfl hidentities hidentities']
  rfl

/-- An event is read back. -/
lemma Event.roundTrips : RoundTrips ofDocument? toJson := by
  refine RoundTrips.record (fun _ => rfl) (by decide) fun r r' e h hheld => ?_
  simp only [Option.bind_eq_bind, Option.bind_eq_some_iff, Option.pure_def, Option.some.injEq] at h
  obtain ⟨profileId, hprofileId, name, hname, payload, hpayload, timestamp, htimestamp, rfl⟩ := h
  simp only [Record.Holds, List.forall_mem_cons] at hheld
  obtain ⟨hprofileId', hname', hpayload', htimestamp', -⟩ := hheld
  rw [RoundTrips.text.required hprofileId hprofileId', RoundTrips.text.required hname hname',
    RoundTrips.fields.orElse rfl hpayload hpayload',
    RoundTrips.timestamp.required htimestamp htimestamp']
  rfl

/-- A fixture is read back.

**Proof sketch.** Every member is read back. -/
lemma Fixture.roundTrips : RoundTrips ofDocument? toJson := by
  refine RoundTrips.record (fun _ => rfl) (by decide) fun r r' f h hheld => ?_
  simp only [Option.bind_eq_bind, Option.bind_eq_some_iff, Option.pure_def, Option.some.injEq] at h
  obtain ⟨projectId, hprojectId, eventSchemas, heventSchemas, profileProperties, hprofileProperties,
    computedSchemas, hcomputedSchemas, segments, hsegments, profiles, hprofiles, events, hevents,
    rfl⟩ := h
  simp only [Record.Holds, List.forall_mem_cons] at hheld
  obtain ⟨hprojectId', heventSchemas', hprofileProperties', hcomputedSchemas', hsegments',
    hprofiles', hevents', -⟩ := hheld
  rw [RoundTrips.text.required hprojectId hprojectId',
    EventSchema.Spec.roundTrips.list.orElse rfl heventSchemas heventSchemas',
    Field.Spec.roundTrips.list.orElse rfl hprofileProperties hprofileProperties',
    ComputedField.Spec.roundTrips.list.orElse rfl hcomputedSchemas hcomputedSchemas',
    Segment.Spec.roundTrips.list.orElse rfl hsegments hsegments',
    Profile.roundTrips.list.orElse rfl hprofiles hprofiles',
    Event.roundTrips.list.orElse rfl hevents hevents']
  rfl

namespace Report

/-! ### Reports -/

namespace Source.Spec

/-- What a column shows is read back from the members that say it, wherever they stand.

**Proof sketch.** By the word that was read, as for a timeframe; the members behind the word are
read from where they stand. -/
lemma ofDocument?_members {d : Document} {s : Spec} (h : ofDocument? d = some s)
    {written : List (String × Document)} (hlists : Lists written s.members) :
    ofDocument? (.object written) = some s := by
  simp only [ofDocument?, Option.bind_eq_bind, Option.bind_eq_some_iff] at h
  obtain ⟨t, -, h⟩ := h
  split at h
  case h_1 =>
    simp only [Option.bind_eq_some_iff, Option.pure_def, Option.some.injEq] at h
    obtain ⟨r, -, name, hname, rfl⟩ := h
    refine hlists.tagged_bind (by decide) fun rest hrest => ?_
    refine hrest.read?_bind (by simp) fun r' hheld => ?_
    simp only [Record.Holds, List.forall_mem_cons] at hheld
    rw [RoundTrips.text.required hname hheld.1]
    rfl
  case h_2 =>
    simp only [Option.bind_eq_some_iff, Option.pure_def, Option.some.injEq] at h
    obtain ⟨r, -, aggregate, haggregate, rfl⟩ := h
    refine hlists.tagged_bind (by decide) fun rest hrest => ?_
    refine hrest.read?_bind (by simp) fun r' hheld => ?_
    simp only [Record.Holds, List.forall_mem_cons] at hheld
    rw [(Aggregate.Spec.roundTrips true).required haggregate hheld.1]
    rfl
  case h_3 => cases h

end Source.Spec

/-- The format of a column is read back. -/
lemma roundTrips_format : RoundTrips (Wire.word Format.ofName?) fun f => .string f.name :=
  .word fun f => by cases f <;> decide

/-- A column is read back, with the members that say what it shows among its own.

**Proof sketch.** The members are those of the column and those of what it shows, and no name is in
both. Each part is read from the members with its names. -/
lemma Column.Spec.roundTrips : RoundTrips ofDocument? toJson := by
  intro d s h
  cases d with
  | object members =>
    simp only [ofDocument?, Option.bind_eq_bind, Option.bind_eq_some_iff, Option.pure_def,
      Option.some.injEq] at h
    obtain ⟨r, -, key, hkey, label, hlabel, source, hsource, format, hformat, rfl⟩ := h
    let own : List (String × Json) := [("key", .string key), ("label", .ofOption .string label),
      ("format", .ofOption (.string ·.name) format)]
    have hlists : Lists _ (own ++ source.members) :=
      .ofMembers (by cases source <;> simp [own, Source.Spec.members])
    have hown : Lists _ own := hlists.filter (· ∈ names)
      (by cases source <;> simp [own, names, Source.Spec.members])
    have hothers : Lists _ source.members := hlists.filter (· ∉ names)
      (by cases source <;> simp [own, names, Source.Spec.members])
    have hheld := hown.holds
    simp only [own, Record.Holds, List.forall_mem_cons] at hheld
    obtain ⟨hkey', hlabel', hformat', -⟩ := hheld
    change (Record.collect? names id _ >>= _) = _
    rw [hlists.collect?_eq fun _ _ => rfl, Option.bind_eq_bind, Option.bind_some,
      RoundTrips.text.required hkey hkey', RoundTrips.text.optional rfl hlabel hlabel',
      Source.Spec.ofDocument?_members hsource hothers,
      roundTrips_format.optional rfl hformat hformat']
    rfl
  | _ => cases h

/-- The column to sort by is read back. -/
lemma Sort.Spec.roundTrips : RoundTrips ofDocument? toJson := by
  refine RoundTrips.record (fun _ => rfl) (by decide) fun r r' s h hheld => ?_
  simp only [Option.bind_eq_bind, Option.bind_eq_some_iff, Option.pure_def, Option.some.injEq] at h
  obtain ⟨column, hcolumn, direction, hdirection, rfl⟩ := h
  have hword : RoundTrips (Wire.word Direction.ofName?) fun o => .string o.name :=
    .word fun o => by cases o <;> decide
  simp only [Record.Holds, List.forall_mem_cons] at hheld
  obtain ⟨hcolumn', hdirection', -⟩ := hheld
  rw [RoundTrips.text.required hcolumn hcolumn', hword.orElse rfl hdirection hdirection']
  rfl

/-- A number without a sign that may be missing is written as a whole number. -/
lemma ofOption_ofInt (n : Option ℕ) :
    Json.ofOption (.ofInt ·) n = Json.ofOption (fun m : ℕ => .ofInt m) n := by
  cases n <;> rfl

/-- A report is read back. -/
lemma Spec.roundTrips : RoundTrips ofDocument? toJson := by
  refine RoundTrips.record (fun _ => rfl) (by decide) fun r r' s h hheld => ?_
  simp only [Option.bind_eq_bind, Option.bind_eq_some_iff, Option.pure_def, Option.some.injEq] at h
  obtain ⟨columns, hcolumns, sort, hsort, page, hpage, pageSize, hpageSize, segmentId, hsegmentId,
    rfl⟩ := h
  simp only [Record.Holds, List.forall_mem_cons, ofOption_ofInt] at hheld
  obtain ⟨hcolumns', hsort', hpage', hpageSize', hsegmentId', -⟩ := hheld
  rw [Column.Spec.roundTrips.list.required hcolumns hcolumns',
    Sort.Spec.roundTrips.optional rfl hsort hsort', RoundTrips.nat64.optional rfl hpage hpage',
    RoundTrips.nat64.optional rfl hpageSize hpageSize',
    RoundTrips.uuid.optional rfl hsegmentId hsegmentId']
  rfl

/-! ### Tables -/

/-- What is told about a column is read back. -/
lemma Header.roundTrips : RoundTrips ofDocument? toJson := by
  refine RoundTrips.record (fun _ => rfl) (by decide) fun r r' header h hheld => ?_
  simp only [Option.bind_eq_bind, Option.bind_eq_some_iff, Option.pure_def, Option.some.injEq] at h
  obtain ⟨key, hkey, label, hlabel, format, hformat, numeric, hnumeric, rfl⟩ := h
  simp only [Record.Holds, List.forall_mem_cons] at hheld
  obtain ⟨hkey', hlabel', hformat', hnumeric', -⟩ := hheld
  rw [RoundTrips.text.required hkey hkey', RoundTrips.text.required hlabel hlabel',
    roundTrips_format.required hformat hformat', RoundTrips.bool.required hnumeric hnumeric']
  rfl

/-- A row is read back. -/
lemma Row.roundTrips : RoundTrips ofDocument? toJson := by
  refine RoundTrips.record (fun _ => rfl) (by decide) fun r r' row h hheld => ?_
  simp only [Option.bind_eq_bind, Option.bind_eq_some_iff, Option.pure_def, Option.some.injEq] at h
  obtain ⟨profileId, hprofileId, values, hvalues, degraded, hdegraded, rfl⟩ := h
  simp only [Record.Holds, List.forall_mem_cons] at hheld
  obtain ⟨hprofileId', hvalues', hdegraded', -⟩ := hheld
  rw [RoundTrips.text.required hprofileId hprofileId',
    RoundTrips.jsonList.required hvalues hvalues', RoundTrips.bool.required hdegraded hdegraded']
  rfl

/-- Where a page lies is read back. -/
lemma Pagination.roundTrips : RoundTrips ofDocument? toJson := by
  refine RoundTrips.record (fun _ => rfl) (by decide) fun r r' p h hheld => ?_
  simp only [Option.bind_eq_bind, Option.bind_eq_some_iff, Option.pure_def, Option.some.injEq] at h
  obtain ⟨page, hpage, pageSize, hpageSize, totalRows, htotalRows, totalPages, htotalPages, rfl⟩ :=
    h
  simp only [Record.Holds, List.forall_mem_cons] at hheld
  obtain ⟨hpage', hpageSize', htotalRows', htotalPages', -⟩ := hheld
  rw [RoundTrips.nat64.required hpage hpage', RoundTrips.nat64.required hpageSize hpageSize',
    RoundTrips.nat64.required htotalRows htotalRows',
    RoundTrips.nat64.required htotalPages htotalPages']
  rfl

/-- A table is read back. -/
lemma Table.roundTrips : RoundTrips ofDocument? toJson := by
  refine RoundTrips.record (fun _ => rfl) (by decide) fun r r' t h hheld => ?_
  simp only [Option.bind_eq_bind, Option.bind_eq_some_iff, Option.pure_def, Option.some.injEq] at h
  obtain ⟨columns, hcolumns, rows, hrows, pagination, hpagination, degraded, hdegraded, generatedAt,
    hgeneratedAt, rfl⟩ := h
  simp only [Record.Holds, List.forall_mem_cons] at hheld
  obtain ⟨hcolumns', hrows', hpagination', hdegraded', hgeneratedAt', -⟩ := hheld
  rw [Header.roundTrips.list.required hcolumns hcolumns',
    Row.roundTrips.list.required hrows hrows',
    Pagination.roundTrips.required hpagination hpagination',
    RoundTrips.bool.required hdegraded hdegraded',
    RoundTrips.timestamp.required hgeneratedAt hgeneratedAt']
  rfl

end Report

/-! ### All kinds -/

namespace Wire

/-- What is exchanged as JSON. Timeframes and aggregates stand alone or in the column of a report,
where the word of a timeframe may be given by its place. -/
inductive Kind where
  | constraint
  | timeframe (numbered : Bool)
  | aggregate (numbered : Bool)
  | field
  | eventSchema
  | computedField
  | threshold
  | filter
  | segment
  | profile
  | event
  | column
  | report
  | table
  | fixture

namespace Kind

/-- The values of a kind. -/
def Value : Kind → Type
  | constraint => Constraint.Spec
  | timeframe _ => Timeframe.Spec
  | aggregate _ => Aggregate.Spec
  | field => Field.Spec
  | eventSchema => EventSchema.Spec
  | computedField => ComputedField.Spec
  | threshold => Threshold.Spec
  | filter => Filter.Spec
  | segment => Segment.Spec
  | profile => Profile
  | event => Event
  | column => Report.Column.Spec
  | report => Report.Spec
  | table => Report.Table
  | fixture => Fixture

/-- How a value of a kind is read. -/
def read : (kind : Kind) → Reader kind.Value
  | constraint => Constraint.Spec.ofDocument?
  | timeframe numbered => Timeframe.Spec.ofDocument? numbered
  | aggregate numbered => Aggregate.Spec.ofDocument? numbered
  | field => Field.Spec.ofDocument?
  | eventSchema => EventSchema.Spec.ofDocument?
  | computedField => ComputedField.Spec.ofDocument?
  | threshold => Threshold.Spec.ofDocument?
  | filter => Filter.Spec.ofDocument?
  | segment => Segment.Spec.ofDocument?
  | profile => Profile.ofDocument?
  | event => Event.ofDocument?
  | column => Report.Column.Spec.ofDocument?
  | report => Report.Spec.ofDocument?
  | table => Report.Table.ofDocument?
  | fixture => Fixture.ofDocument?

/-- How a value of a kind is written. -/
def write : (kind : Kind) → kind.Value → Json
  | constraint => Constraint.Spec.toJson
  | timeframe _ => Timeframe.Spec.toJson
  | aggregate _ => Aggregate.Spec.toJson
  | field => Field.Spec.toJson
  | eventSchema => EventSchema.Spec.toJson
  | computedField => ComputedField.Spec.toJson
  | threshold => Threshold.Spec.toJson
  | filter => Filter.Spec.toJson
  | segment => Segment.Spec.toJson
  | profile => Profile.toJson
  | event => Event.toJson
  | column => Report.Column.Spec.toJson
  | report => Report.Spec.toJson
  | table => Report.Table.toJson
  | fixture => Fixture.toJson

/-- Readers and writers of every kind fit each other. -/
lemma roundTrips : (kind : Kind) → RoundTrips kind.read kind.write
  | constraint => Constraint.Spec.roundTrips
  | timeframe numbered => Timeframe.Spec.roundTrips numbered
  | aggregate numbered => Aggregate.Spec.roundTrips numbered
  | field => Field.Spec.roundTrips
  | eventSchema => EventSchema.Spec.roundTrips
  | computedField => ComputedField.Spec.roundTrips
  | threshold => Threshold.Spec.roundTrips
  | filter => Filter.Spec.roundTrips
  | segment => Segment.Spec.roundTrips
  | profile => Profile.roundTrips
  | event => Event.roundTrips
  | column => Report.Column.Spec.roundTrips
  | report => Report.Spec.roundTrips
  | table => Report.Table.roundTrips
  | fixture => Fixture.roundTrips

/-- **What was read is read back.** Whatever a document is read as, of any kind, what is written of
it is read as the same again, and what is written of that is the same JSON value.

**Proof sketch.** An object that was written lists the members by their names, so every member is
found there; and each was written from a value that was read, whose reader and writer fit each
other. Texts, words and whole numbers are written as they were read. A float that was read is
finite, a timestamp has a year that can be written and at most nine digits of a fraction, and the
members of a value repeat no name, so these are read back as well. -/
theorem read_write (kind : Kind) {d : Document} {a : kind.Value} (h : kind.read d = some a) :
    ∃ b, kind.read (kind.write a).toDocument = some b ∧ b = a ∧ kind.write b = kind.write a :=
  ⟨a, kind.roundTrips d a h, rfl, rfl⟩

/-! ### A filter -/

/-- A filter as it may be submitted: its constraint names no field and has one operand, which is
called `value`. -/
def purchasesDocument : Document :=
  .object [("event", .string "purchase"), ("filterType", .string "event"),
    ("constraints", .array [.object [("value", .number (.integer 3)), ("operator", .string "is"),
      ("dataType", .string "number")]]),
    ("timeframe", .object [("from", .string "2024-06-15T12:00:00.5+02:00"),
      ("type", .string "absolute")])]

/-- What the document is read as. -/
def purchases : Filter.Spec where
  filterType := "event"
  event := some "purchase"
  property := none
  constraints := [⟨"", "number", "is", [.number (.integer 3)]⟩]
  threshold := none
  timeframe := some (.absolute { seconds := 1718445600, nanos := 500000000 } none)

/-- The filter is read back. -/
theorem read_write_purchases :
    Kind.filter.read purchasesDocument = some purchases ∧
      ∃ b, Kind.filter.read (Kind.filter.write purchases).toDocument = some b ∧ b = purchases ∧
        Kind.filter.write b = Kind.filter.write purchases := by
  have hread : Filter.Spec.ofDocument? purchasesDocument = some purchases := by decide +kernel
  exact ⟨hread, read_write .filter hread⟩

end Kind

end Wire

end Cohort
