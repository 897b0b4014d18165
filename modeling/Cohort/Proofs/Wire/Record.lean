import Mathlib.Data.List.Nodup
import Mathlib.Tactic.Lemma
import Cohort.Proofs.Instant.Text
import Cohort.Proofs.Json.Document
import Cohort.Proofs.Json.Number
import Cohort.Proofs.Uuid
import Cohort.Wire.Record
set_option relaxedAutoImplicit false
set_option autoImplicit false

/-!
# Records read back

A reader and a writer fit each other if whatever was read is read again from what is written of it.
What is written of a record is an object that lists the members by their names, so a member is
looked up there by its name alone, wherever the writer put it; and a record fits its writer if the
readers of its members fit theirs.

## Main definitions

* `Cohort.Wire.RoundTrips` — whatever was read is read again from what is written of it.
* `Cohort.Wire.Lists` — certain members, in any order.
* `Cohort.Wire.Record.Holds` — a record has certain members.

## Main results

* `Cohort.Wire.RoundTrips.list` — lists are read back if their items are.
* `Cohort.Wire.Lists.read?_bind`, `Cohort.Wire.Lists.tagged_bind` — what is made of a record, and of
  a tagged one, that was written.
* `Cohort.Wire.RoundTrips.required`, `Cohort.Wire.RoundTrips.optional`,
  `Cohort.Wire.RoundTrips.orElse` — members are read back if their values are.
* `Cohort.Wire.RoundTrips.record` — records are read back if their members are.
-/

namespace Cohort.Wire

open Json (Document)

/-- Whatever was read is read again from what is written of it. -/
def RoundTrips {α : Type} (read : Reader α) (write : α → Json) : Prop :=
  ∀ (d : Document) (a : α), read d = some a → read (write a).toDocument = some a

/-! ### Values -/

namespace RoundTrips

variable {α : Type}

/-- A text is read back. -/
theorem text : RoundTrips text .string := fun _ _ _ => rfl

/-- A truth value is read back. -/
theorem bool : RoundTrips bool .bool := fun _ _ _ => rfl

/-- A value is read back: the document that it came from may have repeated names, but its own does
not. -/
theorem json : RoundTrips json id := fun d _ h => Document.value?_toDocument d h

/-- A whole number with a sign is read back. -/
theorem int64 : RoundTrips int64 .ofInt := by
  intro d n h
  match d, h with
  | .number (.integer m hm), h =>
    simp only [Wire.int64, Json.Number.toInt64?, Option.ite_none_right_eq_some,
      Option.some.injEq] at h
    obtain ⟨hlt, rfl⟩ := h
    rw [Json.ofInt, Json.Number.ofInt?, dif_pos hm]
    exact if_pos hlt

/-- A whole number without a sign is read back. -/
theorem nat64 : RoundTrips nat64 fun n => .ofInt n := by
  intro d n h
  match d, h with
  | .number (.integer m hm), h =>
    simp only [Wire.nat64, Json.Number.toNat64?, Option.ite_none_right_eq_some,
      Option.some.injEq] at h
    obtain ⟨hnonneg, rfl⟩ := h
    change Wire.nat64 (Json.ofInt m.toNat).toDocument = some m.toNat
    rw [Int.toNat_of_nonneg hnonneg, Json.ofInt, Json.Number.ofInt?, dif_pos hm]
    exact if_pos hnonneg

/-- A float is read back: none that was read is infinite. -/
theorem float : RoundTrips float .ofFloat := by
  intro d x h
  match d, h with
  | .number n, h =>
    obtain rfl : n.toFloat = x := Option.some.inj h
    rw [Json.ofFloat, Json.Number.ofFloat?, dif_pos n.isFinite_toFloat]
    rfl

/-- A timestamp is read back, whatever its year and its fraction of a second. -/
theorem timestamp : RoundTrips timestamp fun t => .string t.write := by
  intro d t h
  cases d with
  | string s => exact Instant.ofTimestamp?_write (Instant.regular_of_ofTimestamp? h)
  | _ => cases h

/-- An identifier is read back. -/
theorem uuid : RoundTrips uuid fun id => .string id.write :=
  fun _ id _ => id.ofText?_write

/-- One of several words is read back if it is the name of what it stands for. -/
theorem word {ofName? : String → Option α} {name : α → String}
    (h : ∀ a, ofName? (name a) = some a) : RoundTrips (word ofName?) fun a => .string (name a) :=
  fun _ a _ => h a

/-- Values under names are read back: those that were read are in order and repeat no name. -/
theorem fields : RoundTrips fields fun index => .object index.entries := by
  intro d index h
  cases d with
  | object members =>
    obtain ⟨read, hread, rfl⟩ := Option.map_eq_some_iff.1 h
    have hnamed := Document.value?_toDocument_members members hread
    change Wire.fields (Json.object (Index.ofList read).entries).toDocument = _
    rw [← Json.Fields.ofList_eq_entries, Json.toDocument, Wire.fields,
      Document.members?_toMembers fun member h => hnamed member (Json.Fields.mem_of_mem_ofList h),
      Option.map_some, Json.Fields.ofList_eq_entries, Index.ofList_entries]
  | _ => cases h

/-- A list is read back if its items are.

**Proof sketch.** Induction on the items. -/
theorem list {read : Reader α} {write : α → Json} (h : RoundTrips read write) :
    RoundTrips (list read) fun as => .array (as.map write) := by
  intro d as hread
  cases d with
  | array items =>
    rw [Json.toDocument, Json.toDocuments_eq_map]
    change items.mapM read = some as at hread
    change (((as.map write).map Json.toDocument).mapM read) = some as
    induction items generalizing as with
    | nil =>
      cases hread
      rfl
    | cons item items ih =>
      simp only [List.mapM_cons, Option.bind_eq_bind, Option.bind_eq_some_iff, Option.pure_def,
        Option.some.injEq] at hread
      obtain ⟨a, ha, rest, hrest, rfl⟩ := hread
      simp only [List.map_cons, List.mapM_cons, h item a ha, ih rest hrest, Option.bind_eq_bind,
        Option.bind_some, Option.pure_def]
  | _ => cases hread

/-- A list of values is read back. -/
theorem jsonList : RoundTrips (Wire.list Wire.json) .array := by
  simpa using json.list

end RoundTrips

/-! ### Members of records -/

/-- Certain members, in any order; no two of them have the same name. -/
structure Lists (members : List (String × Document)) (written : List (String × Json)) : Prop where
  /-- They are the members that were written. -/
  perm : members.Perm (Json.toMembers written)
  /-- No name is repeated. -/
  nodup : (written.map Prod.fst).Nodup

/-- A record has certain members. -/
def Record.Holds (r : Record) (written : List (String × Json)) : Prop :=
  ∀ member ∈ written, r.lookup member.1 = some member.2.toDocument

namespace Lists

variable {members : List (String × Document)} {written : List (String × Json)}

/-- An object lists the members that it was made from. -/
lemma ofMembers (h : (written.map Prod.fst).Nodup) :
    Lists (Json.toMembers (Json.Fields.ofList written)) written := by
  have hperm : (Json.Fields.ofList written).Perm written :=
    (List.perm_ext_iff_of_nodup (Json.Fields.nodup_ofList written).of_map h.of_map).2
      fun _ => Json.Fields.mem_ofList h
  refine ⟨?_, h⟩
  rw [Json.toMembers_eq_map, Json.toMembers_eq_map]
  exact hperm.map _

/-- The names are those of the written members, in another order. -/
lemma names_perm (h : Lists members written) :
    (members.map Prod.fst).Perm (written.map Prod.fst) := by
  have hnames := h.perm.map Prod.fst
  rw [Json.toMembers_eq_map, List.map_map] at hnames
  exact hnames

/-- Leaving out members by their names leaves the others. -/
lemma filter (h : Lists members written) (p : String → Bool) {kept : List (String × Json)}
    (hkept : written.filter (fun member => p member.1) = kept) :
    Lists (members.filter fun member => p member.1) kept := by
  subst hkept
  refine ⟨?_, h.nodup.sublist (List.filter_sublist.map _)⟩
  have hperm := h.perm.filter fun member => p member.1
  rw [Json.toMembers_eq_map, List.filter_map] at hperm
  rw [Json.toMembers_eq_map]
  exact hperm

/-- A member is found under its name.

**Proof sketch.** Induction on the record, in which no name is repeated, so what stands before the
member has another name. -/
lemma holds {r : Record} (h : Lists r written) : r.Holds written := by
  rintro ⟨name, value⟩ hmember
  have hmem : (name, value.toDocument) ∈ r := by
    rw [h.perm.mem_iff, Json.toMembers_eq_map]
    exact List.mem_map_of_mem hmember
  have hnodup : (r.map Prod.fst).Nodup := h.names_perm.nodup_iff.2 h.nodup
  clear h
  induction r with
  | nil => cases hmem
  | cons first rest ih =>
    rw [List.map_cons, List.nodup_cons] at hnodup
    rcases List.mem_cons.1 hmem with rfl | hmem
    · exact List.lookup_cons_self
    · have hne : name ≠ first.1 := fun heq => hnodup.1 (heq ▸ List.mem_map_of_mem hmem)
      rw [List.lookup_cons, beq_false_of_ne hne]
      exact ih hmem hnodup.2

/-- Members of which none is repeated are collected as they are, apart from those with other
names.

**Proof sketch.** Induction on the members. The name of each one is new to those behind it. -/
lemma collect?_eq {names : List String} {canonical : String → String}
    (h : Lists members written) (hcanonical : ∀ member ∈ written, canonical member.1 = member.1) :
    Record.collect? names canonical members =
      some (members.filter fun member => member.1 ∈ names) := by
  have hnodup : (members.map Prod.fst).Nodup := h.names_perm.nodup_iff.2 h.nodup
  have hspelled : ∀ name ∈ members.map Prod.fst, canonical name = name := by
    intro name hname
    obtain ⟨member, hmember, rfl⟩ := List.mem_map.1 (h.names_perm.mem_iff.1 hname)
    exact hcanonical member hmember
  clear h
  induction members with
  | nil => rfl
  | cons member members ih =>
    obtain ⟨name, d⟩ := member
    rw [List.map_cons, List.nodup_cons] at hnodup
    rw [List.map_cons, List.forall_mem_cons] at hspelled
    have hnew : (members.filter fun member => member.1 ∈ names).lookup name = none := by
      rw [List.lookup_eq_none_iff]
      intro other hother
      have hmem := List.mem_map_of_mem (f := Prod.fst) (List.mem_filter.1 hother).1
      exact bne_iff_ne.2 fun heq => hnodup.1 (heq ▸ hmem)
    simp only [Record.collect?, ih hnodup.2 hspelled.2, hspelled.1, Option.bind_eq_bind,
      Option.bind_some, hnew]
    by_cases hname : name ∈ names <;> simp [hname]

section Reading

variable {α : Type} {names : List String} {a : α}

/-- What is made of a record that was written, where some names have other spellings, is made of one
that has all its members. -/
theorem readSpelled?_bind {canonical : String → String} {make : Record → Option α}
    (h : Lists members written)
    (hnames : ∀ member ∈ written, member.1 ∈ names ∧ canonical member.1 = member.1)
    (hmake : ∀ r : Record, r.Holds written → make r = some a) :
    (Record.readSpelled? names canonical (.object members) >>= make) = some a := by
  have hall : written.filter (fun member => member.1 ∈ names) = written :=
    List.filter_eq_self.2 fun member hmember => decide_eq_true (hnames member hmember).1
  rw [Record.readSpelled?, h.collect?_eq fun member hmember => (hnames member hmember).2]
  exact hmake _ (h.filter (· ∈ names) hall).holds

/-- What is made of a record that was written is made of one that has all its members. -/
theorem read?_bind {make : Record → Option α} (h : Lists members written)
    (hnames : ∀ member ∈ written, member.1 ∈ names)
    (hmake : ∀ r : Record, r.Holds written → make r = some a) :
    (Record.read? names (.object members) >>= make) = some a :=
  h.readSpelled?_bind (fun member hmember => ⟨hnames member hmember, rfl⟩) hmake

/-- What is made of a tagged record that was written is made of its word and of its other
members.

**Proof sketch.** The members are split by their names. The one with the type has the word, and the
others are what was written beside it, in any order. -/
theorem tagged_bind {words : List String} {word : String} {numbered : Bool}
    {make : Tagged → Option α} (h : Lists members (("type", .string word) :: written))
    (hword : word ∈ words)
    (hmake : ∀ rest, Lists rest written → make ⟨word, .object rest⟩ = some a) :
    (Wire.tagged words numbered (.object members) >>= make) = some a := by
  have hreadable : members.all (isReadable ·.2) = true := by
    rw [List.all_eq_true]
    intro member hmember
    rw [h.perm.mem_iff, Json.toMembers_eq_map, List.mem_map] at hmember
    obtain ⟨source, -, rfl⟩ := hmember
    exact Json.isSome_value?_toDocument source.2
  -- the member with the type is the only one of that name
  have hnew : ∀ member ∈ written, member.1 ≠ "type" := by
    intro member hmember heq
    have hnodup : "type" ∉ written.map Prod.fst := (List.nodup_cons.1 h.nodup).1
    exact hnodup (heq ▸ List.mem_map_of_mem hmember)
  -- the members are split into that one and the others
  have hfirst : Lists (members.filter fun member => member.1 ∈ ["type"])
      [("type", .string word)] := by
    refine h.filter (· ∈ ["type"]) ?_
    rw [List.filter_cons_of_pos (by simp), List.filter_eq_nil_iff.2 (by simpa using hnew)]
  have hrest : Lists (members.filter fun member => member.1 ≠ "type") written := by
    refine h.filter (· ≠ "type") ?_
    rw [List.filter_cons_of_neg (by simp), List.filter_eq_self.2 (by simpa using hnew)]
  have hrequired : Record.required (members.filter fun member => member.1 ∈ ["type"]) "type"
      (tag words numbered) = some word := by
    rw [Record.required, hfirst.holds _ List.mem_cons_self]
    exact if_pos hword
  have hcollect : Record.collect? ["type"] id members =
      some (members.filter fun member => member.1 ∈ ["type"]) := h.collect?_eq fun _ _ => rfl
  have htagged : Wire.tagged words numbered (.object members) =
      some ⟨word, .object (members.filter fun member => member.1 ≠ "type")⟩ := by
    rw [Wire.tagged, hreadable, hcollect, Option.bind_eq_bind, Option.bind_eq_bind,
      Option.bind_some, hrequired]
    rfl
  rw [htagged]
  exact hmake _ hrest

end Reading

end Lists

/-! ### Values of members -/

namespace RoundTrips

variable {α : Type} {read : Reader α} {write : α → Json} {r r' : Record} {name : String}

/-- The value of a member that has to be there is read back. -/
theorem required (h : RoundTrips read write) {a : α} (hread : r.required name read = some a)
    (hwritten : r'.lookup name = some (write a).toDocument) : r'.required name read = some a := by
  obtain ⟨d, -, hd⟩ := Option.bind_eq_some_iff.1 hread
  rw [Record.required, hwritten, Option.bind_some]
  exact h d a hd

/-- The value of a member that has a default is read back if the default is; it is written even
where it was missing. -/
theorem orElse (h : RoundTrips read write) {default a : α}
    (hdefault : read (write default).toDocument = some default)
    (hread : r.orElse name default read = some a)
    (hwritten : r'.lookup name = some (write a).toDocument) :
    r'.orElse name default read = some a := by
  rw [Record.orElse, hwritten]
  rw [Record.orElse] at hread
  cases hfound : r.lookup name with
  | none =>
    rw [hfound] at hread
    cases hread
    exact hdefault
  | some d =>
    rw [hfound] at hread
    exact h d a hread

/-- The value of a member that may be missing is read back if null is not a value of its own; it is
written as null where it was missing.

**Proof sketch.** A value that is there was read from something, so what it is written as is read;
and null is not. -/
theorem optional (h : RoundTrips read write) (hnull : read .null = none) {value : Option α}
    (hread : r.optional name read = some value)
    (hwritten : r'.lookup name = some (Json.ofOption write value).toDocument) :
    r'.optional name read = some value := by
  cases value with
  | none => simp [Record.optional, hwritten, Json.ofOption, Json.toDocument]
  | some a =>
    obtain ⟨d, hd⟩ : ∃ d, read d = some a := by
      rw [Record.optional] at hread
      split at hread
      · cases hread
      · cases hread
      · obtain ⟨b, hb, heq⟩ := Option.map_eq_some_iff.1 hread
        cases heq
        exact ⟨_, hb⟩
    have hagain := h d a hd
    rw [Record.optional, hwritten, Json.ofOption]
    -- a value that was read is not written as null, since null is not read
    cases hdoc : (write a).toDocument with
    | null =>
      rw [hdoc, hnull] at hagain
      cases hagain
    | _ =>
      rw [hdoc] at hagain
      simp [hagain]

/-! ### Records -/

/-- A record whose names may have other spellings is read back if what is made of its members is
made again of the members that are written of it. -/
theorem spelledRecord {names : List String} {canonical : String → String}
    {make : Record → Option α} {members : α → List (String × Json)}
    (hnames : ∀ a, (members a).map Prod.fst = names) (hnodup : names.Nodup)
    (hcanonical : ∀ name ∈ names, canonical name = name)
    (hmake : ∀ (r r' : Record) (a : α), make r = some a → r'.Holds (members a) →
      make r' = some a) :
    RoundTrips (fun d => Record.readSpelled? names canonical d >>= make) fun a =>
      .ofMembers (members a) := by
  intro d a h
  obtain ⟨r, -, hr⟩ := Option.bind_eq_some_iff.1 h
  have hlists : Lists _ (members a) := .ofMembers (hnames a ▸ hnodup)
  refine hlists.readSpelled?_bind (fun member hmember => ?_) fun r' hheld => hmake r r' a hr hheld
  have hname : member.1 ∈ names := hnames a ▸ List.mem_map_of_mem hmember
  exact ⟨hname, hcanonical _ hname⟩

/-- A record is read back if what is made of its members is made again of the members that are
written of it. -/
theorem record {names : List String} {make : Record → Option α} {members : α → List (String × Json)}
    (hnames : ∀ a, (members a).map Prod.fst = names) (hnodup : names.Nodup)
    (hmake : ∀ (r r' : Record) (a : α), make r = some a → r'.Holds (members a) →
      make r' = some a) :
    RoundTrips (fun d => Record.read? names d >>= make) fun a => .ofMembers (members a) :=
  spelledRecord hnames hnodup (fun _ _ => rfl) hmake

end RoundTrips

end Cohort.Wire
