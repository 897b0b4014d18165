import Mathlib.Data.List.Nodup
import Cohort.Json.Document
import Cohort.Proofs.Index
set_option relaxedAutoImplicit false
set_option autoImplicit false

/-!
# Members and documents of JSON values

An object that was made from members in any order lists them as an index does: in the order of their
names, each name once. So the order of the members does not matter as long as no name is repeated,
and a value that a document names is also the value that its own document names.

## Main results

* `Cohort.Json.Fields.ofList_eq_entries` — the members of an object are those of an index.
* `Cohort.Json.Fields.mem_ofList`, `Cohort.Json.Fields.mem_ofList_cons` — which members are kept.
* `Cohort.Json.Document.value?_toDocument` — a value that a document names is named by its own.
-/

namespace Cohort

namespace Index

variable {κ : Type} [LT κ] {α : Type} [DecidableEq κ] [Key κ] [DecidableLT κ]

/-- An index is made of what it lists. -/
lemma ofList_entries (index : Index κ α) : ofList index.entries = index := by
  have hsame : ∀ e ∈ index.entries, ∀ e' ∈ index.entries, e.1 = e'.1 → e.2 = e'.2 := by
    rintro ⟨k, a⟩ he ⟨_, b⟩ he' rfl
    rw [mem_entries] at he he'
    exact Option.some.inj (he.symm.trans he')
  refine ext_get? fun k => Option.ext fun a => ?_
  rw [get?_ofList hsame, mem_entries]

/-- Of two lists of entries the second counts where it has the key. -/
lemma get?_ofList_append (as bs : List (κ × α)) (k : κ) :
    (ofList (as ++ bs)).get? k = ((ofList bs).get? k).or ((ofList as).get? k) := by
  induction bs using List.reverseRecOn with
  | nil => simp [ofList]
  | append_singleton bs e ih =>
    rw [← List.append_assoc, ofList_concat, ofList_concat, get?_insert, get?_insert, ih]
    split <;> rfl

end Index

namespace Json

/-! ### Members of objects -/

namespace Fields

/-- A member is inserted in the order of names. -/
lemma insert_eq_put (name : String) (value : Json) (fields : Fields) :
    fields.insert name value = Index.put name value fields := by
  induction fields with
  | nil => rfl
  | cons member rest ih => rw [insert, Index.put, ih]

/-- The last member is inserted among those before it. -/
lemma ofList_concat (members : List (String × Json)) (member : String × Json) :
    ofList (members ++ [member]) = (ofList members).insert member.1 member.2 := by
  simp [ofList, List.foldl_append]

/-- The members of an object are listed as in an index. -/
theorem ofList_eq_entries (members : List (String × Json)) :
    ofList members = (Index.ofList members).entries := by
  induction members using List.reverseRecOn with
  | nil => rfl
  | append_singleton members member ih =>
    rw [ofList_concat, Index.ofList_concat, ih, insert_eq_put]
    rfl

/-- No name is listed twice. -/
lemma nodup_ofList (members : List (String × Json)) :
    ((ofList members).map Prod.fst).Nodup := by
  rw [ofList_eq_entries]
  exact Index.nodup_keys _

/-- Members in order stay as they are. -/
lemma ofList_ofList (members : List (String × Json)) :
    ofList (ofList members) = ofList members := by
  rw [ofList_eq_entries members, ofList_eq_entries, Index.ofList_entries]

/-- Only members that were given are listed. -/
lemma mem_of_mem_ofList {members : List (String × Json)} {member : String × Json}
    (h : member ∈ ofList members) : member ∈ members := by
  induction members using List.reverseRecOn with
  | nil => simp [ofList] at h
  | append_singleton members last ih =>
    rw [ofList_concat, insert_eq_put] at h
    rcases Index.mem_put h with rfl | h
    · exact List.mem_append_right _ List.mem_cons_self
    · exact List.mem_append_left _ (ih h)

/-- Members without repeated names are all listed. -/
theorem mem_ofList {members : List (String × Json)} (h : (members.map Prod.fst).Nodup)
    {member : String × Json} : member ∈ ofList members ↔ member ∈ members := by
  have hsame : ∀ e ∈ members, ∀ e' ∈ members, e.1 = e'.1 → e.2 = e'.2 := fun e he e' he' heq =>
    congrArg Prod.snd (List.inj_on_of_nodup_map h he he' heq)
  obtain ⟨name, value⟩ := member
  rw [ofList_eq_entries, Index.mem_entries, Index.get?_ofList hsame]

/-- A member in front of others that repeat no name is listed too, unless one of them has its
name.

**Proof sketch.** By whether one of the others has the name that is looked up. If so it comes later
and is the one that is listed; if not, the member in front is. -/
theorem mem_ofList_cons {first : String × Json} {members : List (String × Json)}
    (h : (members.map Prod.fst).Nodup) {member : String × Json} :
    member ∈ ofList (first :: members) ↔
      member ∈ members ∨ member = first ∧ first.1 ∉ members.map Prod.fst := by
  obtain ⟨name, value⟩ := member
  have hrest : ∀ v, (Index.ofList members).get? name = some v ↔ (name, v) ∈ members := fun v => by
    rw [← Index.mem_entries, ← ofList_eq_entries, mem_ofList h]
  have hsingle : ([first].map Prod.fst).Nodup := List.nodup_singleton first.1
  have hfirst : (Index.ofList [first]).get? name = some value ↔ (name, value) = first := by
    rw [← Index.mem_entries, ← ofList_eq_entries, mem_ofList hsingle, List.mem_singleton]
  have hsplit := Index.get?_ofList_append [first] members name
  rw [List.singleton_append] at hsplit
  rw [ofList_eq_entries, Index.mem_entries, hsplit]
  -- a later member with the name hides the first one
  cases hfound : (Index.ofList members).get? name with
  | some v =>
    have hname : name ∈ members.map Prod.fst := List.mem_map_of_mem ((hrest v).1 hfound)
    rw [Option.some_or, ← hfound, hrest]
    constructor
    · exact Or.inl
    · rintro (hmem | ⟨rfl, hnew⟩)
      · exact hmem
      · exact absurd hname hnew
  | none =>
    have hname : name ∉ members.map Prod.fst := by
      rintro hmem
      obtain ⟨⟨_, v⟩, hv, rfl⟩ := List.mem_map.1 hmem
      rw [(hrest v).2 hv] at hfound
      cases hfound
    rw [Option.none_or, hfirst]
    constructor
    · rintro rfl
      exact .inr ⟨rfl, hname⟩
    · rintro (hmem | ⟨heq, -⟩)
      · exact absurd (List.mem_map_of_mem hmem) hname
      · exact heq

end Fields

/-! ### Documents of values -/

/-- Lists are written element by element. -/
lemma toDocuments_eq_map (vs : List Json) : toDocuments vs = vs.map toDocument := by
  induction vs with
  | nil => rfl
  | cons v vs ih => rw [toDocuments, ih, List.map_cons]

/-- Objects are written member by member. -/
lemma toMembers_eq_map (members : List (String × Json)) :
    toMembers members = members.map fun member => (member.1, member.2.toDocument) := by
  induction members with
  | nil => rfl
  | cons member members ih => rw [toMembers, ih, List.map_cons]

mutual

/-- The document of a value names a value. -/
lemma isSome_value?_toDocument : (v : Json) → v.toDocument.value?.isSome = true
  | .null => rfl
  | .bool _ => rfl
  | .number _ => rfl
  | .string _ => rfl
  | .array items => by
    rw [toDocument, Document.value?, Option.isSome_map]
    exact isSome_items?_toDocuments items
  | .object fields => by
    rw [toDocument, Document.value?, Option.isSome_map]
    exact isSome_members?_toMembers fields

/-- The elements of a list that is written can be read. -/
lemma isSome_items?_toDocuments : (vs : List Json) →
    (Document.items? (toDocuments vs)).isSome = true
  | [] => rfl
  | v :: vs => by
    obtain ⟨w, hw⟩ := Option.isSome_iff_exists.1 (isSome_value?_toDocument v)
    obtain ⟨ws, hws⟩ := Option.isSome_iff_exists.1 (isSome_items?_toDocuments vs)
    rw [toDocuments, Document.items?, hw, hws]
    rfl

/-- The members of an object that is written can be read. -/
lemma isSome_members?_toMembers : (members : List (String × Json)) →
    (Document.members? (toMembers members)).isSome = true
  | [] => rfl
  | (name, v) :: members => by
    obtain ⟨w, hw⟩ := Option.isSome_iff_exists.1 (isSome_value?_toDocument v)
    obtain ⟨ws, hws⟩ := Option.isSome_iff_exists.1 (isSome_members?_toMembers members)
    rw [toMembers, Document.members?, hw, hws]
    rfl

end

namespace Document

/-- Elements that are found again on their own are found again in a list. -/
lemma items?_toDocuments {vs : List Json} (h : ∀ v ∈ vs, v.toDocument.value? = some v) :
    items? (toDocuments vs) = some vs := by
  induction vs with
  | nil => rfl
  | cons v vs ih =>
    rw [toDocuments, items?, h v List.mem_cons_self, ih fun w hw => h w (List.mem_cons_of_mem _ hw)]
    rfl

/-- Members that are found again on their own are found again in an object. -/
lemma members?_toMembers {members : List (String × Json)}
    (h : ∀ member ∈ members, member.2.toDocument.value? = some member.2) :
    members? (toMembers members) = some members := by
  induction members with
  | nil => rfl
  | cons member members ih =>
    rw [toMembers, members?, h member List.mem_cons_self,
      ih fun other hother => h other (List.mem_cons_of_mem _ hother)]
    rfl

mutual

/-- A value that a document names is also the value that its own document names.

**Proof sketch.** By induction on the document. The members of an object are among those that were
read, so their documents name them, and they are in order already. -/
theorem value?_toDocument {v : Json} : (d : Document) → d.value? = some v →
    v.toDocument.value? = some v
  | .hole, h => by cases h
  | .null, h => by cases h; rfl
  | .bool _, h => by cases h; rfl
  | .number _, h => by cases h; rfl
  | .string _, h => by cases h; rfl
  | .array items, h => by
    obtain ⟨vs, hvs, rfl⟩ := Option.map_eq_some_iff.1 h
    rw [toDocument, value?, items?_toDocuments (value?_toDocument_items items hvs)]
    rfl
  | .object members, h => by
    obtain ⟨read, hread, rfl⟩ := Option.map_eq_some_iff.1 h
    have hnamed := value?_toDocument_members members hread
    rw [ofMembers, toDocument, value?,
      members?_toMembers fun member hmember => hnamed member (Fields.mem_of_mem_ofList hmember),
      Option.map_some, ofMembers, Fields.ofList_ofList]

/-- The elements of a list that is read are found again when they are written. -/
lemma value?_toDocument_items {vs : List Json} : (items : List Document) →
    items? items = some vs → ∀ v ∈ vs, v.toDocument.value? = some v
  | [], h => by cases h; simp
  | d :: ds, h => by
    simp only [items?, Option.bind_eq_bind, Option.bind_eq_some_iff, Option.pure_def,
      Option.some.injEq] at h
    obtain ⟨v, hv, rest, hrest, rfl⟩ := h
    rw [List.forall_mem_cons]
    exact ⟨value?_toDocument d hv, value?_toDocument_items ds hrest⟩

/-- The members of an object that is read are found again when they are written. -/
lemma value?_toDocument_members {read : List (String × Json)} :
    (members : List (String × Document)) → members? members = some read →
      ∀ member ∈ read, member.2.toDocument.value? = some member.2
  | [], h => by cases h; simp
  | (name, d) :: ds, h => by
    simp only [members?, Option.bind_eq_bind, Option.bind_eq_some_iff, Option.pure_def,
      Option.some.injEq] at h
    obtain ⟨v, hv, rest, hrest, rfl⟩ := h
    rw [List.forall_mem_cons]
    exact ⟨value?_toDocument d hv, value?_toDocument_members ds hrest⟩

end

end Document

end Json

end Cohort
