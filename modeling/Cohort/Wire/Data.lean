import Cohort.Fixture
import Cohort.Wire.Definition
set_option autoImplicit false

/-!
# Profiles, events and fixtures in JSON

## Main definitions

* `ofDocument?` and `toJson` of profiles, events and fixtures.
* `Cohort.Fixture.ofText?` — the fixture of a JSON text.
-/

namespace Cohort

open Json (Document)
open Wire (Record)

namespace Identity

/-- An identity. -/
def ofDocument? (d : Document) : Option Identity := do
  let r ← Record.read? ["kind", "value"] d
  return ⟨← r.required "kind" Wire.text, ← r.required "value" Wire.text⟩

/-- The JSON form of an identity. -/
def toJson (i : Identity) : Json :=
  .ofMembers [("kind", .string i.kind), ("value", .string i.value)]

end Identity

namespace Profile

/-- A profile. -/
def ofDocument? (d : Document) : Option Profile := do
  let r ← Record.read? ["id", "externalId", "traits", "identities"] d
  return { id := ← r.required "id" Wire.text
           externalId := ← r.optional "externalId" Wire.text
           traits := ← r.orElse "traits" .empty Wire.fields
           identities := ← r.orElse "identities" [] (Wire.list Identity.ofDocument?) }

/-- The JSON form of a profile. -/
def toJson (p : Profile) : Json :=
  .ofMembers [("id", .string p.id), ("externalId", .ofOption .string p.externalId),
    ("traits", .object p.traits.entries), ("identities", .array (p.identities.map Identity.toJson))]

end Profile

namespace Event

/-- An event. -/
def ofDocument? (d : Document) : Option Event := do
  let r ← Record.read? ["profileId", "eventName", "payload", "timestamp"] d
  return { profileId := ← r.required "profileId" Wire.text
           name := ← r.required "eventName" Wire.text
           payload := ← r.orElse "payload" .empty Wire.fields
           timestamp := ← r.required "timestamp" Wire.timestamp }

/-- The JSON form of an event. -/
def toJson (e : Event) : Json :=
  .ofMembers [("profileId", .string e.profileId), ("eventName", .string e.name),
    ("payload", .object e.payload.entries), ("timestamp", .string e.timestamp.write)]

end Event

namespace Fixture

/-- A fixture. -/
def ofDocument? (d : Document) : Option Fixture := do
  let r ← Record.read? ["projectId", "eventSchemas", "profileProperties", "computedSchemas",
    "segments", "profiles", "events"] d
  return { projectId := ← r.required "projectId" Wire.text
           eventSchemas := ← r.orElse "eventSchemas" [] (Wire.list EventSchema.Spec.ofDocument?)
           profileProperties :=
             ← r.orElse "profileProperties" [] (Wire.list Field.Spec.ofDocument?)
           computedSchemas :=
             ← r.orElse "computedSchemas" [] (Wire.list ComputedField.Spec.ofDocument?)
           segments := ← r.orElse "segments" [] (Wire.list Segment.Spec.ofDocument?)
           profiles := ← r.orElse "profiles" [] (Wire.list Profile.ofDocument?)
           events := ← r.orElse "events" [] (Wire.list Event.ofDocument?) }

/-- The JSON form of a fixture. -/
def toJson (f : Fixture) : Json :=
  .ofMembers [("projectId", .string f.projectId),
    ("eventSchemas", .array (f.eventSchemas.map EventSchema.Spec.toJson)),
    ("profileProperties", .array (f.profileProperties.map Field.Spec.toJson)),
    ("computedSchemas", .array (f.computedSchemas.map ComputedField.Spec.toJson)),
    ("segments", .array (f.segments.map Segment.Spec.toJson)),
    ("profiles", .array (f.profiles.map Profile.toJson)),
    ("events", .array (f.events.map Event.toJson))]

end Fixture

/-- How many lists and objects may be nested in a JSON text. -/
def Wire.nestingLimit : Nat := 127

/-- What a JSON text holds. -/
def Wire.ofText? {α : Type} (read : Wire.Reader α) (text : String) : Option α :=
  (Document.read? nestingLimit text).bind read

/-- The fixture of a JSON text. -/
def Fixture.ofText? (text : String) : Option Fixture :=
  Wire.ofText? ofDocument? text

end Cohort
