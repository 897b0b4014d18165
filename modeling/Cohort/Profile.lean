import Cohort.Index
import Cohort.Json.Coercion
set_option autoImplicit false

/-!
# Profiles and events

A profile has an identifier, traits and identities from other systems; an event belongs to a
profile. Attributes of a profile and properties of an event are looked up by name, and dotted names
lead into nested objects.

## Main definitions

* `Cohort.Profile` and `Cohort.Profile.attribute?`.
* `Cohort.Event` and `Cohort.Event.property?`.
-/

namespace Cohort

/-- An identity of a profile in another system, such as an address or a device. -/
structure Identity where
  /-- What kind of identity it is. -/
  kind : String
  /-- The identity itself. -/
  value : String
deriving DecidableEq

/-- A person, as far as known. -/
structure Profile where
  /-- The identifier within the project. -/
  id : String
  /-- The identifier in another system. -/
  externalId : Option String
  /-- Anything else that is known. -/
  traits : Index String Json
  /-- The identities, in the order in which they were linked. -/
  identities : List Identity
deriving DecidableEq

namespace Profile

/-- The kind of identity that an attribute name asks for. -/
def identityKind? (name : String) : Option String :=
  match name.toList with
  | 'i' :: 'd' :: 'e' :: 'n' :: 't' :: 'i' :: 't' :: 'i' :: 'e' :: 's' :: '.' :: kind =>
    some (String.ofList kind)
  | _ => none

/-- The first identity of a kind. -/
def identity? (p : Profile) (kind : String) : Option String :=
  (p.identities.find? (·.kind = kind)).map Identity.value

/-- The attribute with a name: an identifier, a trait, an identity, or a member of a nested trait,
whichever comes first. The names of identifiers and identities lead nowhere else. -/
def attribute? (p : Profile) (name : String) : Option Json :=
  if name = "id" || name = "profile_id" then some (.string p.id)
  else if name = "external_id" || name = "externalId" then p.externalId.map .string
  else match p.traits.get? name with
    | some v => some v
    | none =>
      match identityKind? name with
      | some kind => (p.identity? kind).map .string
      | none => Json.Fields.path? p.traits.entries name

end Profile

/-- Something that a person did. -/
structure Event where
  /-- The profile of the person. -/
  profileId : String
  /-- What was done. -/
  name : String
  /-- The details. -/
  payload : Index String Json
  /-- When it was done. -/
  timestamp : Instant
deriving DecidableEq

/-- The property with a name: a member of the payload, or of an object in it. -/
def Event.property? (e : Event) (name : String) : Option Json :=
  (e.payload.get? name).or (Json.Fields.path? e.payload.entries name)

end Cohort
