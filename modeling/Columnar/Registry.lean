import Columnar.Column
import Columnar.Value.Read
/-!
# Components, archetypes and their registry

A component is a type of values under a name of its own.  Its values make a column.  What is
known of a component by its name alone is its entry: the name and the layout of its columns.
An archetype is a record of fields, each of which holds a collection of one component's
values.  A field may be left unset.

Components and archetypes are known by name.  The first to ask under a name is registered, and
from then on every one that asks under that name gets that entry, even if it is another type.
An entry never changes and never goes.  Registering an archetype registers the components of
its fields first.

A call asks for the entry of a component or of an archetype, or looks a name up.
`Registry.after` is what calls leave of the empty registry.  Who has a name can be told from
the calls alone: a component claims its name when it is asked for, and when the first
archetype of some name is asked for that has such a field.  The first to claim a name has it,
whoever claims it later.
-/

namespace Columnar

/-- A type of values that makes columns of its own. -/
structure Component where
  /-- The full name, as in `arrowlog.components.Text`. -/
  name : String
  type : ValueType
deriving DecidableEq

/-- The values of a component. -/
abbrev Component.Datum (c : Component) : Type := c.type.Datum

/-- The component as a type of values, under its name. -/
def Component.toValueType (c : Component) : ValueType := .named c.name c.type

/-- What is known of a component by its name. -/
structure ComponentEntry where
  name : String
  layout : Layout
deriving DecidableEq

/-- The entry that a component makes for itself when its name is free: with its own layout. -/
def Component.entry (c : Component) : ComponentEntry := ⟨c.name, c.type.layout⟩

namespace ComponentEntry

/-- The datatype of the component's columns. -/
def dataType (e : ComponentEntry) : DataType := e.layout.toDataType

/-- Accepts exactly the chunks of the datatype in the entry; others are refused as mismatches before
anything is read. -/
def check (e : ComponentEntry) (chunk : Chunk) : Except Fault Unit :=
  if chunk.dataType = e.dataType then .ok ()
  else .error (.typeMismatch e.dataType chunk.dataType)

end ComponentEntry

/-- A field of an archetype. -/
structure ArchetypeField where
  name : String
  component : Component
deriving DecidableEq

/-- An archetype: its name, the name of its indicator, and its fields, each of which holds a
collection of one component's values. -/
structure Archetype where
  name : String
  /-- The name of the component that marks batches of the archetype. -/
  indicator : String
  fields : List ArchetypeField
deriving DecidableEq

/-- The values of fields: a collection each. -/
def ArchetypeField.Values : List ArchetypeField → Type
  | [] => Unit
  | field :: rest => Collection field.component.Datum × Values rest

/-- The values of an archetype. -/
abbrev Archetype.Value (a : Archetype) : Type := ArchetypeField.Values a.fields

/-- The values of a component that make one column. -/
structure ColumnValues where
  component : Component
  values : Collection component.Datum

/-- The collections of fields, in order. -/
def ArchetypeField.columns : (fields : List ArchetypeField) → Values fields → List ColumnValues
  | [], _ => []
  | field :: rest, (values, others) => ⟨field.component, values⟩ :: columns rest others

/-- The columns of an archetype value: for each field its component and the collection that the
value has for it, in the order of declaration. -/
def Archetype.columns (a : Archetype) (value : a.Value) : List ColumnValues :=
  ArchetypeField.columns a.fields value

/-- Fields of which none is set. -/
def ArchetypeField.unset : (fields : List ArchetypeField) → Values fields
  | [] => ()
  | _ :: rest => (.unset, unset rest)

/-- The value with no field set. -/
def Archetype.unset (a : Archetype) : a.Value := ArchetypeField.unset a.fields

/-- Equality of the values of fields. -/
def ArchetypeField.same : (fields : List ArchetypeField) → Values fields → Values fields → Bool
  | [], _, _ => true
  | field :: rest, (a, as), (b, bs) =>
    Collection.same field.component.type.same a b && same rest as bs

/-- Equality of archetype values. -/
def Archetype.same (a : Archetype) (x y : a.Value) : Bool :=
  ArchetypeField.same a.fields x y

/-- What is known of an archetype by its name. -/
structure ArchetypeEntry where
  name : String
  indicator : String
  /-- Field names with the entries of their components, in order. -/
  fields : List (String × ComponentEntry)
deriving DecidableEq

/-- The component of a field. -/
def ArchetypeEntry.field? (e : ArchetypeEntry) (name : String) : Option ComponentEntry :=
  (e.fields.find? fun field => field.1 == name).map (·.2)

/-- What is registered so far, components and archetypes each under their own names, the earliest
first. -/
structure Registry where
  components : List ComponentEntry := []
  archetypes : List ArchetypeEntry := []
deriving DecidableEq

namespace Registry

/-- The entry of a component name. -/
def lookup (r : Registry) (name : String) : Option ComponentEntry :=
  r.components.find? fun e => e.name == name

/-- The entry of an archetype name. -/
def lookupArchetype (r : Registry) (name : String) : Option ArchetypeEntry :=
  r.archetypes.find? fun e => e.name == name

/-- The entry for a component, which is registered if its name is free. -/
def describe (r : Registry) (c : Component) : ComponentEntry × Registry :=
  match r.lookup c.name with
  | some entry => (entry, r)
  | none => (c.entry, { r with components := r.components ++ [c.entry] })

/-- The entry that a component is stored under: the one registered under its name, which another
component may have made. -/
def entryFor (r : Registry) (c : Component) : ComponentEntry := (r.describe c).1

/-- The entries for the components of fields, one after the other. -/
def describeFields (r : Registry) : List ArchetypeField → List (String × ComponentEntry) × Registry
  | [] => ([], r)
  | field :: rest =>
    let (entry, r) := r.describe field.component
    let (entries, r) := r.describeFields rest
    ((field.name, entry) :: entries, r)

/-- The entry for an archetype, which is registered if its name is free. -/
def describeArchetype (r : Registry) (a : Archetype) : ArchetypeEntry × Registry :=
  match r.lookupArchetype a.name with
  | some entry => (entry, r)
  | none =>
    let (fields, r) := r.describeFields a.fields
    let entry := ⟨a.name, a.indicator, fields⟩
    (entry, { r with archetypes := r.archetypes ++ [entry] })

/-- A registered name finds an entry of that name. -/
theorem name_of_lookup {r : Registry} {name : String} {e : ComponentEntry}
    (h : r.lookup name = some e) : e.name = name := by
  simpa using List.find?_some h

/-- Whoever asks under a registered name gets what is registered. -/
theorem entryFor_of_lookup {r : Registry} {c : Component} {e : ComponentEntry}
    (h : r.lookup c.name = some e) : r.entryFor c = e := by
  simp [entryFor, describe, h]

end Registry

/-- What the registry is asked: for the entry of a component or of an archetype, or to look a name
up. -/
inductive RegistryCall where
  | describe (c : Component)
  | describeArchetype (a : Archetype)
  | lookup (name : String)
  | lookupArchetype (name : String)
deriving DecidableEq

/-- What the registry replies; a name that is looked up need not have an entry. -/
inductive RegistryReply where
  | component (entry : Option ComponentEntry)
  | archetype (entry : Option ArchetypeEntry)
deriving DecidableEq

/-- Whether there is an entry in the reply. -/
def RegistryReply.hasEntry : RegistryReply → Bool
  | component entry => entry.isSome
  | archetype entry => entry.isSome

namespace RegistryCall

/-- The reply to a call, and the registry after it. -/
def run : RegistryCall → Registry → RegistryReply × Registry
  | describe c, r => (.component (some (r.describe c).1), (r.describe c).2)
  | describeArchetype a, r =>
    (.archetype (some (r.describeArchetype a).1), (r.describeArchetype a).2)
  | lookup name, r => (.component (r.lookup name), r)
  | lookupArchetype name, r => (.archetype (r.lookupArchetype name), r)

/-- The reply to a call where names have these entries. -/
def replyFrom (components : String → Option ComponentEntry)
    (archetypes : String → Option ArchetypeEntry) : RegistryCall → RegistryReply
  | describe c => .component (components c.name)
  | describeArchetype a => .archetype (archetypes a.name)
  | lookup name => .component (components name)
  | lookupArchetype name => .archetype (archetypes name)

/-- The archetype that is asked for. -/
def archetype? : RegistryCall → Option Archetype
  | describeArchetype a => some a
  | _ => none

/-- The archetypes that are asked for, in order. -/
def archetypes (calls : List RegistryCall) : List Archetype := calls.filterMap archetype?

/-- The components that claim their names, where these names of archetypes are taken. -/
def claims (taken : List String) : RegistryCall → List Component
  | describe c => [c]
  | describeArchetype a => if a.name ∈ taken then [] else a.fields.map (·.component)
  | lookup _ => []
  | lookupArchetype _ => []

/-- The components that claim their names in calls, where these names of archetypes are
taken before. -/
def claimantsFrom (taken : List String) : List RegistryCall → List Component
  | [] => []
  | call :: calls =>
    call.claims taken ++ claimantsFrom (taken ++ (archetypes [call]).map (·.name)) calls

/-- The components that claim their names, in order. -/
def claimants (calls : List RegistryCall) : List Component := claimantsFrom [] calls

/-- The entry of the first component to claim the name. -/
def entryOf (calls : List RegistryCall) (name : String) : Option ComponentEntry :=
  ((claimants calls).find? fun c => c.name == name).map Component.entry

/-- The table of an archetype, whose fields have the entries of the first components to
claim their names. -/
def tableFor (calls : List RegistryCall) (a : Archetype) : ArchetypeEntry where
  name := a.name
  indicator := a.indicator
  fields := a.fields.map fun field =>
    (field.name, (entryOf calls field.component.name).getD field.component.entry)

/-- The table of the first archetype of the name. -/
def tableOf (calls : List RegistryCall) (name : String) : Option ArchetypeEntry :=
  ((archetypes calls).find? fun a => a.name == name).map (tableFor calls)

end RegistryCall

/-- What a sequence of calls leaves of the empty registry. -/
def Registry.after (calls : List RegistryCall) : Registry :=
  calls.foldl (fun r call => (call.run r).2) {}

end Columnar
