import Mathlib.Data.List.Forall2
import Columnar.Encoder
import Columnar.Proofs.Lending
/-!
# Batches are made field by field

A batch is what its fields make alone.  Encoding a component gives back all the
memory it asked for, so each field finds the ledger as the call found it, and
the registry has settled the entry of a component by the time it is encoded.
The first field that fails alone fails the batch.

For the same reason an encoder carries nothing over from one call to the next.
-/

namespace Columnar

namespace Registry

/-- Registering something else afterwards leaves the entry that is found under a name. -/
theorem lookup_describe {r : Registry} {name : String} {e : ComponentEntry}
    (h : r.lookup name = some e) (c : Component) : (r.describe c).2.lookup name = some e := by
  unfold describe
  cases hc : r.lookup c.name with
  | some _ => exact h
  | none =>
    unfold lookup at h ⊢
    rw [List.find?_append, h]
    rfl

/-- Whoever asks is registered under the entry that is answered. -/
theorem lookup_describe_self (r : Registry) (c : Component) :
    (r.describe c).2.lookup c.name = some (r.entryFor c) := by
  unfold entryFor describe
  cases hc : r.lookup c.name with
  | some e => exact hc
  | none =>
    unfold lookup at hc ⊢
    rw [List.find?_append, hc]
    simp [Component.entry]

/-- A component has the entry of its name, and its own if its name is free. -/
theorem entryFor_eq_getD (r : Registry) (c : Component) :
    r.entryFor c = (r.lookup c.name).getD c.entry := by
  unfold entryFor describe
  cases r.lookup c.name <;> rfl

end Registry

namespace Component

/-- Encoding records depends on the registry through nothing but the entry that the component is
stored under. -/
theorem encode_congr {r₁ r₂ : Registry} {c : Component} (h : r₁.entryFor c = r₂.entryFor c) :
    c.encode r₁ = c.encode r₂ := by
  funext records hint m
  simp only [encode, fill, h]

variable (r : Registry) (c : Component) (records : List c.Datum) (hint : Nat)

/-- Encoding records leaves as much lent as there was before, whether it succeeds or fails. -/
theorem sameLent_encode (m : Ledger) : m.SameLent (c.encode r records hint m).2 := by
  obtain ⟨hlent, hlimit⟩ := (c.deal_encode r records hint).lent_add (Nat.zero_le m.lent)
  exact ⟨hlimit.symm, hlent.symm⟩

/-- What is encoded depends on the limit and the bytes lent alone. -/
theorem encode_eq_of_sameLent {m₁ m₂ : Ledger} (h : m₁.SameLent m₂) :
    (c.encode r records hint m₁).1 = (c.encode r records hint m₂).1 :=
  ((c.deal_encode r records hint).eq_of_sameLent h).1

end Component

/-- A field that is set, with the name and the entry that are registered for it. -/
structure SetField where
  name : String
  entry : ComponentEntry
  component : Component
  records : List component.Datum

namespace SetField

/-- The fields that are set, in order, as far as the table goes. -/
def ofTable : List (String × ComponentEntry) → List ColumnValues → List SetField
  | (name, entry) :: fields, ⟨c, values⟩ :: columns =>
    match values.toList? with
    | none => ofTable fields columns
    | some records => ⟨name, entry, c, records⟩ :: ofTable fields columns
  | _, _ => []

/-- The chunk of the field alone, or the failure. -/
def alone (field : SetField) (r : Registry) (hint : Nat) (m : Ledger) : Except Failure Chunk :=
  (field.component.encode r field.records hint m).1

/-- The entry of a batch has the chunk of the field alone. -/
structure Stored (r : Registry) (hint : Nat) (m : Ledger) (field : SetField) (e : BatchEntry) :
    Prop where
  field_eq : e.field = field.name
  component_eq : e.component = field.entry
  alone_eq : field.alone r hint m = .ok e.chunk

/-- The first of the fields that fails alone fails like this. -/
def FirstFailure (r : Registry) (hint : Nat) (m : Ledger) (fields : List SetField)
    (failure : Failure) : Prop :=
  ∃ before field after, fields = before ++ field :: after ∧
    (∀ earlier ∈ before, ∃ chunk, earlier.alone r hint m = .ok chunk) ∧
    field.alone r hint m = .error failure

variable {r : Registry} {hint : Nat} {m : Ledger} {field : SetField} {rest : List SetField}

/-- Only the limit and the bytes lent matter to a field. -/
theorem alone_of_sameLent {m' : Ledger} (h : m.SameLent m') (field : SetField) :
    field.alone r hint m' = field.alone r hint m :=
  (field.component.encode_eq_of_sameLent r field.records hint h).symm

/-- No entry is stored for a field that fails. -/
theorem not_forall₂_stored {failure : Failure} (h : field.alone r hint m = .error failure)
    (entries : List BatchEntry) : ¬List.Forall₂ (Stored r hint m) (field :: rest) entries := by
  rintro (_ | ⟨hstored, -⟩)
  exact nomatch h.symm.trans hstored.alone_eq

/-- What is stored for a first field that succeeds is its chunk. -/
theorem forall₂_stored_cons_iff {chunk : Chunk} (h : field.alone r hint m = .ok chunk)
    {entries : List BatchEntry} :
    List.Forall₂ (Stored r hint m) (field :: rest) entries ↔
      ∃ others, entries = ⟨field.name, chunk, field.entry⟩ :: others ∧
        List.Forall₂ (Stored r hint m) rest others := by
  constructor
  · rintro (_ | @⟨_, ⟨name, stored, entry⟩, _, others, hstored, hrest⟩)
    obtain ⟨rfl, rfl, halone⟩ := hstored
    obtain rfl := Except.ok.inj (h.symm.trans halone)
    exact ⟨others, rfl, hrest⟩
  · rintro ⟨others, rfl, hrest⟩
    exact .cons ⟨rfl, rfl, h⟩ hrest

/-- A first field that fails is the first failure. -/
theorem firstFailure_cons_iff_of_error {failure failure' : Failure}
    (h : field.alone r hint m = .error failure) :
    FirstFailure r hint m (field :: rest) failure' ↔ failure = failure' := by
  constructor
  · rintro ⟨_ | ⟨earlier, before⟩, other, after, hfields, hbefore, hother⟩
    · obtain ⟨rfl, -⟩ := List.cons.inj hfields
      exact Except.error.inj (h.symm.trans hother)
    · obtain ⟨rfl, -⟩ := List.cons.inj hfields
      obtain ⟨chunk, hchunk⟩ := hbefore field List.mem_cons_self
      exact nomatch h.symm.trans hchunk
  · rintro rfl
    exact ⟨[], field, rest, rfl, nofun, h⟩

/-- After a first field that succeeds the failure is among the others. -/
theorem firstFailure_cons_iff_of_ok {chunk : Chunk} {failure : Failure}
    (h : field.alone r hint m = .ok chunk) :
    FirstFailure r hint m (field :: rest) failure ↔ FirstFailure r hint m rest failure := by
  constructor
  · rintro ⟨_ | ⟨earlier, before⟩, other, after, hfields, hbefore, hother⟩
    · obtain ⟨rfl, -⟩ := List.cons.inj hfields
      exact nomatch h.symm.trans hother
    · obtain ⟨rfl, rfl⟩ := List.cons.inj hfields
      exact ⟨before, other, after, rfl, fun e he => hbefore e (List.mem_cons_of_mem _ he), hother⟩
  · rintro ⟨before, other, after, rfl, hbefore, hother⟩
    exact ⟨field :: before, other, after, rfl, List.forall_mem_cons.2 ⟨⟨chunk, h⟩, hbefore⟩, hother⟩

/-- The registry after fields were encoded, each of which registers its component if the name is
free. -/
def describeAll (r : Registry) : List SetField → Registry
  | [] => r
  | field :: rest => describeAll (r.describe field.component).2 rest

/-- Registering something else afterwards leaves the entry that is found under a name. -/
theorem lookup_describeAll {name : String} {e : ComponentEntry}
    (h : r.lookup name = some e) (fields : List SetField) :
    (describeAll r fields).lookup name = some e := by
  induction fields generalizing r with
  | nil => exact h
  | cons field rest ih => exact ih (Registry.lookup_describe h field.component)

/-- Encoding fields whose components are all registered leaves the registry as it was. -/
theorem describeAll_eq_self {fields : List SetField}
    (h : ∀ field ∈ fields, ∃ e, r.lookup field.component.name = some e) :
    describeAll r fields = r := by
  induction fields with
  | nil => rfl
  | cons field rest ih =>
    obtain ⟨⟨e, hlookup⟩, hrest⟩ := List.forall_mem_cons.1 h
    rw [describeAll, Registry.describe, hlookup]
    exact ih hrest

/-- A field is encoded alike before and after the fields that come after it. -/
theorem alone_describeAll (r : Registry) (field : SetField) (rest : List SetField) (hint : Nat)
    (m : Ledger) :
    field.alone (describeAll r (field :: rest)) hint m = field.alone r hint m := by
  have hentry := Registry.entryFor_of_lookup
    (lookup_describeAll (Registry.lookup_describe_self r field.component) rest)
  have hencode :
      field.component.encode (describeAll r (field :: rest)) = field.component.encode r :=
    Component.encode_congr hentry
  rw [alone, alone, hencode]

end SetField

/-- Encodes fields that are set, one after the other. -/
def Batch.encodeFields (hint : Nat) : List SetField → Registry → Batch → Ledger →
    Except Failure Batch × Ledger
  | [], _, batch, m => (.ok batch, m)
  | field :: rest, r, batch, m =>
    match field.component.encode r field.records hint m with
    | (.error failure, m) => (.error failure, m)
    | (.ok chunk, m) =>
      encodeFields hint rest (r.describe field.component).2
        (batch.push ⟨field.name, chunk, field.entry⟩) m

namespace Batch

variable {hint : Nat}

/-- Encoding the columns of a value is encoding its fields that are set; those that are not are
passed over. -/
theorem encodeColumns_eq_encodeFields (fields : List (String × ComponentEntry))
    (columns : List ColumnValues) (r : Registry) (batch : Batch) (m : Ledger) :
    encodeColumns hint fields columns r batch m =
      encodeFields hint (SetField.ofTable fields columns) r batch m := by
  induction fields generalizing columns r batch m with
  | nil => cases columns <;> rfl
  | cons field fields ih =>
    rcases columns with _ | ⟨⟨c, values⟩, columns⟩
    · rfl
    · cases hvalues : values.toList? with
      | none => simp only [encodeColumns, SetField.ofTable, hvalues, ih]
      | some records =>
        rcases hencode : c.encode r records hint m with ⟨failure | chunk, m'⟩
        · simp only [encodeColumns, SetField.ofTable, hvalues, encodeFields, hencode]
        · simp only [encodeColumns, SetField.ofTable, hvalues, encodeFields, hencode, ih]

/-- The first field fails alone and ends the batch, or its chunk is put into
the batch and the others find as much lent as it did. -/
theorem encodeFields_cons (hint : Nat) (field : SetField) (rest : List SetField) (r : Registry)
    (batch : Batch) (m : Ledger) :
    (∃ failure m', field.alone r hint m = .error failure ∧ m.SameLent m' ∧
      encodeFields hint (field :: rest) r batch m = (.error failure, m')) ∨
    ∃ chunk m', field.alone r hint m = .ok chunk ∧ m.SameLent m' ∧
      encodeFields hint (field :: rest) r batch m =
        encodeFields hint rest (r.describe field.component).2
          (batch.push ⟨field.name, chunk, field.entry⟩) m' := by
  have hlent := field.component.sameLent_encode r field.records hint m
  simp only [SetField.alone, encodeFields]
  revert hlent
  rcases field.component.encode r field.records hint m with ⟨failure | chunk, m'⟩
  · exact fun hlent => .inl ⟨failure, m', rfl, hlent, rfl⟩
  · exact fun hlent => .inr ⟨chunk, m', rfl, hlent, rfl⟩

/-- Encoding fields one after the other leaves as much lent as there was before, wherever it fails.
-/
theorem sameLent_encodeFields (fields : List SetField) (r : Registry) (batch : Batch)
    (m : Ledger) : m.SameLent (encodeFields hint fields r batch m).2 := by
  induction fields generalizing r batch m with
  | nil => exact ⟨rfl, rfl⟩
  | cons field rest ih =>
    obtain ⟨failure, m', -, hlent, hrest⟩ | ⟨chunk, m', -, hlent, hrest⟩ :=
      encodeFields_cons hint field rest r batch m
    · rw [hrest]
      exact hlent
    · rw [hrest]
      exact hlent.trans (ih _ _ m')

/-- Fields make a batch exactly if each of them makes a chunk alone, on any
ledger with as much lent; these are the chunks of the batch. -/
theorem encodeFields_eq_ok_iff (fields : List SetField) (r : Registry) (batch batch' : Batch)
    {m₀ m : Ledger} (hlent : m₀.SameLent m) :
    (encodeFields hint fields r batch m).1 = .ok batch' ↔
      ∃ entries, batch' = ⟨batch.archetype, batch.entries ++ entries⟩ ∧
        List.Forall₂ (SetField.Stored (SetField.describeAll r fields) hint m₀) fields entries := by
  -- Only `SameLent` links the ledger that a field finds to the first one: the requests that the
  -- fields before it made are on record.
  induction fields generalizing r batch m with
  | nil =>
    constructor
    · intro h
      exact ⟨[], by simp [← Except.ok.inj h], .nil⟩
    · rintro ⟨entries, rfl, hstored⟩
      obtain rfl := List.forall₂_nil_left_iff.1 hstored
      simp [encodeFields]
  | cons field rest ih =>
    have halone : field.alone (SetField.describeAll r (field :: rest)) hint m₀ =
        field.alone r hint m := by
      rw [SetField.alone_describeAll, SetField.alone_of_sameLent hlent]
    obtain ⟨failure, m', hfield, -, hrest⟩ | ⟨chunk, m', hfield, hlent', hrest⟩ :=
      encodeFields_cons hint field rest r batch m
    · rw [hrest]
      constructor
      · exact nofun
      · rintro ⟨entries, -, hstored⟩
        exact absurd hstored (SetField.not_forall₂_stored (halone.trans hfield) entries)
    · rw [hrest, ih _ _ (hlent.trans hlent')]
      simp only [SetField.forall₂_stored_cons_iff (halone.trans hfield), push]
      constructor
      · rintro ⟨entries, rfl, hstored⟩
        exact ⟨_, by simp, entries, rfl, hstored⟩
      · rintro ⟨-, rfl, entries, rfl, hstored⟩
        exact ⟨entries, by simp, hstored⟩

/-- Fields fail with what the first of them fails with that fails alone. -/
theorem encodeFields_eq_error_iff (fields : List SetField) (r : Registry) (batch : Batch)
    {m₀ m : Ledger} (hlent : m₀.SameLent m) (failure : Failure) :
    (encodeFields hint fields r batch m).1 = .error failure ↔
      SetField.FirstFailure (SetField.describeAll r fields) hint m₀ fields failure := by
  induction fields generalizing r batch m with
  | nil =>
    constructor
    · exact nofun
    · rintro ⟨before, field, after, hfields, -⟩
      simp at hfields
  | cons field rest ih =>
    have halone : field.alone (SetField.describeAll r (field :: rest)) hint m₀ =
        field.alone r hint m := by
      rw [SetField.alone_describeAll, SetField.alone_of_sameLent hlent]
    obtain ⟨failure', m', hfield, -, hrest⟩ | ⟨chunk, m', hfield, hlent', hrest⟩ :=
      encodeFields_cons hint field rest r batch m
    · rw [hrest, SetField.firstFailure_cons_iff_of_error (halone.trans hfield)]
      exact ⟨Except.error.inj, congrArg _⟩
    · rw [hrest, ih _ _ (hlent.trans hlent'),
        SetField.firstFailure_cons_iff_of_ok (halone.trans hfield)]
      rfl

/-- What fields make depends on the limit and the bytes lent alone. -/
theorem encodeFields_eq_of_sameLent (fields : List SetField) (r : Registry) (batch : Batch)
    {m₁ m₂ : Ledger} (h : m₁.SameLent m₂) :
    (encodeFields hint fields r batch m₁).1 = (encodeFields hint fields r batch m₂).1 := by
  cases hresult : (encodeFields hint fields r batch m₂).1 with
  | ok batch' =>
    rw [encodeFields_eq_ok_iff fields r batch batch' h] at hresult
    exact (encodeFields_eq_ok_iff fields r batch batch' (.refl m₁)).2 hresult
  | error failure =>
    rw [encodeFields_eq_error_iff fields r batch h] at hresult
    exact (encodeFields_eq_error_iff fields r batch (.refl m₁) failure).2 hresult

end Batch

/-- The fields that are set, with their own names and the entries that their
components have. -/
def ArchetypeField.setFields (r : Registry) : (fields : List ArchetypeField) → Values fields →
    List SetField
  | [], _ => []
  | field :: rest, (values, others) =>
    match values.toList? with
    | none => setFields r rest others
    | some records =>
      ⟨field.name, r.entryFor field.component, field.component, records⟩ :: setFields r rest others

/-- The fields that are set, each under the name and the entry that a table has in its place.
A field that the table does not reach has its own. -/
def ArchetypeField.setFieldsUnder : List (String × ComponentEntry) →
    (fields : List ArchetypeField) → Values fields → List SetField
  | _, [], _ => []
  | table, field :: rest, (values, others) =>
    match values.toList? with
    | none => setFieldsUnder table.tail rest others
    | some records =>
      let (name, entry) := table.headD (field.name, field.component.entry)
      ⟨name, entry, field.component, records⟩ :: setFieldsUnder table.tail rest others

namespace Registry

/-- Registering something else afterwards leaves the entry that is found under a name. -/
theorem lookup_describeFields {r : Registry} {name : String} {e : ComponentEntry}
    (h : r.lookup name = some e) (fields : List ArchetypeField) :
    (r.describeFields fields).2.lookup name = some e := by
  induction fields generalizing r with
  | nil => exact h
  | cons field rest ih => exact ih (lookup_describe h field.component)

/-- The components of fields are registered with the fields. -/
theorem exists_lookup_describeFields (fields : List ArchetypeField) (r : Registry) :
    ∀ field ∈ fields, ∃ e, (r.describeFields fields).2.lookup field.component.name = some e := by
  induction fields generalizing r with
  | nil => exact nofun
  | cons field rest ih =>
    have hself := lookup_describeFields (lookup_describe_self r field.component) rest
    exact List.forall_mem_cons.2 ⟨⟨_, hself⟩, ih _⟩

/-- The table of fields has the names of the fields, with the entries that their
components have once all are registered. -/
theorem describeFields_fst (fields : List ArchetypeField) (r : Registry) :
    (r.describeFields fields).1 = fields.map fun field =>
      (field.name, (r.describeFields fields).2.entryFor field.component) := by
  induction fields generalizing r with
  | nil => rfl
  | cons field rest ih =>
    have hentry : (r.describeFields (field :: rest)).2.entryFor field.component =
        (r.describe field.component).1 :=
      entryFor_of_lookup (lookup_describeFields (lookup_describe_self r field.component) rest)
    rw [List.map_cons, hentry]
    exact congrArg _ (ih _)

end Registry

namespace ArchetypeField

variable (r : Registry)

/-- A table that reaches all fields passes over none that is set. -/
theorem ofTable_columns (table : List (String × ComponentEntry)) {fields : List ArchetypeField}
    (hcovers : fields.length ≤ table.length) (values : Values fields) :
    SetField.ofTable table (columns fields values) = setFieldsUnder table fields values := by
  induction fields generalizing table with
  | nil => cases table <;> rfl
  | cons field rest ih =>
    obtain ⟨collection, others⟩ := values
    rcases table with _ | ⟨⟨name, entry⟩, table⟩
    · exact nomatch hcovers
    · have hothers := ih table (Nat.le_of_succ_le_succ hcovers) others
      simp only [columns, SetField.ofTable, setFieldsUnder, List.headD_cons, List.tail_cons]
      cases collection.toList? with
      | none => exact hothers
      | some records => exact congrArg _ hothers

/-- Under their own names and entries the fields that are set are themselves. -/
theorem setFieldsUnder_own (fields : List ArchetypeField) (values : Values fields) :
    setFieldsUnder (fields.map fun field => (field.name, r.entryFor field.component)) fields
      values = setFields r fields values := by
  induction fields with
  | nil => rfl
  | cons field rest ih =>
    obtain ⟨collection, others⟩ := values
    simp only [List.map_cons, setFieldsUnder, setFields, List.headD_cons, List.tail_cons]
    cases collection.toList? with
    | none => exact ih others
    | some records => exact congrArg _ (ih others)

/-- Each field that is set is one of the fields. -/
theorem exists_of_mem_setFields {fields : List ArchetypeField} {values : Values fields}
    {set : SetField} (h : set ∈ setFields r fields values) :
    ∃ field ∈ fields, set.name = field.name ∧ set.component = field.component := by
  induction fields with
  | nil => exact nomatch h
  | cons field rest ih =>
    obtain ⟨collection, others⟩ := values
    simp only [setFields] at h
    cases hset : collection.toList? with
    | none =>
      rw [hset] at h
      obtain ⟨found, hmem, heq⟩ := ih h
      exact ⟨found, List.mem_cons_of_mem _ hmem, heq⟩
    | some records =>
      rw [hset] at h
      obtain rfl | hrest := List.mem_cons.1 h
      · exact ⟨field, List.mem_cons_self, rfl, rfl⟩
      · obtain ⟨found, hmem, heq⟩ := ih hrest
        exact ⟨found, List.mem_cons_of_mem _ hmem, heq⟩

end ArchetypeField

namespace Archetype

/-- The archetype has a table of its own: its field names in their order, with
the entries of its components, all of which are registered. -/
structure OwnTable (r : Registry) (a : Archetype) : Prop where
  fields_eq : (r.describeArchetype a).1.fields = a.fields.map fun field =>
    (field.name, (r.describeArchetype a).2.entryFor field.component)
  exists_lookup : ∀ field ∈ a.fields, ∃ e,
    (r.describeArchetype a).2.lookup field.component.name = some e

/-- An archetype whose name is free gets a table of its own. -/
theorem ownTable_of_free {r : Registry} {a : Archetype} (h : r.lookupArchetype a.name = none) :
    OwnTable r a := by
  have hfields : (r.describeArchetype a).1.fields = (r.describeFields a.fields).1 := by
    rw [Registry.describeArchetype, h]
  have hcomponents : (r.describeArchetype a).2.components =
      (r.describeFields a.fields).2.components := by
    rw [Registry.describeArchetype, h]
  constructor
  · rw [hfields, Registry.describeFields_fst]
    simp only [Registry.entryFor_eq_getD, Registry.lookup, hcomponents]
  · unfold Registry.lookup
    rw [hcomponents]
    exact Registry.exists_lookup_describeFields a.fields r

/-- The table that is registered under the name of the archetype has a place for each of its
fields.  It need not be its own: the first archetype of a name has it. -/
def Covers (r : Registry) (a : Archetype) : Prop :=
  a.fields.length ≤ (r.describeArchetype a).1.fields.length

instance (r : Registry) (a : Archetype) : Decidable (Covers r a) :=
  inferInstanceAs (Decidable (_ ≤ _))

/-- A table of its own has a place for each field. -/
theorem OwnTable.covers {r : Registry} {a : Archetype} (h : OwnTable r a) : Covers r a :=
  Nat.le_of_eq (by rw [h.fields_eq, List.length_map])

/-- The fields of a value that are set, all of them, under the names and the entries of the
registered table. -/
def setFields (r : Registry) (a : Archetype) (value : a.Value) : List SetField :=
  ArchetypeField.setFieldsUnder (r.describeArchetype a).1.fields a.fields value

/-- The registry once all that a value is made of is registered. -/
def settled (r : Registry) (a : Archetype) (value : a.Value) : Registry :=
  SetField.describeAll (r.describeArchetype a).2 (a.setFields r value)

/-- With a table of its own the fields that are set have their own names and entries. -/
theorem OwnTable.setFields_eq {r : Registry} {a : Archetype} (h : OwnTable r a)
    (value : a.Value) :
    a.setFields r value = ArchetypeField.setFields (r.describeArchetype a).2 a.fields value := by
  rw [setFields, h.fields_eq]
  exact ArchetypeField.setFieldsUnder_own _ a.fields value

/-- With a table of its own nothing is registered besides the archetype. -/
theorem OwnTable.settled_eq {r : Registry} {a : Archetype} (h : OwnTable r a) (value : a.Value) :
    a.settled r value = (r.describeArchetype a).2 := by
  refine SetField.describeAll_eq_self fun field hfield => ?_
  rw [h.setFields_eq] at hfield
  obtain ⟨declared, hmem, -, heq⟩ := ArchetypeField.exists_of_mem_setFields _ hfield
  rw [heq]
  exact h.exists_lookup declared hmem

/-- Encoding a value is encoding each of its set fields alone: on the ledger as
it was at first, with the entries as they are once all are registered. -/
structure EncodedApart (r : Registry) (a : Archetype) (value : a.Value) (hint : Nat)
    (m : Ledger) : Prop where
  /-- It succeeds exactly if each field does, with their chunks in their order. -/
  eq_ok_iff : ∀ batch, (a.encode r value hint m).1 = .ok batch ↔ batch.archetype = a.name ∧
    List.Forall₂ (SetField.Stored (a.settled r value) hint m) (a.setFields r value) batch.entries
  /-- Otherwise it fails as the first field does that fails. -/
  eq_error_iff : ∀ failure, (a.encode r value hint m).1 = .error failure ↔
    SetField.FirstFailure (a.settled r value) hint m (a.setFields r value) failure
  /-- With a table of its own no entry is left to settle, -/
  settled_eq : OwnTable r a → a.settled r value = (r.describeArchetype a).2
  /-- and each field has its own name and the entry of its component. -/
  setFields_eq : OwnTable r a →
    a.setFields r value = ArchetypeField.setFields (a.settled r value) a.fields value

variable (r : Registry) (a : Archetype) (value : a.Value) (hint : Nat)

/-- A value is encoded as the fields of the table are that are set. -/
theorem encode_eq_encodeFields (m : Ledger) :
    a.encode r value hint m =
      Batch.encodeFields hint (SetField.ofTable (r.describeArchetype a).1.fields (a.columns value))
        (r.describeArchetype a).2 ⟨a.name, []⟩ m :=
  Batch.encodeColumns_eq_encodeFields _ _ _ _ _

/-- What is encoded depends on the limit and the bytes lent alone. -/
theorem encode_eq_of_sameLent {m₁ m₂ : Ledger} (h : m₁.SameLent m₂) :
    (a.encode r value hint m₁).1 = (a.encode r value hint m₂).1 := by
  rw [encode_eq_encodeFields, encode_eq_encodeFields]
  exact Batch.encodeFields_eq_of_sameLent _ _ _ h

/-- Encoding a value leaves as much lent as before. -/
theorem sameLent_encode (m : Ledger) : m.SameLent (a.encode r value hint m).2 := by
  rw [encode_eq_encodeFields]
  exact Batch.sameLent_encodeFields _ _ _ m

variable {r a}

/-- Where the registered table has a place for each field, values are encoded field by
field. -/
theorem Covers.encodedApart (hcovers : Covers r a) (m : Ledger) :
    EncodedApart r a value hint m := by
  have hencode : a.encode r value hint m =
      Batch.encodeFields hint (a.setFields r value) (r.describeArchetype a).2 ⟨a.name, []⟩ m := by
    rw [encode_eq_encodeFields, columns, ArchetypeField.ofTable_columns _ hcovers, setFields]
  constructor
  · intro batch
    rw [hencode, Batch.encodeFields_eq_ok_iff _ _ _ _ (.refl m)]
    constructor
    · rintro ⟨entries, rfl, hstored⟩
      exact ⟨rfl, hstored⟩
    · obtain ⟨name, entries⟩ := batch
      rintro ⟨rfl, hstored⟩
      exact ⟨entries, rfl, hstored⟩
  · intro failure
    rw [hencode]
    exact Batch.encodeFields_eq_error_iff _ _ _ (.refl m) failure
  · exact fun hown => hown.settled_eq value
  · intro hown
    rw [hown.settled_eq]
    exact hown.setFields_eq value

end Archetype

/-- A value that an encoder is asked to encode, with what is registered then. -/
structure Encoder.Call where
  registry : Registry
  archetype : Archetype
  value : archetype.Value

namespace Encoder

/-- Encodes the value that a call asks for, and goes on with the ledger that this leaves. -/
def run (e : Encoder) (call : Call) : Except Failure Batch × Encoder :=
  e.encode call.registry call.archetype call.value

/-- Encodes values one after the other, whether they fail or not. -/
def runAll (e : Encoder) : List Call → List (Except Failure Batch)
  | [] => []
  | call :: calls => (e.run call).1 :: runAll (e.run call).2 calls

/-- The encoders have the same settings, and ledgers that answer alike. -/
structure Alike (e₁ e₂ : Encoder) : Prop where
  config_eq : e₁.config = e₂.config
  sameLent : e₁.ledger.SameLent e₂.ledger

@[refl] theorem Alike.refl (e : Encoder) : Alike e e :=
  ⟨rfl, .refl e.ledger⟩

theorem Alike.symm {e₁ e₂ : Encoder} (h : Alike e₁ e₂) : Alike e₂ e₁ :=
  ⟨h.config_eq.symm, h.sameLent.symm⟩

theorem Alike.trans {e₁ e₂ e₃ : Encoder} (h : Alike e₁ e₂) (h' : Alike e₂ e₃) : Alike e₁ e₃ :=
  ⟨h.config_eq.trans h'.config_eq, h.sameLent.trans h'.sameLent⟩

/-- After a call an encoder is as it was before. -/
theorem alike_run (e : Encoder) (call : Call) : Alike e (e.run call).2 :=
  ⟨rfl, call.archetype.sameLent_encode call.registry call.value e.config.listLenHint e.ledger⟩

/-- Encoders with the same settings on ledgers in the same state return the same batch or failure
for the same call. -/
theorem Alike.run_eq {e₁ e₂ : Encoder} (h : Alike e₁ e₂) (call : Call) :
    (e₁.run call).1 = (e₂.run call).1 := by
  unfold run encode
  rw [h.config_eq]
  exact call.archetype.encode_eq_of_sameLent call.registry call.value _ h.sameLent

/-- A sequence of calls on one encoder returns what each call returns on an encoder like the one at
the start. -/
theorem Alike.runAll_eq {e₁ e₂ : Encoder} (h : Alike e₁ e₂) (calls : List Call) :
    e₁.runAll calls = calls.map fun call => (e₂.run call).1 := by
  induction calls generalizing e₁ with
  | nil => rfl
  | cons call calls ih =>
    rw [runAll, List.map_cons, h.run_eq, ih ((alike_run e₁ call).symm.trans h)]

end Encoder

namespace Archetype

/-- **Batches are made of independent fields, and encoders carry nothing over.**  Where the
table registered under the name of an archetype has a place for each of its fields, a value
is encoded exactly if each field that is set can be encoded alone, from the ledger as the
call finds it; the batch has these chunks in the order of declaration, and otherwise the
failure is that of the first field that fails.  Either way as much is lent afterwards as
before.  So in any sequence of calls on one encoder, some of which may fail, each returns
what a fresh encoder with the same settings returns, on a ledger in the same state. -/
theorem encode_fieldwise :
    (∀ (r : Registry) (a : Archetype) (value : a.Value) (hint : Nat) (m : Ledger),
      Covers r a → EncodedApart r a value hint m) ∧
    (∀ (r : Registry) (a : Archetype) (value : a.Value) (hint : Nat) (m : Ledger),
      m.SameLent (a.encode r value hint m).2) ∧
    ∀ (fresh : Encoder) (calls : List Encoder.Call),
      fresh.runAll calls = calls.map fun call => (fresh.run call).1 :=
  ⟨fun _ _ value hint m hcovers => hcovers.encodedApart value hint m, sameLent_encode,
    fun fresh calls => (Encoder.Alike.refl fresh).runAll_eq calls⟩

/-- Depths in a row. -/
private def depths : Component := ⟨"samples.Depth", .number .uint8⟩

/-- Remarks in words. -/
private def remarks : Component := ⟨"samples.Remark", .text⟩

/-- A field of depths. -/
private def plumb : Archetype := ⟨"samples.Sounding", "samples.Plumb", [⟨"depth", depths⟩]⟩

/-- Another archetype of the same name, with a second field. -/
private def sounding : Archetype :=
  ⟨"samples.Sounding", "samples.SoundingIndicator", [⟨"depth", depths⟩, ⟨"remark", remarks⟩]⟩

/-- Both fields are set. -/
private def soundingValue : sounding.Value := (.populated [3#8], .populated ["mud"], ())

/-- Only the first field is set. -/
private def bareSounding : sounding.Value := (.populated [3#8], .unset, ())

/-- With 192 bytes both fields are encoded.  With 64 bytes only the first can be, so the first
call fails and the second one does not. -/
theorem encode_fieldwise_soundings :
    ∃ batch, (sounding.encode {} soundingValue 2 { limit := some 192 }).1 = .ok batch ∧
      List.Forall₂ (SetField.Stored (sounding.settled {} soundingValue) 2 { limit := some 192 })
        (sounding.setFields {} soundingValue) batch.entries ∧
      batch.entries.map (·.field) = ["depth", "remark"] ∧
      (Encoder.runAll { ledger := { limit := some 64 } }
        [⟨{}, sounding, soundingValue⟩, ⟨{}, sounding, bareSounding⟩]).map Except.isOk =
          [false, true] := by
  obtain ⟨hfields, -, hcalls⟩ := encode_fieldwise
  have hapart := hfields {} sounding soundingValue 2 { limit := some 192 } (by decide)
  have hencoded : (sounding.encode {} soundingValue 2 { limit := some 192 }).1 = .ok _ := rfl
  exact ⟨_, hencoded, ((hapart.eq_ok_iff _).1 hencoded).2, rfl, by rw [hcalls]; rfl⟩

/-- Where the other archetype of the name came first, its table has no place for remarks:
with 64 bytes, which are not enough to encode them alone, the batch succeeds without them.
And an encoder that was given a ledger is not one that is made from the same settings, which
have a ledger of their own. -/
theorem encode_fieldwise_clash_fails :
    ∃ (r : Registry) (batch : Batch), r = (Registry.describeArchetype {} plumb).2 ∧
      (sounding.encode r soundingValue 2 { limit := some 64 }).1 = .ok batch ∧
      (sounding.setFields r soundingValue).map (·.component) = [depths, remarks] ∧
      (remarks.encode r ["mud"] 2 { limit := some 64 }).1 =
        .error (.fault (.outOfMemory ⟨64, some 0⟩)) ∧
      batch.entries.map (·.component.name) = ["samples.Depth"] ∧
      (Encoder.run { ledger := { limit := some 0 } } ⟨{}, sounding, soundingValue⟩).1 =
        .error (.fault (.outOfMemory ⟨64, some 0⟩)) ∧
      (Encoder.run {} ⟨{}, sounding, soundingValue⟩).1.isOk = true :=
  ⟨_, _, rfl, rfl, rfl, rfl, rfl, rfl, rfl⟩

end Archetype

end Columnar
