import Columnar.Proofs.Batches
import Columnar.Proofs.RoundTrip
/-!
# Fields come back under their names

A batch has an entry for each field that is set, in the order of declaration.
Decoding looks the fields up by their names, which tell them apart even if they
are of one component: whatever was stored before a field has another name, and
so has whatever comes after it.  So each field finds its own records, in their
normal form, and a field that was not set finds nothing.
-/

namespace Columnar

/-- The normal form of a collection: without values it is empty, if it is set. -/
def Collection.normalize {α : Type} (normal : α → α) : Collection α → Collection α
  | unset => unset
  | empty => empty
  | populated items => ofList (items.map normal)

/-- A collection without values has no normal form but its own. -/
theorem Collection.normalize_of_toList?_eq_none {α : Type} {normal : α → α} {c : Collection α}
    (h : c.toList? = none) : c.normalize normal = unset := by
  cases c with
  | unset => rfl
  | empty => exact nomatch h
  | populated _ => exact nomatch h

/-- A collection that is set has the collection of the normal values. -/
theorem Collection.normalize_of_toList?_eq_some {α : Type} {normal : α → α} {c : Collection α}
    {items : List α} (h : c.toList? = some items) :
    c.normalize normal = ofList (items.map normal) := by
  cases c with
  | unset => exact nomatch h
  | empty =>
    obtain rfl := Option.some.inj h
    rfl
  | populated _ =>
    obtain rfl := Option.some.inj h
    rfl

namespace ArchetypeField

/-- The normal forms of the values of fields. -/
def normal : (fields : List ArchetypeField) → Values fields → Values fields
  | [], _ => ()
  | field :: rest, (values, others) =>
    (values.normalize field.component.type.normal, normal rest others)

/-- The components of fields are registered under their own entries. -/
def Registered (r : Registry) (fields : List ArchetypeField) : Prop :=
  ∀ field ∈ fields, r.lookup field.component.name = some field.component.entry

instance (r : Registry) (fields : List ArchetypeField) : Decidable (Registered r fields) :=
  inferInstanceAs (Decidable (∀ field ∈ fields, _))

end ArchetypeField

/-- The normal form of an archetype value. -/
def Archetype.normal (a : Archetype) (value : a.Value) : a.Value :=
  ArchetypeField.normal a.fields value

/-- What was encoded is decoded wherever the component has its own entry. -/
theorem Component.decode_chunk {r r' : Registry} {c : Component}
    (hown : r.lookup c.name = some c.entry) (hown' : r'.lookup c.name = some c.entry)
    (hfields : c.type.optionsHaveFields = true) {records : List c.Datum} {hint : Nat}
    {m m' : Ledger} {chunk : Chunk} (h : c.encode r records hint m = (.ok chunk, m')) :
    chunk.dataType = c.entry.dataType ∧ chunk.length = records.length ∧
      c.decode r' chunk = .ok (records.map c.type.normal) := by
  have hentry := Registry.entryFor_of_lookup hown
  have hentry' := Registry.entryFor_of_lookup hown'
  have hlayout : (r.entryFor c).layout = c.type.layout := by rw [hentry, Component.entry]
  obtain ⟨rfl, hsound⟩ := encode_eq_chunk hlayout h
  have hcheck := hlayout ▸ check_of_encode h
  have htype : (c.type.layout.chunk (records.map c.type.cell)).dataType = c.entry.dataType :=
    c.type.layout.dataType_chunk _
  refine ⟨htype, ?_, ?_⟩
  · rw [Layout.length_chunk, List.length_map]
  · rw [decode_of_dataType_eq (by rw [hentry', htype]), c.type.read_chunk hfields hcheck hsound]
    rfl

namespace SetField

/-- The field has its own entry, and records that come back from a chunk. -/
structure Faithful (r : Registry) (field : SetField) : Prop where
  entry_eq : field.entry = field.component.entry
  registered : r.lookup field.component.name = some field.component.entry
  optionsHaveFields : field.component.type.optionsHaveFields = true

/-- The entry of a batch is that of the field: its name, its registered entry
and a chunk of that datatype with one slot for each record. -/
structure Entered (field : SetField) (e : BatchEntry) : Prop where
  field_eq : e.field = field.name
  component_eq : e.component = field.entry
  dataType_eq : e.chunk.dataType = field.entry.dataType
  length_eq : e.chunk.length = field.records.length

/-- The chunk of the entry is decoded into the normal records of the field. -/
def Recovered (field : SetField) (e : BatchEntry) : Prop :=
  ∀ r : Registry, r.lookup field.component.name = some field.component.entry →
    field.component.decode r e.chunk = .ok (field.records.map field.component.type.normal)

/-- What a field stores is entered, and recovered. -/
theorem Stored.entered_and_recovered {r : Registry} {hint : Nat} {m : Ledger} {field : SetField}
    {e : BatchEntry} (h : Stored r hint m field e) (hfield : field.Faithful r) :
    field.Entered e ∧ field.Recovered e := by
  have hencode : field.component.encode r field.records hint m = (.ok e.chunk, _) :=
    Prod.ext h.alone_eq rfl
  have hchunk (r' : Registry)
      (hown' : r'.lookup field.component.name = some field.component.entry) :=
    Component.decode_chunk hfield.registered hown' hfield.optionsHaveFields hencode
  obtain ⟨htype, hlength, -⟩ := hchunk r hfield.registered
  rw [← hfield.entry_eq] at htype
  exact ⟨⟨h.field_eq, h.component_eq, htype, hlength⟩, fun r' hown' => (hchunk r' hown').2.2⟩

/-- Entries have the names of their fields, in order. -/
theorem map_field_eq {fields : List SetField} {entries : List BatchEntry}
    (h : List.Forall₂ (fun field e => field.Entered e ∧ field.Recovered e) fields entries) :
    entries.map (·.field) = fields.map (·.name) := by
  induction h with
  | nil => rfl
  | cons hfield _ ih => rw [List.map_cons, List.map_cons, hfield.1.field_eq, ih]

end SetField

namespace ArchetypeField

/-- Fields with entries of their own are faithful. -/
theorem faithful_setFields {r : Registry} {fields : List ArchetypeField}
    (hregistered : Registered r fields)
    (hoptions : ∀ field ∈ fields, field.component.type.optionsHaveFields = true)
    (values : Values fields) : ∀ set ∈ setFields r fields values, set.Faithful r := by
  induction fields with
  | nil => exact fun _ hset => absurd hset List.not_mem_nil
  | cons field rest ih =>
    obtain ⟨collection, others⟩ := values
    obtain ⟨hown, hregistered⟩ := List.forall_mem_cons.1 hregistered
    obtain ⟨hoption, hoptions⟩ := List.forall_mem_cons.1 hoptions
    have hrest := ih hregistered hoptions others
    simp only [setFields]
    cases hset : collection.toList? with
    | none => exact hrest
    | some records =>
      exact List.forall_mem_cons.2 ⟨⟨Registry.entryFor_of_lookup hown, hown, hoption⟩, hrest⟩

/-- Nothing more is registered once the components are. -/
theorem describe_eq_self {batch : Batch} {field : ArchetypeField} {r : Registry}
    (hown : r.lookup field.component.name = some field.component.entry) :
    field.describe batch r = r := by
  unfold describe
  split
  · rfl
  · rw [Registry.describe, hown]

/-- A field finds nothing among entries of other names. -/
theorem collection_of_ne {batch : Batch} {r : Registry} {field : ArchetypeField}
    (h : ∀ e ∈ batch.entries, e.field ≠ field.name) :
    batch.collection r field.component field.name = .ok .unset := by
  have hnone : batch.getField? field.name = none := by
    rw [Batch.getField?, List.find?_eq_none]
    intro e he hname
    exact h e he (eq_of_beq hname)
  rw [Batch.collection, hnone]

/-- A field finds the first entry of its name, if it is of its component. -/
theorem collection_of_append {batch : Batch} {r : Registry} {field : ArchetypeField}
    {before after : List BatchEntry} {e : BatchEntry} {records : List field.component.Datum}
    (hbatch : batch.entries = before ++ e :: after)
    (hbefore : ∀ other ∈ before, other.field ≠ field.name) (hfield : e.field = field.name)
    (hcomponent : e.component.name = field.component.name)
    (hdecode : field.component.decode r e.chunk = .ok records) :
    batch.collection r field.component field.name = .ok (.ofList records) := by
  have hfound : batch.getField? field.name = some e := by
    have hnone : before.find? (fun other => other.field == field.name) = none := by
      rw [List.find?_eq_none]
      intro other hother hname
      exact hbefore other hother (eq_of_beq hname)
    have hself : (e.field == field.name) = true := beq_iff_eq.2 hfield
    rw [Batch.getField?, hbatch, List.find?_append, hnone, Option.none_or, List.find?_cons, hself]
  rw [Batch.collection, hfound]
  dsimp only
  rw [if_neg (not_not_intro hcomponent), hdecode]
  rfl

/-- The entries of a batch have names of fields. -/
theorem exists_name_eq {r : Registry} {fields : List ArchetypeField} {values : Values fields}
    {entries : List BatchEntry}
    (h : List.Forall₂ (fun set e => set.Entered e ∧ set.Recovered e)
      (setFields r fields values) entries) :
    ∀ e ∈ entries, ∃ field ∈ fields, e.field = field.name := by
  intro e he
  have hfield : e.field ∈ entries.map (·.field) := List.mem_map_of_mem he
  rw [SetField.map_field_eq h] at hfield
  obtain ⟨set, hset, heq⟩ := List.mem_map.1 hfield
  obtain ⟨field, hmem, hname, -⟩ := exists_of_mem_setFields r hset
  exact ⟨field, hmem, heq.symm.trans hname⟩

/-- Fields are decoded from a batch that has an entry for each of them that is
set, behind entries of other names. -/
theorem decode_eq_normal {r₀ r : Registry} {batch : Batch} {fields : List ArchetypeField}
    {values : Values fields} {before entries : List BatchEntry}
    (hnames : (fields.map (·.name)).Nodup) (hregistered₀ : Registered r₀ fields)
    (hregistered : Registered r fields)
    (hbefore : ∀ e ∈ before, ∀ field ∈ fields, e.field ≠ field.name)
    (hbatch : batch.entries = before ++ entries)
    (hentries : List.Forall₂ (fun set e => set.Entered e ∧ set.Recovered e)
      (setFields r₀ fields values) entries) :
    decode batch fields r = .ok (normal fields values) := by
  -- With each field that is set its entry goes over to those before, where no later field finds
  -- its own name.
  induction fields generalizing before entries with
  | nil => rfl
  | cons field rest ih =>
    obtain ⟨collection, others⟩ := values
    obtain ⟨hname, hnames⟩ := List.nodup_cons.1 hnames
    obtain ⟨hown₀, hregistered₀⟩ := List.forall_mem_cons.1 hregistered₀
    obtain ⟨hown, hregistered⟩ := List.forall_mem_cons.1 hregistered
    have hother : ∀ other ∈ rest, field.name ≠ other.name := fun other hmem heq =>
      hname (List.mem_map.2 ⟨other, hmem, heq.symm⟩)
    have hbefore' : ∀ e ∈ before, ∀ other ∈ rest, e.field ≠ other.name := fun e he other hmem =>
      hbefore e he other (List.mem_cons_of_mem _ hmem)
    rw [decode, describe_eq_self hown, normal]
    simp only [setFields] at hentries
    cases hset : collection.toList? with
    | none =>
      rw [hset] at hentries
      have hnone : ∀ e ∈ batch.entries, e.field ≠ field.name := by
        intro e he heq
        obtain he | he := List.mem_append.1 (hbatch ▸ he)
        · exact hbefore e he field List.mem_cons_self heq
        · obtain ⟨other, hmem, hother'⟩ := exists_name_eq hentries e he
          exact hother other hmem (heq.symm.trans hother')
      rw [collection_of_ne hnone, collection.normalize_of_toList?_eq_none hset]
      dsimp only
      rw [ih hnames hregistered₀ hregistered hbefore' hbatch hentries]
    | some records =>
      rw [hset] at hentries
      dsimp only at hentries
      obtain _ | @⟨_, e, _, after, ⟨hentered, hrecovered⟩, hentries⟩ := hentries
      have hentry : r₀.entryFor field.component = field.component.entry :=
        Registry.entryFor_of_lookup hown₀
      have hcomponent : e.component.name = field.component.name := by
        rw [hentered.component_eq, hentry]
        rfl
      have hfirst : ∀ other ∈ before, other.field ≠ field.name := fun other hmem =>
        hbefore other hmem field List.mem_cons_self
      have hbefore'' : ∀ earlier ∈ before ++ [e], ∀ other ∈ rest, earlier.field ≠ other.name := by
        intro earlier hearlier other hmem
        obtain hearlier | rfl := List.mem_append.1 hearlier |>.imp_right List.mem_singleton.1
        · exact hbefore' earlier hearlier other hmem
        · rw [hentered.field_eq]
          exact hother other hmem
      rw [collection_of_append hbatch hfirst hentered.field_eq hcomponent (hrecovered r hown),
        collection.normalize_of_toList?_eq_some hset]
      dsimp only
      rw [ih hnames hregistered₀ hregistered hbefore'' (by rw [hbatch, List.append_cons]) hentries]

end ArchetypeField

namespace Archetype

/-- The table of the archetype and the entries of its components are its own. -/
structure OwnEntries (r : Registry) (a : Archetype) : Prop where
  table_eq : (r.describeArchetype a).1.fields =
    a.fields.map fun field => (field.name, field.component.entry)
  registered : ArchetypeField.Registered (r.describeArchetype a).2 a.fields

/-- Its own entries are those that its components are stored under. -/
theorem OwnEntries.ownTable {r : Registry} {a : Archetype} (h : OwnEntries r a) :
    OwnTable r a := by
  refine ⟨h.table_eq.trans (List.map_congr_left fun field hmem => ?_), fun field hmem =>
    ⟨_, h.registered field hmem⟩⟩
  rw [Registry.entryFor_of_lookup (h.registered field hmem)]

/-- A value that was encoded has an entry for each of its set fields, in the
order of declaration, and is decoded into its normal form wherever its
components have entries of their own. -/
theorem decode_encode_fields {r : Registry} {a : Archetype}
    (hnames : (a.fields.map (·.name)).Nodup) (hown : OwnEntries r a)
    (hoptions : ∀ field ∈ a.fields, field.component.type.optionsHaveFields = true)
    {value : a.Value} {hint : Nat} {m m' : Ledger} {batch : Batch}
    (h : a.encode r value hint m = (.ok batch, m')) :
    batch.archetype = a.name ∧
      List.Forall₂ SetField.Entered
        (ArchetypeField.setFields (r.describeArchetype a).2 a.fields value) batch.entries ∧
      ∀ r' : Registry, ArchetypeField.Registered r' a.fields →
        a.decode r' batch = .ok (a.normal value) := by
  have hapart := hown.ownTable.covers.encodedApart value hint m
  obtain ⟨harchetype, hstored⟩ := (hapart.eq_ok_iff batch).1 (congrArg Prod.fst h)
  rw [hown.ownTable.settled_eq, hown.ownTable.setFields_eq] at hstored
  have hfaithful := ArchetypeField.faithful_setFields hown.registered hoptions value
  have hentries : List.Forall₂ (fun set e => set.Entered e ∧ set.Recovered e)
      (ArchetypeField.setFields (r.describeArchetype a).2 a.fields value) batch.entries := by
    have hboth := (List.forall₂_and_left _ _).2 ⟨hfaithful, hstored⟩
    exact hboth.imp fun set e ⟨hset, hstored⟩ => hstored.entered_and_recovered hset
  refine ⟨harchetype, hentries.imp fun set e hboth => hboth.1, fun r' hregistered => ?_⟩
  have hbefore : ∀ e ∈ ([] : List BatchEntry), ∀ field ∈ a.fields, e.field ≠ field.name := nofun
  exact ArchetypeField.decode_eq_normal hnames hown.registered hregistered hbefore rfl hentries

/-- Levels, some of which are not known. -/
private def levels : Component := ⟨"samples.Level", .option (.number .uint8)⟩

/-- Four fields, all of levels. -/
private def gauge : Archetype where
  name := "samples.Gauge"
  indicator := "samples.GaugeIndicator"
  fields := [⟨"low", levels⟩, ⟨"high", levels⟩, ⟨"mean", levels⟩, ⟨"peak", levels⟩]

/-- The second field has one unknown level, the third is not set, the last has
no levels. -/
private def gaugeValue : gauge.Value :=
  (.populated [some 3#8, none], .populated [none], .unset, .populated [], ())

/-- Four fields of one component come back apart, without the one that is not
set and with the one that has no levels as an empty one. -/
theorem decode_encode_gauge :
    ∃ batch m, gauge.encode {} gaugeValue 2 { limit := some 1000 } = (.ok batch, m) ∧
      batch.entries.map (·.field) = ["low", "high", "peak"] ∧
      gauge.decode (Registry.describeArchetype {} gauge).2 batch =
        .ok (.populated [some 3#8, none], .populated [none], .unset, .empty, ()) := by
  have hown : OwnEntries {} gauge := ⟨by decide, by decide⟩
  have hencoded : gauge.encode {} gaugeValue 2 { limit := some 1000 } = (.ok _, _) := rfl
  obtain ⟨-, -, hdecoded⟩ := decode_encode_fields (by decide) hown (by decide) hencoded
  exact ⟨_, _, hencoded, rfl, hdecoded _ hown.registered⟩

/-- Records without content, some of which may be missing. -/
private def ticks : Component := ⟨"samples.Tick", .option (.record "samples.Beat" .nil)⟩

/-- One field of records without content. -/
private def clock : Archetype := ⟨"samples.Clock", "samples.ClockIndicator", [⟨"ticks", ticks⟩]⟩

/-- A record that is there, and one that is not. -/
private def clockValue : clock.Value := (.populated [some (), none], ())

/-- Options of records without content are why options must have fields: picking
the records that are there loses count of them, so what was encoded is not
decoded. -/
theorem decode_encode_clock_fails :
    (clock.fields.map (·.name)).Nodup ∧ OwnEntries {} clock ∧
      ∃ batch m, clock.encode {} clockValue 2 {} = (.ok batch, m) ∧
        ∀ value, clock.decode (Registry.describeArchetype {} clock).2 batch ≠ .ok value := by
  have hencoded : clock.encode {} clockValue 2 {} = (.ok _, _) := rfl
  refine ⟨by decide, ⟨by decide, by decide⟩, _, _, hencoded, ?_⟩
  intro value hdecoded
  exact nomatch hdecoded

end Archetype

end Columnar
