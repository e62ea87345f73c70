import Columnar.Proofs.Decoding
import Columnar.Proofs.Encoding
/-!
# Records come back in their normal form

Whether values are brought to their normal form before they are encoded makes no difference,
not even to the ledger: a value and its normal form ask a writer for the same things in the
same order, `ValueType.write_normal`.  The three ways to have no items all close a list where
it starts, and a value that is made of nothing but a missing one adds the same null.

What was encoded can always be decoded, and the records come back in their normal form:
`Component.decode_encode_eq_normal`.  The normal form is all that a chunk keeps of the records,
and it keeps all of it: normal records make the same chunk again.
-/

namespace Columnar

/-- Chains of operations that do the same, as long as what is known is carried
on, have the same outcome. -/
theorem Outcome.Ensures.foldl_congr {σ α : Type} {P : σ → Prop} {f g : α → σ → Ledger → Outcome σ}
    {items : List α} {o : Outcome σ} (h : o.Ensures P)
    (hsame : ∀ item ∈ items, ∀ a m, P a → f item a m = g item a m)
    (hstep : ∀ item ∈ items, ∀ a m, P a → (g item a m).Ensures P) :
    items.foldl (fun o item => o.andThen (f item)) o =
      items.foldl (fun o item => o.andThen (g item)) o := by
  induction items generalizing o with
  | nil => rfl
  | cons item items ih =>
    have hfirst : o.andThen (f item) = o.andThen (g item) := by
      cases hfault : o.fault with
      | none =>
        rw [Outcome.andThen_of_none hfault, Outcome.andThen_of_none hfault]
        exact hsame item List.mem_cons_self _ _ (h hfault)
      | some fault => rw [Outcome.andThen_of_some hfault, Outcome.andThen_of_some hfault]
    rw [List.foldl_cons, List.foldl_cons, hfirst]
    refine ih (h.andThen fun a m ha => hstep item List.mem_cons_self a m ha) ?_ ?_
    · exact fun other hother => hsame other (List.mem_cons_of_mem item hother)
    · exact fun other hother => hstep other (List.mem_cons_of_mem item hother)

/-- A value that counts as missing is written as a null. -/
theorem ValueType.write_of_isNull : (type : ValueType) → (value : type.Datum) →
    type.isNull value = true → (w : Writer) → (m : Ledger) → type.write value w m = w.appendNull m
  | .option _, none, _, _, _ => rfl
  | .option type, some value, h, w, m => type.write_of_isNull value h w m
  | .named _ type, value, h, w, m => type.write_of_isNull value h w m
  | .boolean, _, h, _, _ => nomatch h
  | .number _, _, h, _, _ => nomatch h
  | .text, _, h, _, _ => nomatch h
  | .bytes, _, h, _, _ => nomatch h
  | .collection _, _, h, _, _ => nomatch h
  | .record .., _, h, _, _ => nomatch h

mutual

/-- The normal form of a value is written like the value itself. -/
theorem ValueType.write_normal : (type : ValueType) → (value : type.Datum) → {w : Writer} →
    {slots : List (Option type.layout.Cell)} → w.Holds type.layout slots → (m : Ledger) →
    type.write (type.normal value) w m = type.write value w m
  | .boolean, _, _, _, _, _ => rfl
  | .number _, _, _, _, _, _ => rfl
  | .text, _, _, _, _, _ => rfl
  | .bytes, _, _, _, _, _ => rfl
  | .option _, none, _, _, _, _ => rfl
  | .option type, some value, w, slots, h, m => by
    have hsome : (ValueType.option type).write (some value) w m = type.write value w m := rfl
    cases hmissing : type.isNull value with
    | true =>
      rw [type.normal_some_of_isNull hmissing, hsome, type.write_of_isNull value hmissing]
      rfl
    | false =>
      rw [type.normal_some_of_not_isNull hmissing, hsome]
      exact type.write_normal value h m
  | .named _ type, value, w, slots, h, m => type.write_normal value h m
  | .collection type, .unset, w, slots, h, m => (Writer.Holds.appendAbsent_eq h m).symm
  | .collection _, .empty, _, _, _, _ => rfl
  | .collection type, .populated [], w, slots, h, m => (w.appendList_nil m).symm
  | .collection type, .populated (item :: items), _, _,
      ⟨ends, child, rfl, _, hchild⟩, m => by
    have hwhole : ∀ ops, (Writer.list ends type.isNullable child).appendList ops m =
        ((ops.foldl (fun (o : Outcome Writer) op => o.andThen op) (.done child m)).map
          (.list ends type.isNullable)).andThen Writer.closeList := fun _ => rfl
    have hops : ((item :: items).map fun item => type.write (type.normal item)).foldl
        (fun (o : Outcome Writer) op => o.andThen op) (.done child m) =
        ((item :: items).map fun item => type.write item).foldl
          (fun (o : Outcome Writer) op => o.andThen op) (.done child m) := by
      rw [List.foldl_map, List.foldl_map]
      refine Outcome.Ensures.foldl_congr
        (P := fun child => ∃ slots, child.Holds type.layout slots)
        (Outcome.ensures_done ⟨_, hchild⟩) ?_ ?_
      · rintro other hother w m ⟨slots, hslots⟩
        exact type.write_normal other hslots m
      · rintro other hother w m ⟨slots, hslots⟩
        exact (type.ensures_write other w slots hslots m).imp fun w' hw' => ⟨_, hw'⟩
    have hnormal : (ValueType.collection type).write
        ((ValueType.collection type).normal (.populated (item :: items))) =
          Writer.appendList
            (((item :: items).map type.normal).map fun item => type.write item) := rfl
    rw [hnormal, List.map_map, hwhole, ValueType.write, hwhole, ← hops]
    rfl
  | .record name fields, row, _, (rows : List (Option fields.layoutFields.Cells)),
      ⟨validity, columns, rfl, hvalidity, hcolumns⟩, m => by
    have hwrite := fields.write_normal row 0 columns.count hcolumns m
    exact congrArg
      (fun (o : Outcome Writers) => (o.map (.struct validity)).andThen Writer.closeRow) hwrite

/-- The normal form of a record is written like the record itself. -/
theorem FieldTypes.write_normal : (fields : FieldTypes) → (row : fields.Row) →
    (i count : Nat) → {columns : Writers} → {rows : List (Option fields.layoutFields.Cells)} →
    columns.Hold fields.layoutFields rows → (m : Ledger) →
    fields.write (fields.normal row) i count columns m = fields.write row i count columns m
  | .nil, _, _, _, _, _, _, _ => rfl
  | .cons name type rest, (value, row), i, count, _,
      (rows : List (Option (Option type.layout.Cell × rest.layoutFields.Cells))),
      ⟨column, others, rfl, hcolumn, hothers⟩, m => by
    have hfirst := type.write_normal value hcolumn m
    have hrest := rest.write_normal row (i + 1) count hothers
      (type.write value column m).ledger
    have hnormal : (FieldTypes.cons name type rest).normal (value, row) =
        (type.normal value, rest.normal row) := rfl
    rw [hnormal, FieldTypes.write, FieldTypes.write, hfirst, hrest]

end

/-- A value that counts as missing has no items. -/
theorem ValueType.itemCount_of_isNull : (type : ValueType) → (value : type.Datum) →
    type.isNull value = true → type.itemCount value = 0
  | .option _, none, _ => rfl
  | .option type, some value, h => type.itemCount_of_isNull value h
  | .named _ type, value, h => type.itemCount_of_isNull value h
  | .boolean, _, h => nomatch h
  | .number _, _, h => nomatch h
  | .text, _, h => nomatch h
  | .bytes, _, h => nomatch h
  | .collection _, _, h => nomatch h
  | .record .., _, h => nomatch h

/-- The normal form of a value has as many items. -/
theorem ValueType.itemCount_normal : (type : ValueType) → (value : type.Datum) →
    type.itemCount (type.normal value) = type.itemCount value
  | .option _, none => rfl
  | .option type, some value => by
    have hsome : (ValueType.option type).itemCount (some value) = type.itemCount value := rfl
    cases hmissing : type.isNull value with
    | true =>
      rw [type.normal_some_of_isNull hmissing, hsome, type.itemCount_of_isNull value hmissing]
      rfl
    | false =>
      rw [type.normal_some_of_not_isNull hmissing, hsome]
      exact type.itemCount_normal value
  | .named _ type, value => type.itemCount_normal value
  | .collection type, (items : Collection type.Datum) => by
    show (Collection.ofList (items.toList.map type.normal)).length = items.length
    rw [Collection.length, Collection.toList_ofList, List.length_map, Collection.length]
  | .boolean, _ => rfl
  | .number _, _ => rfl
  | .text, _ => rfl
  | .bytes, _ => rfl
  | .record .., _ => rfl

/-- The normal forms of values have as many items altogether as the values, so the same room is made
for them. -/
theorem ValueType.itemTotal_normal (type : ValueType) (values : List type.Datum) :
    type.itemTotal (values.map type.normal) = type.itemTotal values := by
  induction values with
  | nil => rfl
  | cons value values ih =>
    rw [List.map_cons, ValueType.itemTotal, ValueType.itemTotal, type.itemCount_normal, ih]

/-- So the same room is made for normal forms. -/
theorem ValueType.makeRoom_normal (type : ValueType) (values : List type.Datum) :
    type.makeRoom (values.map type.normal) = type.makeRoom values := by
  funext c m
  rw [makeRoom, makeRoom, type.itemSum?_eq, type.itemSum?_eq, type.itemTotal_normal]

/-- The slot of the normal form is added like the slot of the value. -/
theorem ValueType.writeSlot_normal (type : ValueType) (value : type.Datum) {c : Column}
    {slots : List (Option type.layout.Cell)}
    (h : Column.Holds type.layout c slots) (m : Ledger) :
    type.writeSlot (type.normal value) c m = type.writeSlot value c m := by
  obtain ⟨-, -, progress, writer, hstate, hwriter⟩ := h
  rw [type.writeSlot_eq_append, type.writeSlot_eq_append, Column.append, Column.append,
    Column.apply, Column.apply, hstate]
  dsimp only
  rw [type.write_normal value hwriter]

namespace Component

/-- A column is filled with normal records like with the records themselves. -/
theorem fill_normal {r : Registry} {c : Component} {column : Column} {records : List c.Datum}
    (h : Column.Holds c.type.layout column []) (m : Ledger) :
    c.fill r column (records.map c.type.normal) records.length m =
      c.fill r column records records.length m := by
  have hslots : ∀ start : Outcome Column,
      start.Ensures (fun column => ∃ slots, Column.Holds c.type.layout column slots) →
      (records.map c.type.normal).foldl
          (fun o record => o.andThen (c.type.writeSlot record)) start =
        records.foldl (fun o record => o.andThen (c.type.writeSlot record)) start := by
    intro start hstart
    rw [List.foldl_map]
    refine hstart.foldl_congr ?_ ?_
    · rintro record hrecord column m ⟨slots, hslots⟩
      exact c.type.writeSlot_normal record hslots m
    · rintro record hrecord column m ⟨slots, hslots⟩
      exact (c.type.ensures_writeSlot record hslots m).imp
        fun column' hcolumn' => ⟨_, hcolumn'⟩
  have htake : (records.map c.type.normal).take records.length = records.map c.type.normal :=
    List.take_of_length_le (Nat.le_of_eq (List.length_map _))
  rw [fill, fill, List.length_map, htake, List.take_length]
  split
  · rfl
  · split
    · rfl
    · rw [c.type.makeRoom_normal]
      exact hslots _ ((c.type.ensures_makeRoom records h m).imp fun _ h' => ⟨[], h'⟩)

/-- Normal records are encoded like the records themselves, whatever the ledger
has left. -/
theorem encode_normal {r : Registry} {c : Component}
    (hown : (r.entryFor c).layout = c.type.layout) (records : List c.Datum) (hint : Nat)
    (m : Ledger) :
    c.encode r (records.map c.type.normal) hint m = c.encode r records hint m := by
  have hfilled : ∀ (start : Column) (m : Ledger), Column.Holds c.type.layout start [] →
      ((start.reserve records.length m).andThen fun column m =>
        c.fill r column (records.map c.type.normal) records.length m) =
      (start.reserve records.length m).andThen fun column m =>
        c.fill r column records records.length m := by
    intro start m hstart
    cases hfault : (start.reserve records.length m).fault with
    | none =>
      rw [Outcome.andThen_of_none hfault, Outcome.andThen_of_none hfault]
      exact fill_normal (hstart.reserve records.length m hfault) _
    | some fault => rw [Outcome.andThen_of_some hfault, Outcome.andThen_of_some hfault]
  rw [encode, encode, hown, List.length_map]
  cases hnew : Column.new c.type.layout m with
  | mk made m₁ =>
    cases made with
    | error fault => rfl
    | ok start =>
      have hstart := (Column.holds_new hnew).withHint hint
      dsimp only
      rw [hfilled _ _ hstart]

end Component

/-- A column is only made for a layout that is accepted. -/
theorem Column.check_of_new {layout : Layout} {m m' : Ledger} {c : Column}
    (h : Column.new layout m = (.ok c, m')) : layout.check = .ok () := by
  rw [Column.new] at h
  cases hcheck : layout.check with
  | ok accepted => rfl
  | error fault =>
    rw [hcheck] at h
    exact nomatch h

/-- The canonical chunk of the cells of values is read as their normal forms. -/
theorem ValueType.read_chunk (type : ValueType) (hfields : type.optionsHaveFields = true)
    (hcheck : type.layout.check = .ok ()) {values : List type.Datum}
    (hsound : (type.layout.chunk (values.map type.cell)).Sound) :
    type.read (type.layout.chunk (values.map type.cell)) = .ok (values.map type.normal) := by
  have hfits := type.layout.fits_of_sound hsound (type.layout.dataType_chunk _)
  have hcells := type.layout.cells_chunk (values.map type.cell)
  have hnone : type.isNullable = false →
      none ∉ type.layout.cells (type.layout.chunk (values.map type.cell)) := by
    intro hnullable hnone
    rw [hcells] at hnone
    obtain ⟨value, -, hcell⟩ := List.mem_map.1 hnone
    have hsome := type.isSome_cell hnullable value
    rw [hcell] at hsome
    exact Bool.noConfusion hsome
  have hnulls := type.toleratesNulls_or_nullCount hfits hnone
  obtain ⟨read, hread, hvalues⟩ := type.exists_read hfields hcheck hfits hnulls
  have hnormal : (values.map type.cell).map type.ofCell = (values.map type.normal).map some := by
    rw [List.map_map, List.map_map]
    exact List.map_congr_left fun value _ => type.ofCell_cell value
  rw [hcells, hnormal] at hvalues
  have hsame : values.map type.normal = read :=
    (List.map_inj_right fun _ _ h => Option.some.inj h).1 hvalues
  rw [hread, hsame]

namespace Component

/-- Nothing is encoded for a layout that is not accepted. -/
theorem check_of_encode {r : Registry} {c : Component} {records : List c.Datum} {hint : Nat}
    {m m' : Ledger} {chunk : Chunk} (h : c.encode r records hint m = (.ok chunk, m')) :
    (r.entryFor c).layout.check = .ok () := by
  rw [encode] at h
  cases hnew : Column.new (r.entryFor c).layout m with
  | mk made m₁ =>
    cases made with
    | ok start => exact Column.check_of_new hnew
    | error fault =>
      rw [hnew] at h
      simp at h

/-- What was encoded is decoded into the normal forms of the records.  Normal
records are encoded into the same chunk, with the same memory and wherever else
there is enough of it. -/
theorem decode_encode_eq_normal {r : Registry} {c : Component}
    (hown : (r.entryFor c).layout = c.type.layout) (hfields : c.type.optionsHaveFields = true)
    {records : List c.Datum} {hint : Nat} {m m' : Ledger} {chunk : Chunk}
    (h : c.encode r records hint m = (.ok chunk, m')) :
    c.decode r chunk = .ok (records.map c.type.normal) ∧
      c.encode r (records.map c.type.normal) hint m = (.ok chunk, m') ∧
      ∀ (hint₁ : Nat) (m₁ m₁' : Ledger) (chunk₁ : Chunk),
        c.encode r (records.map c.type.normal) hint₁ m₁ = (.ok chunk₁, m₁') → chunk₁ = chunk := by
  obtain ⟨hchunk, hsound⟩ := encode_eq_chunk hown h
  have hcheck := hown ▸ check_of_encode h
  refine ⟨?_, ?_, ?_⟩
  · have htype : chunk.dataType = (r.entryFor c).dataType := by
      rw [hchunk, c.type.layout.dataType_chunk, ComponentEntry.dataType, hown]
    rw [hchunk] at hsound
    rw [decode_of_dataType_eq htype, hchunk, c.type.read_chunk hfields hcheck hsound]
    rfl
  · rw [encode_normal hown]
    exact h
  · intro hint₁ m₁ m₁' chunk₁ h₁
    rw [encode_normal hown] at h₁
    rw [(encode_eq_chunk hown h₁).1, hchunk]

/-- Collections of weights, each of which may be missing in two ways, under a
name; a collection may be missing as well. -/
private def loadsComponent : Component where
  name := "samples.Loads"
  type := .option (.collection (.option (.named "samples.Weight" (.option (.number .float32)))))

/-- A weight that is no number, a weight without a value, no weight, and three
ways to have no weights at all. -/
private def loadsRecords : List loadsComponent.Datum :=
  [some (.populated [some (some 0x7fc00001#32), some none, none]), some .unset, none,
    some (.populated []), some .empty]

/-- Five collections come back: both weights without a value as missing ones,
and the three ways to have no weights as one. -/
theorem decode_encode_loads :
    ∃ chunk m, loadsComponent.encode {} loadsRecords 2 {} = (.ok chunk, m) ∧
      loadsComponent.decode {} chunk =
        .ok [some (.populated [some (some 0x7fc00001#32), none, none]), some .empty, none,
          some .empty, some .empty] := by
  have hencoded : loadsComponent.encode {} loadsRecords 2 {} = (.ok _, _) := rfl
  obtain ⟨hdecoded, -, -⟩ := decode_encode_eq_normal rfl rfl hencoded
  exact ⟨_, _, hencoded, hdecoded⟩

end Component

end Columnar
