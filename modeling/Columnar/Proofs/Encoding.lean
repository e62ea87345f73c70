import Columnar.Encoder
import Columnar.Proofs.Columns
import Columnar.Value.Cell
/-!
# Encoding yields the canonical chunk

Records that are encoded without a fault make the canonical chunk of their
values, whatever the ledger and the guess of items per list.  The encoder
fills a tree of growing buffers by interleaved additions; that nothing of
this shows in the chunk follows from the slots that the column holds after
each record.
-/

namespace Columnar

/-- Values that are their own cells are the slots. -/
private theorem map_bind_some {α : Type} (slots : List (Option α)) :
    slots.map (·.bind some) = slots :=
  (List.map_congr_left fun slot _ => by cases slot <;> rfl).trans (List.map_id slots)

mutual

/-- The canonical chunk of values is that of the slots they take up. -/
theorem ValueType.canonical_eq_chunk : (type : ValueType) → (slots : List (Option type.Datum)) →
    type.canonical slots = type.layout.chunk (slots.map (·.bind type.cell))
  | .boolean, (slots : List (Option Bool)) =>
    congrArg Layout.boolean.chunk (map_bind_some slots).symm
  | .number kind, (slots : List (Option kind.Carrier)) =>
    congrArg (Layout.number kind).chunk (map_bind_some slots).symm
  | .bytes, (slots : List (Option (List UInt8))) =>
    congrArg Layout.binary.chunk (map_bind_some slots).symm
  | .text, (slots : List (Option String)) => by
    have hstrings : slots.map (fun slot => (slot.map Text.encode).getD []) =
        slotLists (slots.map (·.map Text.encode)) := by
      rw [slotLists, List.map_map]
      rfl
    have hchunk : ValueType.text.canonical slots = Layout.utf8.chunk slots := by
      show Chunk.utf8 (Chunk.offsetsFrom 0 ((slots.map fun slot =>
        (slot.map Text.encode).getD []).map List.length)) (slots.map fun slot =>
        (slot.map Text.encode).getD []).flatten (Mask.ofSlots slots) = _
      rw [hstrings]
      rfl
    exact hchunk.trans (congrArg Layout.utf8.chunk (map_bind_some slots).symm)
  | .option type, (slots : List (Option (Option type.Datum))) => by
    have hslots : (slots.map (·.join)).map (·.bind type.cell) =
        slots.map (·.bind (ValueType.option type).cell) := by
      rw [List.map_map]
      refine List.map_congr_left ?_
      intro slot _
      rcases slot with _ | _ | value <;> rfl
    exact (type.canonical_eq_chunk _).trans (congrArg type.layout.chunk hslots)
  | .named _ type, slots => type.canonical_eq_chunk slots
  | .collection type, (slots : List (Option (Collection type.Datum))) => by
    have hlists : slotLists (slots.map (·.bind (ValueType.collection type).cell)) =
        (slots.map Collection.slotItems).map (·.map type.cell) := by
      rw [slotLists, List.map_map, List.map_map]
      refine List.map_congr_left ?_
      intro slot _
      cases slot <;> rfl
    have hmask : Mask.ofSlots (slots.map (·.bind (ValueType.collection type).cell)) =
        Mask.ofSlots slots := Chunk.ofSlots_bind fun _ _ _ _ => rfl
    have hlengths : ((slots.map Collection.slotItems).map (·.map type.cell)).map List.length =
        (slots.map Collection.slotItems).map List.length := by
      rw [List.map_map]
      exact List.map_congr_left fun items _ => List.length_map _
    have hchild : type.canonical ((slots.map Collection.slotItems).flatten.map some) =
        type.layout.chunk ((slots.map Collection.slotItems).map (·.map type.cell)).flatten := by
      rw [type.canonical_eq_chunk, List.map_map, ← List.map_flatten]
      rfl
    show Chunk.list Layout.itemName type.isNullable
        (Chunk.offsetsFrom 0 ((slots.map Collection.slotItems).map List.length))
        (type.canonical ((slots.map Collection.slotItems).flatten.map some)) (Mask.ofSlots slots) =
      Chunk.list Layout.itemName type.isNullable
        (Chunk.offsetsFrom 0 ((slotLists (slots.map (·.bind (ValueType.collection type).cell))).map
          List.length))
        (type.layout.chunk
          (slotLists (slots.map (·.bind (ValueType.collection type).cell))).flatten)
        (Mask.ofSlots (slots.map (·.bind (ValueType.collection type).cell)))
    rw [hchild, hlists, hlengths, hmask]
  | .record name fields, (slots : List (Option fields.Row)) => by
    have hrows : slots.map (·.bind (ValueType.record name fields).cell) =
        slots.map (·.map fields.cells) :=
      List.map_congr_left fun slot _ => by cases slot <;> rfl
    have hchunk : Chunk.struct slots.length (fields.canonical slots) (Mask.ofSlots slots) =
        (Layout.struct fields.layoutFields).chunk (slots.map (·.map fields.cells)) := by
      show _ = Chunk.struct (slots.map (·.map fields.cells)).length _
        (Mask.ofSlots (slots.map (·.map fields.cells)))
      rw [List.length_map, Chunk.ofSlots_map, fields.canonical_eq_chunks]
      rfl
    exact hchunk.trans (congrArg (Layout.struct fields.layoutFields).chunk hrows.symm)

/-- The canonical columns of records are those of their rows. -/
theorem FieldTypes.canonical_eq_chunks : (fields : FieldTypes) →
    (rows : List (Option fields.Row)) →
    fields.canonical rows = fields.layoutFields.chunks (rows.map (·.map fields.cells))
  | .nil, _ => rfl
  | .cons name type rest, (rows : List (Option (type.Datum × rest.Row))) => by
    have hcolumn : (rows.map (·.map Prod.fst)).map (·.bind type.cell) =
        (rows.map (·.map (FieldTypes.cons name type rest).cells)).map (·.bind Prod.fst) := by
      rw [List.map_map, List.map_map]
      exact List.map_congr_left fun row _ => by cases row <;> rfl
    have hrest : (rows.map (·.map Prod.snd)).map (·.map rest.cells) =
        (rows.map (·.map (FieldTypes.cons name type rest).cells)).map (·.map Prod.snd) := by
      rw [List.map_map, List.map_map]
      exact List.map_congr_left fun row _ => by cases row <;> rfl
    show Chunks.cons name type.isNullable (type.canonical (rows.map (·.map Prod.fst)))
        (rest.canonical (rows.map (·.map Prod.snd))) =
      Chunks.cons name type.isNullable
        (type.layout.chunk
          ((rows.map (·.map (FieldTypes.cons name type rest).cells)).map (·.bind Prod.fst)))
        (rest.layoutFields.chunks
          ((rows.map (·.map (FieldTypes.cons name type rest).cells)).map (·.map Prod.snd)))
    rw [type.canonical_eq_chunk, rest.canonical_eq_chunks, hcolumn, hrest]

end

/-- Adding a list without items is closing a list at once. -/
theorem Writer.appendList_nil (w : Writer) (m : Ledger) : w.appendList [] m = w.closeList m := by
  cases w <;> rfl

/-- The slot of a value is added like the value itself. -/
theorem ValueType.writeSlot_eq_append : (type : ValueType) → (value : type.Datum) →
    (c : Column) → (m : Ledger) → type.writeSlot value c m = c.append (type.write value) m
  | .boolean, _, _, _ => rfl
  | .number _, _, _, _ => rfl
  | .text, _, _, _ => rfl
  | .bytes, _, _, _ => rfl
  | .option _, none, _, _ => rfl
  | .option type, some value, c, m => type.writeSlot_eq_append value c m
  | .named _ type, value, c, m => type.writeSlot_eq_append value c m
  | .collection _, .unset, _, _ => rfl
  | .collection type, .empty, c, m => by
    have hclose : (ValueType.collection type).write .empty = Writer.appendList [] := by
      funext w m
      exact (w.appendList_nil m).symm
    rw [hclose]
    rfl
  | .collection _, .populated _, _, _ => rfl
  | .record .., _, _, _ => rfl

/-- A value that is written as a slot of a column is the last one. -/
theorem ValueType.ensures_writeSlot (type : ValueType) (value : type.Datum) {c : Column}
    {slots : List (Option type.layout.Cell)} (h : Column.Holds type.layout c slots) (m : Ledger) :
    (type.writeSlot value c m).Ensures fun c' =>
      Column.Holds type.layout c' (slots ++ [type.cell value]) := by
  rw [type.writeSlot_eq_append]
  exact h.append value m

/-- Making room for the items of values leaves the slots alone. -/
theorem ValueType.ensures_makeRoom (type : ValueType) (values : List type.Datum)
    {layout : Layout} {c : Column} {slots : List (Option layout.Cell)}
    (h : Column.Holds layout c slots) (m : Ledger) :
    (type.makeRoom values c m).Ensures fun c' => Column.Holds layout c' slots := by
  obtain ⟨hroom, -⟩ | ⟨hroom, -⟩ | ⟨hroom, -⟩ := type.makeRoom_eq values c
  · rw [hroom]
    exact h.reserveItems _ m
  · rw [hroom]
    exact Outcome.ensures_stopped
  · rw [hroom]
    exact Outcome.ensures_done h

namespace Component

/-- A column that is filled gets the slots of the records, one for each. -/
theorem ensures_fill {r : Registry} {c : Component} {column : Column} {records : List c.Datum}
    (h : Column.Holds c.type.layout column []) (m : Ledger) :
    (c.fill r column records records.length m).Ensures fun column' =>
      Column.Holds c.type.layout column' (records.map c.type.cell) := by
  have hslots : records.foldl (fun slots record => slots ++ [c.type.cell record]) [] =
      records.map c.type.cell := by
    simp [← List.flatMap_def, ← List.map_eq_flatMap]
  unfold fill
  rw [if_neg (Nat.lt_irrefl _)]
  split
  · exact Outcome.ensures_stopped
  · rw [List.take_length, ← hslots]
    refine Outcome.Ensures.foldl (I := fun slots column => Column.Holds c.type.layout column slots)
      ?_ fun record _ slots column m hcolumn => c.type.ensures_writeSlot record hcolumn m
    exact c.type.ensures_makeRoom records h m

/-- What is encoded is the chunk of the slots of the records, which is sound. -/
theorem encode_eq_chunk {r : Registry} {c : Component}
    (hown : (r.entryFor c).layout = c.type.layout) {records : List c.Datum} {hint : Nat}
    {m m' : Ledger} {chunk : Chunk} (h : c.encode r records hint m = (.ok chunk, m')) :
    chunk = c.type.layout.chunk (records.map c.type.cell) ∧ chunk.Sound := by
  unfold encode at h
  rw [hown] at h
  split at h
  · simp at h
  · rename_i start m₁ hnew
    have hstart := (Column.holds_new hnew).withHint hint
    dsimp only at h
    split at h
    · simp at h
    · rename_i hfilled
      obtain ⟨hreserved, hrecords⟩ := Outcome.fault_andThen_eq_none_iff.1 hfilled
      have hroomy := hstart.reserve records.length m₁ hreserved
      have hholds := ensures_fill hroomy _ hrecords
      rw [Outcome.andThen_of_none hreserved] at h
      obtain ⟨hfinish, hsound⟩ := hholds.finish_eq
        (c.fill r ((start.withHint hint).reserve records.length m₁).value records records.length
          ((start.withHint hint).reserve records.length m₁).ledger).ledger
      rw [hfinish] at h
      obtain rfl : _ = chunk := Except.ok.inj (Prod.mk.inj h).1
      exact ⟨rfl, hsound⟩

/-- **Encoding makes canonical chunks.** When a component whose entry has its own layout is encoded,
under whatever guess of items and on whatever ledger, the chunk is the canonical one of its records,
made by recursion over the type alone, and it has one slot for each record. -/
theorem encode_eq_canonical {r : Registry} {c : Component}
    (hown : (r.entryFor c).layout = c.type.layout) {records : List c.Datum} {hint : Nat}
    {m m' : Ledger} {chunk : Chunk} (h : c.encode r records hint m = (.ok chunk, m')) :
    chunk = c.type.canonical (records.map some) ∧ chunk.length = records.length := by
  obtain ⟨hchunk, -⟩ := encode_eq_chunk hown h
  have hcells : (records.map some).map (·.bind c.type.cell) = records.map c.type.cell := by
    rw [List.map_map]
    rfl
  refine ⟨?_, ?_⟩
  · rw [c.type.canonical_eq_chunk, hcells]
    exact hchunk
  · rw [hchunk, c.type.layout.length_chunk, List.length_map]

/-- Collections of records that may be missing, of a weight that may be
missing and a label. -/
private def marksComponent : Component where
  name := "samples.Marks"
  type := .collection (.option (.record "Mark"
    (.cons "weight" (.option (.number .uint16)) (.cons "label" .text .nil))))

/-- A collection of two marks and a missing one, and two without marks. -/
private def marksRecords : List marksComponent.Datum :=
  [.populated [some (some 7#16, "a", ()), none, some (none, "bc", ())], .unset, .empty]

/-- Three collections of marks, of which one is missing and one is empty, are encoded into the
canonical chunk of three slots. -/
theorem encode_marks_eq_canonical :
    ∃ chunk m, marksComponent.encode {} marksRecords 2 {} = (.ok chunk, m) ∧
      chunk = marksComponent.type.canonical (marksRecords.map some) ∧ chunk.length = 3 := by
  have hencoded : marksComponent.encode {} marksRecords 2 {} = (.ok _, _) := rfl
  obtain ⟨hchunk, hlength⟩ := encode_eq_canonical rfl hencoded
  exact ⟨_, _, hencoded, hchunk, hlength⟩

end Component

end Columnar
