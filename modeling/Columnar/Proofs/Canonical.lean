import Columnar.Chunk.Sound
import Columnar.Proofs.Buffer
/-!
# Canonical chunks have the slots they were made of

Facts about the canonical chunk of some slots: it has one slot for each, a
null exactly where the slot is null, its offsets are tight, its datatype is
that of the layout, and reading its slots gives the slots back:
`Layout.cells_chunk`.  So two lists of slots with the same canonical chunk are
the same list.
-/

namespace Columnar

namespace Chunk

/-- The offsets of lists that start somewhere reach as far as the lists do. -/
theorem getLast?_offsetsFrom {α : Type} (start : Int) (lists : List (List α)) :
    (offsetsFrom start (lists.map List.length)).getLast? =
      some (start + (lists.flatten.length : Nat)) := by
  induction lists generalizing start with
  | nil => simp [offsetsFrom]
  | cons list lists ih =>
    have hrest := ih (start + list.length)
    simp only [List.map_cons, offsetsFrom, List.getLast?_cons, hrest, List.flatten_cons,
      List.length_append, Int.natCast_add, Option.getD_some]
    rw [Int.add_assoc]

/-- The first of the offsets that are made for lists is where the lists start. -/
theorem head?_offsetsFrom (start : Int) (lengths : List Nat) :
    (offsetsFrom start lengths).head? = some start := by
  cases lengths <;> rfl

/-- Offsets of lists lie between the start and the end of the lists. -/
theorem mem_offsetsFrom {α : Type} {start offset : Int} {lists : List (List α)}
    (h : offset ∈ offsetsFrom start (lists.map List.length)) :
    start ≤ offset ∧ offset ≤ start + (lists.flatten.length : Nat) := by
  induction lists generalizing start with
  | nil =>
    obtain rfl : offset = start := by simpa [offsetsFrom] using h
    simp
  | cons list lists ih =>
    rw [List.map_cons, offsetsFrom, List.mem_cons] at h
    rw [List.flatten_cons, List.length_append, Int.natCast_add]
    rcases h with rfl | hrest
    · omega
    · have hbetween := ih hrest
      omega

/-- The offsets that are made for lists never descend. -/
theorem pairwise_offsetsFrom {α : Type} (start : Int) (lists : List (List α)) :
    (offsetsFrom start (lists.map List.length)).Pairwise (· ≤ ·) := by
  induction lists generalizing start with
  | nil => exact List.pairwise_singleton _ _
  | cons list lists ih =>
    refine List.pairwise_cons.2 ⟨?_, ih _⟩
    intro offset hoffset
    have hbetween := mem_offsetsFrom hoffset
    omega

/-- There is one offset more than there are lists. -/
theorem length_offsetsOf {α : Type} (lists : List (List α)) :
    (offsetsOf lists).length = lists.length + 1 := by
  rw [offsetsOf, length_offsetsFrom, List.length_map]

/-- Offsets of the lists in slots make as many slots. -/
theorem slots_offsetsOf {α : Type} (slots : List (Option (List α))) :
    (offsetsOf (slotLists slots)).length - 1 = slots.length := by
  rw [length_offsetsOf, slotLists, List.length_map, Nat.add_sub_cancel]

/-- Offsets of lists that are not too long fit their content. -/
theorem offsetsFit_offsetsOf {α : Type} {lists : List (List α)}
    (h : lists.flatten.length ≤ Offsets.maxOffset) :
    OffsetsFit (offsetsOf lists) lists.flatten.length := by
  refine ⟨?_, ?_, pairwise_offsetsFrom 0 lists⟩
  · apply List.ne_nil_of_length_pos
    rw [length_offsetsOf]
    exact Nat.succ_pos _
  · intro offset hoffset
    have hbetween := mem_offsetsFrom hoffset
    omega

/-- Lists that lie between other items are cut out of the whole again. -/
private theorem contents_offsetsFrom {α : Type} (before : List α) (lists : List (List α))
    (after : List α) :
    contents (offsetsFrom before.length (lists.map List.length))
      (before ++ (lists.flatten ++ after)) = lists := by
  induction lists generalizing before with
  | nil => rfl
  | cons list lists ih =>
    have hrest := ih (before ++ list)
    obtain ⟨offsets, hoffsets⟩ :
        ∃ offsets, offsetsFrom (before.length + list.length : Int) (lists.map List.length) =
          (before.length + list.length : Int) :: offsets := by
      cases lists <;> exact ⟨_, rfl⟩
    simp only [List.length_append, Int.natCast_add, hoffsets, List.append_assoc] at hrest
    have hcut : cut (before ++ (list ++ (lists.flatten ++ after)))
        ⟨(before.length : Int), before.length + list.length⟩ = list := by
      have hlength : ((before.length : Int) + list.length - before.length).toNat =
          list.length := by omega
      rw [cut, Span.length, hlength, Int.toNat_natCast, List.drop_left, List.take_left]
    rw [List.map_cons, offsetsFrom, hoffsets, List.flatten_cons, List.append_assoc]
    show cut _ _ :: contents _ _ = _
    rw [hcut, hrest]

/-- Lists without gaps are cut out of their content again, whatever comes after. -/
theorem contents_offsetsOf_append {α : Type} (lists : List (List α)) (after : List α) :
    contents (offsetsOf lists) (lists.flatten ++ after) = lists :=
  contents_offsetsFrom [] lists after

/-- Lists without gaps are cut out of their content again. -/
theorem contents_offsetsOf {α : Type} (lists : List (List α)) :
    contents (offsetsOf lists) lists.flatten = lists := by
  have hcontents := contents_offsetsOf_append lists []
  rwa [List.append_nil] at hcontents

/-- Slots that are null in the same places have the same mask. -/
theorem ofSlots_bind {α β : Type} {f : α → Option β} {slots : List (Option α)}
    (h : ∀ slot ∈ slots, ∀ a ∈ slot, (f a).isSome) :
    Mask.ofSlots (slots.map (·.bind f)) = Mask.ofSlots slots := by
  have hflags : (slots.map (·.bind f)).map Option.isSome = slots.map Option.isSome := by
    rw [List.map_map]
    refine List.map_congr_left ?_
    intro slot hslot
    cases slot with
    | none => rfl
    | some a => exact h (some a) hslot a rfl
  rw [Mask.ofSlots, Mask.ofSlots, hflags]

/-- What is read off the values leaves the mask as it is. -/
theorem ofSlots_map {α β : Type} (f : α → β) (slots : List (Option α)) :
    Mask.ofSlots (slots.map (·.map f)) = Mask.ofSlots slots := by
  have hbind : slots.map (·.map f) = slots.map (·.bind fun a => some (f a)) :=
    List.map_congr_left fun slot _ => by cases slot <;> rfl
  rw [hbind]
  exact ofSlots_bind fun _ _ _ _ => rfl

/-- Slots of which none is null have no mask in the canonical chunk. -/
theorem ofSlots_of_not_mem {α : Type} {slots : List (Option α)} (h : none ∉ slots) :
    Mask.ofSlots slots = none := by
  apply keepIfNull_of_not_mem
  intro hmem
  obtain ⟨slot, hslot, hnull⟩ := List.mem_map.1 hmem
  obtain rfl : slot = none := by simpa using hnull
  exact h hslot

/-- Slots with a null have their flags as the mask. -/
theorem ofSlots_of_mem {α : Type} {slots : List (Option α)} (h : none ∈ slots) :
    Mask.ofSlots slots = some (slots.map Option.isSome) :=
  keepIfNull_of_mem (List.mem_map.2 ⟨none, h, rfl⟩)

/-- The mask of slots shows the slots, whatever lies beneath the nulls. -/
theorem shown_ofSlots {α : Type} (slots : List (Option α)) {beneath : Option α → α}
    (h : ∀ a, beneath (some a) = a) : shown (Mask.ofSlots slots) (slots.map beneath) = slots := by
  by_cases hnull : none ∈ slots
  · rw [ofSlots_of_mem hnull]
    simp only [shown, List.zipWith_map, List.zipWith_self]
    refine (List.map_congr_left ?_).trans (List.map_id slots)
    intro slot _
    cases slot with
    | none => rfl
    | some a => simp [h a]
  · rw [ofSlots_of_not_mem hnull]
    simp only [shown, List.map_map]
    refine (List.map_congr_left ?_).trans (List.map_id slots)
    intro slot hslot
    cases slot with
    | none => exact absurd hslot hnull
    | some a => simp [h a]

end Chunk

/-- The canonical chunk has as many slots as it was made of. -/
theorem Layout.length_chunk : (layout : Layout) → (slots : List (Option layout.Cell)) →
    (layout.chunk slots).length = slots.length
  | .boolean, _ => List.length_map _
  | .number _, _ => List.length_map _
  | .binary, slots => Chunk.slots_offsetsOf slots
  | .utf8, _ => (Chunk.slots_offsetsOf _).trans (List.length_map _)
  | .list _ _, slots => Chunk.slots_offsetsOf slots
  | .struct _, _ => rfl

/-- The canonical chunk has a mask if some slot is null, and then with the flags of the slots. -/
theorem Layout.validity_chunk : (layout : Layout) → (slots : List (Option layout.Cell)) →
    (layout.chunk slots).validity = Mask.ofSlots slots
  | .boolean, _ => rfl
  | .number _, _ => rfl
  | .binary, _ => rfl
  | .utf8, _ => rfl
  | .list _ _, _ => rfl
  | .struct _, _ => rfl

/-- The mask of the slots is what the chunk means, too. -/
theorem Layout.logicalValidity_chunk : (layout : Layout) → (slots : List (Option layout.Cell)) →
    (layout.chunk slots).logicalValidity = Mask.ofSlots slots
  | .boolean, _ => rfl
  | .number _, _ => rfl
  | .binary, _ => rfl
  | .utf8, _ => rfl
  | .list _ _, _ => rfl
  | .struct _, _ => rfl

/-- The canonical chunk of slots of which none is null counts no nulls. -/
theorem Layout.nullCount_chunk (layout : Layout) {slots : List (Option layout.Cell)}
    (h : none ∉ slots) : (layout.chunk slots).nullCount = 0 := by
  rw [Chunk.nullCount, layout.validity_chunk, Chunk.ofSlots_of_not_mem h]
  rfl

mutual

/-- The canonical chunk of any slots has the datatype of the layout. -/
theorem Layout.dataType_chunk : (layout : Layout) → (slots : List (Option layout.Cell)) →
    (layout.chunk slots).dataType = layout.toDataType
  | .boolean, _ => rfl
  | .number _, _ => rfl
  | .binary, _ => rfl
  | .utf8, _ => rfl
  | .list item _, slots => by
    simp only [Layout.chunk, Chunk.dataType, Layout.toDataType, item.dataType_chunk]
  | .struct fields, rows => congrArg DataType.struct (fields.dataFields_chunks rows)

/-- The fields of the datatype are those of the layout. -/
theorem LayoutFields.dataFields_chunks : (fields : LayoutFields) →
    (rows : List (Option fields.Cells)) → (fields.chunks rows).dataFields = fields.toDataFields
  | .nil, _ => rfl
  | .cons _ layout _ rest, rows => by
    simp only [LayoutFields.chunks, Chunks.dataFields, LayoutFields.toDataFields,
      layout.dataType_chunk, rest.dataFields_chunks]

end

mutual

/-- Canonical chunks are tight: their offsets start at zero and end where the content ends, at every
depth. -/
theorem Layout.tight_chunk : (layout : Layout) → (slots : List (Option layout.Cell)) →
    (layout.chunk slots).Tight
  | .boolean, _ => trivial
  | .number _, _ => trivial
  | .binary, _ =>
    ⟨Chunk.head?_offsetsFrom _ _, by simp [Chunk.offsetsOf, Chunk.getLast?_offsetsFrom]⟩
  | .utf8, _ =>
    ⟨Chunk.head?_offsetsFrom _ _, by simp [Chunk.offsetsOf, Chunk.getLast?_offsetsFrom]⟩
  | .list item _, slots => by
    refine ⟨Chunk.head?_offsetsFrom _ _, ?_, item.tight_chunk _⟩
    rw [item.length_chunk]
    simp [Chunk.offsetsOf, Chunk.getLast?_offsetsFrom]
  | .struct fields, rows => fields.tight_chunks rows

/-- Canonical columns are tight. -/
theorem LayoutFields.tight_chunks : (fields : LayoutFields) →
    (rows : List (Option fields.Cells)) → (fields.chunks rows).Tight
  | .nil, _ => trivial
  | .cons _ layout _ rest, _ => ⟨layout.tight_chunk _, rest.tight_chunks _⟩

end

/-- A row of nulls. -/
def LayoutFields.nulls : (fields : LayoutFields) → fields.Cells
  | .nil => ()
  | .cons _ _ _ rest => (none, rest.nulls)

mutual

/-- The slots of a canonical chunk are those it was made of. -/
theorem Layout.cells_chunk : (layout : Layout) → (slots : List (Option layout.Cell)) →
    layout.cells (layout.chunk slots) = slots
  | .boolean, slots => Chunk.shown_ofSlots slots fun _ => rfl
  | .number kind, (slots : List (Option kind.Carrier)) => by
    have hcells : (Layout.number kind).cells ((Layout.number kind).chunk slots) =
        Chunk.shown (Mask.ofSlots slots) (slots.map (·.getD 0)) := dif_pos rfl
    rw [hcells]
    exact Chunk.shown_ofSlots slots fun _ => rfl
  | .binary, (slots : List (Option (List UInt8))) => by
    show Chunk.shown (Mask.ofSlots slots) (Chunk.contents _ _) = slots
    rw [Chunk.contents_offsetsOf]
    exact Chunk.shown_ofSlots slots fun _ => rfl
  | .utf8, (slots : List (Option String)) => by
    show Chunk.shown (Mask.ofSlots slots) ((Chunk.contents _ _).map Text.decode) = slots
    rw [Chunk.contents_offsetsOf, slotLists, List.map_map, List.map_map]
    exact Chunk.shown_ofSlots slots fun text => Text.decode_encode text
  | .list item nullable, (slots : List (Option (List (Option item.Cell)))) => by
    show Chunk.shown (Mask.ofSlots slots)
      (Chunk.contents _ (item.cells (item.chunk (slotLists slots).flatten))) = slots
    rw [item.cells_chunk, Chunk.contents_offsetsOf]
    exact Chunk.shown_ofSlots slots fun _ => rfl
  | .struct fields, (rows : List (Option fields.Cells)) => by
    show Chunk.shown (Mask.ofSlots rows) (fields.rows rows.length (fields.chunks rows)) = rows
    rw [fields.rows_chunks]
    exact Chunk.shown_ofSlots rows fun _ => rfl

/-- The rows of canonical columns are those they were made of; beneath a null
row there are nulls. -/
theorem LayoutFields.rows_chunks : (fields : LayoutFields) →
    (rows : List (Option fields.Cells)) →
    fields.rows rows.length (fields.chunks rows) = rows.map (·.getD fields.nulls)
  | .nil, _ => (List.eq_replicate_iff.2 ⟨List.length_map _, fun _ _ => rfl⟩).symm
  | .cons _ layout _ rest, (rows : List (Option (Option layout.Cell × rest.Cells))) => by
    have hrest := rest.rows_chunks (rows.map (·.map Prod.snd))
    rw [List.length_map] at hrest
    show (layout.cells (layout.chunk (rows.map (·.bind Prod.fst)))).zip
      (rest.rows rows.length (rest.chunks (rows.map (·.map Prod.snd)))) = _
    rw [layout.cells_chunk, hrest, List.map_map, List.zip_map']
    refine List.map_congr_left ?_
    intro row _
    cases row <;> rfl

end

end Columnar
