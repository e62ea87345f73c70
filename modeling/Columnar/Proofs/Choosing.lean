import Columnar.Proofs.Selection
import Columnar.Value.Meaning
/-!
# What choosing leaves as it was

Choosing slots leaves the datatype, the columns of every struct and the names under
which they are found.  A struct without columns stays one.

So a chunk is chosen from by an option like any other, if none of its structs is
without columns, or all of its slots are null: `Chunk.Even.filter_eq_select`.
-/

namespace Columnar

mutual

/-- Choosing slots leaves the datatype. -/
theorem Chunk.dataType_select (spans : List Span) : (chunk : Chunk) →
    (chunk.select spans).dataType = chunk.dataType
  | .boolean .. => rfl
  | .number .. => rfl
  | .utf8 .. => rfl
  | .binary .. => rfl
  | .list item nullable _ child _ => by
    rw [Chunk.select, Chunk.dataType, Chunk.dataType, child.dataType_select]
  | .struct _ columns _ => by
    rw [Chunk.select, Chunk.dataType, Chunk.dataType, columns.dataFields_select]
  | .foreign .. => rfl

/-- Choosing rows leaves the datatypes of the columns. -/
theorem Chunks.dataFields_select (spans : List Span) : (columns : Chunks) →
    (columns.select spans).dataFields = columns.dataFields
  | .nil => rfl
  | .cons name nullable column rest => by
    rw [Chunks.select, Chunks.dataFields, Chunks.dataFields, column.dataType_select,
      rest.dataFields_select]

end

mutual

/-- So does choosing from a column. -/
theorem Chunk.dataType_keep (spans : List Span) : (chunk : Chunk) →
    (chunk.keep spans).dataType = chunk.dataType
  | .struct _ columns _ => by
    rw [Chunk.keep, Chunk.dataType, Chunk.dataType, columns.dataFields_keep]
  | .boolean .. => rfl
  | .number .. => rfl
  | .utf8 .. => rfl
  | .binary .. => rfl
  | .list item nullable offsets child validity => Chunk.dataType_select spans _
  | .foreign .. => rfl

/-- And from several. -/
theorem Chunks.dataFields_keep (spans : List Span) : (columns : Chunks) →
    (columns.keep spans).dataFields = columns.dataFields
  | .nil => rfl
  | .cons name nullable column rest => by
    rw [Chunks.keep, Chunks.dataFields, Chunks.dataFields, column.dataType_keep,
      rest.dataFields_keep]

end

/-- A column is found in the datatype where it is found in the columns. -/
theorem Chunks.find?_dataFields (name : String) : (columns : Chunks) →
    columns.dataFields.find? name = (columns.find? name).map Chunk.dataType
  | .nil => rfl
  | .cons n nullable column rest => by
    rw [dataFields, DataFields.find?, find?, find?_dataFields name rest]
    split <;> rfl

/-- Filtering leaves the datatype. -/
theorem Chunk.dataType_of_filter {chunk kept : Chunk} {mask : Mask}
    (h : chunk.filter mask = .ok kept) : kept.dataType = chunk.dataType := by
  rw [filter] at h
  split at h
  · exact nomatch h
  · obtain rfl := Except.ok.inj h
    exact dataType_keep _ chunk

/-- The mask of what is chosen is chosen from the mask. -/
theorem Chunk.logicalValidity_select (spans : List Span) (chunk : Chunk) :
    (chunk.select spans).logicalValidity = pickMask spans chunk.logicalValidity := by
  cases chunk <;> rfl

mutual

/-- Choosing slots leaves every struct its columns. -/
theorem Chunk.hasEmptyStruct_select (spans : List Span) : (chunk : Chunk) →
    (chunk.select spans).hasEmptyStruct = chunk.hasEmptyStruct
  | .struct _ columns _ => by
    obtain ⟨hnone, hempty⟩ := columns.haveEmptyStruct_select spans
    rw [Chunk.select, Chunk.hasEmptyStruct, Chunk.hasEmptyStruct, hnone, hempty]
  | .boolean .. => rfl
  | .number .. => rfl
  | .utf8 .. => rfl
  | .binary .. => rfl
  | .list .. => rfl
  | .foreign .. => rfl

/-- Also in the columns. -/
theorem Chunks.haveEmptyStruct_select (spans : List Span) : (columns : Chunks) →
    (columns.select spans).toList.isEmpty = columns.toList.isEmpty ∧
      (columns.select spans).haveEmptyStruct = columns.haveEmptyStruct
  | .nil => ⟨rfl, rfl⟩
  | .cons name nullable column rest => by
    refine ⟨rfl, ?_⟩
    rw [Chunks.select, Chunks.haveEmptyStruct, Chunks.haveEmptyStruct,
      column.hasEmptyStruct_select, (rest.haveEmptyStruct_select spans).2]

end

/-- A column is found where it was. -/
theorem Chunks.find?_select (name : String) (spans : List Span) : (columns : Chunks) →
    (columns.select spans).find? name = (columns.find? name).map (Chunk.select spans)
  | .nil => rfl
  | .cons n nullable column rest => by
    rw [select, find?, find?, find?_select name spans rest]
    split <;> rfl

/-- What is chosen from some null slots and some others can only be null in part where
the whole was. -/
theorem Chunk.Mixed.of_select {chunk : Chunk} {spans : List Span}
    (h : (chunk.select spans).Mixed) : chunk.Mixed := by
  obtain ⟨mask, hmask, htrue, -⟩ := h
  rw [logicalValidity_select] at hmask
  obtain ⟨whole, hwhole, rfl⟩ := Option.map_eq_some_iff.1 hmask
  obtain ⟨hvalidity, hnull⟩ := Option.filter_eq_some_iff.1 hwhole
  refine ⟨whole, hvalidity, ?_, List.count_pos_iff.1 (of_decide_eq_true hnull)⟩
  rcases List.mem_append.1 (mem_of_mem_pick htrue) with hbit | hpadding
  · exact hbit
  · exact nomatch (List.mem_replicate.1 hpadding).2

mutual

/-- Nothing chosen is nothing kept. -/
theorem Chunk.keep_nil : (chunk : Chunk) → chunk.keep [] = chunk.select []
  | .struct _ columns _ => by
    obtain ⟨hcolumns, hlength⟩ := columns.keep_nil
    rw [Chunk.keep, Chunk.select, hcolumns, hlength]
    rfl
  | .boolean .. => rfl
  | .number .. => rfl
  | .utf8 .. => rfl
  | .binary .. => rfl
  | .list .. => rfl
  | .foreign .. => rfl

/-- Nor is anything kept of columns. -/
theorem Chunks.keep_nil : (columns : Chunks) →
    columns.keep [] = columns.select [] ∧ (columns.select []).firstLength = 0
  | .nil => ⟨rfl, rfl⟩
  | .cons name nullable column rest => by
    refine ⟨?_, ?_⟩
    · rw [Chunks.keep, Chunks.select, column.keep_nil, rest.keep_nil.1]
    · cases column <;> rfl

end

/-- A mask that marks no slot has no runs. -/
theorem Mask.runs_of_not_mem {mask : Mask} (h : true ∉ mask) : mask.runs = [] := by
  have hruns : ∀ (mask : Mask) (i : Int), true ∉ mask → mask.runsFrom i = [] := by
    intro mask
    induction mask with
    | nil => exact fun _ _ => rfl
    | cons bit mask ih =>
      intro i h
      cases bit with
      | true => exact absurd List.mem_cons_self h
      | false => exact ih (i + 1) fun hmem => h (List.mem_cons_of_mem _ hmem)
  exact hruns mask 0 h

/-- The columns of an even struct are even, wherever they are found. -/
theorem Chunks.Even.of_find? {name : String} {length : Nat} {column : Chunk} :
    {columns : Chunks} → columns.Even length → columns.find? name = some column →
    column.Even ∧ column.length = length
  | .nil, _, h => nomatch h
  | .cons n _ first rest, ⟨hlength, hfirst, hrest⟩, h => by
    rw [find?] at h
    split at h
    · obtain rfl := Option.some.inj h
      exact ⟨hfirst, hlength⟩
    · exact hrest.of_find? h

/-- The mask of an even chunk has a bit for each slot. -/
theorem Chunk.Even.maskFits {chunk : Chunk} (h : chunk.Even) :
    MaskFits chunk.length chunk.logicalValidity := by
  cases chunk with
  | boolean | number => exact h
  | utf8 | binary => exact h.2
  | list => exact h.2.1
  | struct => exact h.1
  | foreign => exact h.2

/-- Of an even chunk whose structs have columns, unless nothing or all of it is null, an
option chooses the slots that are there. -/
theorem Chunk.Even.filter_eq_select {chunk : Chunk} {mask : Mask} (h : chunk.Even)
    (hempty : chunk.Mixed → chunk.hasEmptyStruct = false)
    (hmask : chunk.logicalValidity.filter (0 < Mask.nullCount ·) = some mask) :
    SpansFit chunk.length 0 mask.runs ∧ mask.length = chunk.length ∧
      chunk.filter mask = .ok (chunk.select mask.runs) := by
  obtain ⟨hvalidity, hnull⟩ := Option.filter_eq_some_iff.1 hmask
  have hlength := h.maskFits mask hvalidity
  have hspans : SpansFit chunk.length 0 mask.runs := hlength ▸ spansFit_runs mask
  refine ⟨hspans, hlength, ?_⟩
  rw [h.filter_eq (Nat.le_of_eq hlength)]
  by_cases hvalid : true ∈ mask
  · have hmixed : chunk.Mixed :=
      ⟨mask, hvalidity, hvalid, List.count_pos_iff.1 (of_decide_eq_true hnull)⟩
    rw [h.keep_eq_select (hempty hmixed) hspans]
  · rw [Mask.runs_of_not_mem hvalid, chunk.keep_nil]

end Columnar
