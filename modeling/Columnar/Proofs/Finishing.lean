import Mathlib.Tactic.Push
import Columnar.Proofs.Canonical
import Columnar.Proofs.Writers
import Columnar.Writer.Basic
/-!
# Finished writers

A writer whose slots are all admitted by its layout finishes with the canonical chunk of its
slots, and this chunk is sound.  Nothing checks the parts while they are filled; they fit
because every part follows from the slots.  Where an item or a field must not be null, the
slots say that it is null only if the row around it is.

A null at an item or a field that must not be null shows only when the writer is finished:
unless a null around it masks it, the parts are not assembled.  So a writer is finished exactly
if its layout admits its slots.
-/

namespace Columnar

/-- If the layout admits lists, the layout of their items admits all items of them, nulls included.
-/
theorem Layout.AdmitsAll.items {item : Layout} {nullable : Bool}
    {slots : List (Option (List (Option item.Cell)))}
    (h : (Layout.list item nullable).AdmitsAll slots) :
    item.AdmitsAll (slotLists slots).flatten ∧
      (nullable = false → none ∉ (slotLists slots).flatten) := by
  have hitems : ∀ slot ∈ (slotLists slots).flatten,
      (nullable = false → slot.isSome) ∧ ∀ cell ∈ slot, item.Admits cell := by
    intro slot hslot
    obtain ⟨list, hlist, hmem⟩ := List.mem_flatten.1 hslot
    obtain ⟨items, hitems, rfl⟩ := List.mem_map.1 hlist
    cases items with
    | none => simp at hmem
    | some items => exact h (some items) hitems items rfl slot hmem
  refine ⟨fun slot hslot => (hitems slot hslot).2, ?_⟩
  intro hnullable hnone
  exact Bool.noConfusion ((hitems none hnone).1 hnullable)

/-- The columns of admitted rows are admitted. -/
theorem LayoutFields.AdmitAll.columns {name : String} {layout : Layout} {nullable : Bool}
    {rest : LayoutFields} {rows : List (Option (Option layout.Cell × rest.Cells))}
    (h : (LayoutFields.cons name layout nullable rest).AdmitAll rows) :
    layout.AdmitsAll (rows.map (·.bind Prod.fst)) ∧ rest.AdmitAll (rows.map (·.map Prod.snd)) ∧
      (nullable = false → Mask.ofSlots (rows.map (·.bind Prod.fst)) = Mask.ofSlots rows) := by
  have hrows : ∀ slot ∈ rows, ∀ row ∈ slot,
      (nullable = false → row.1.isSome) ∧ (∀ cell ∈ row.1, layout.Admits cell) ∧ rest.Admit row.2 :=
    h
  refine ⟨?_, ?_, ?_⟩
  · intro slot hslot cell hcell
    obtain ⟨row, hrow, rfl⟩ := List.mem_map.1 hslot
    obtain ⟨values, rfl, hvalues⟩ := Option.bind_eq_some_iff.1 hcell
    exact (hrows _ hrow values rfl).2.1 cell hvalues
  · intro slot hslot others hothers
    obtain ⟨row, hrow, rfl⟩ := List.mem_map.1 hslot
    obtain ⟨values, rfl, rfl⟩ := Option.map_eq_some_iff.1 hothers
    exact (hrows _ hrow values rfl).2.2
  · intro hnullable
    exact Chunk.ofSlots_bind fun slot hslot row hrow => (hrows slot hslot row hrow).1 hnullable

namespace Chunk

/-- A mask without use is dropped once and for all. -/
theorem keepIfNull_ofSlots {α : Type} (slots : List (Option α)) :
    keepIfNull (Mask.ofSlots slots) = Mask.ofSlots slots := by
  rw [Mask.ofSlots, keepIfNull, keepIfNull, Option.filter_filter]
  simp

/-- Where a column and the rows are null together, no null is left unmasked. -/
theorem masked_self (mask : Option Mask) : masked mask mask = true := by
  cases mask with
  | none => rfl
  | some mask =>
    refine List.all_eq_true.2 ?_
    intro pair hpair
    obtain ⟨bit, row⟩ := pair
    have hsame : bit = row := by
      rw [List.zip_eq_zipWith, List.zipWith_self] at hpair
      obtain ⟨bit', -, hpair⟩ := List.mem_map.1 hpair
      simp only [Prod.mk.injEq] at hpair
      rw [← hpair.1, ← hpair.2]
    cases bit <;> simp [← hsame]

/-- Lists that reach no further than their child make a chunk of lists. -/
theorem assembleList_offsetsOf {α : Type} {nullable : Bool} {slots : List (Option (List α))}
    {child : Chunk} (hlength : (slotLists slots).flatten.length ≤ child.length)
    (hnulls : nullable = false → child.nullCount = 0) (item : String) :
    assembleList item nullable (offsetsOf (slotLists slots)) child (Mask.ofSlots slots) =
      .ok (.list item nullable (offsetsOf (slotLists slots)) child (Mask.ofSlots slots)) := by
  have hlast : (offsetsOf (slotLists slots)).getLast?.getD 0 =
      (slotLists slots).flatten.length := by
    rw [offsetsOf, getLast?_offsetsFrom, Option.getD_some, Int.zero_add]
  have hmasked : ¬(nullable = false ∧ 0 < child.nullCount) := by
    rintro ⟨hnullable, hcount⟩
    rw [hnulls hnullable] at hcount
    exact Nat.lt_irrefl 0 hcount
  rw [assembleList, slots_offsetsOf, checkMask_ofSlots]
  rw [hlast, if_neg (by omega), if_neg hmasked]
  rfl

end Chunk

/-- A column that is null only where the rows are passes the check of a struct. -/
theorem LayoutFields.checkColumns_cons {name : String} {layout : Layout} {nullable : Bool}
    {rest : LayoutFields} {rows : List (Option (Option layout.Cell × rest.Cells))}
    (hmask : nullable = false → Mask.ofSlots (rows.map (·.bind Prod.fst)) = Mask.ofSlots rows)
    (others : Chunks) :
    Chunk.checkColumns rows.length (Mask.ofSlots rows)
      (.cons name nullable (layout.chunk (rows.map (·.bind Prod.fst))) others) =
        Chunk.checkColumns rows.length (Mask.ofSlots rows) others := by
  have hlength : (layout.chunk (rows.map (·.bind Prod.fst))).length = rows.length := by
    rw [layout.length_chunk, List.length_map]
  have hmasked : ¬(nullable = false ∧ Chunk.masked (Mask.ofSlots rows)
      (layout.chunk (rows.map (·.bind Prod.fst))).logicalValidity = false) := by
    rintro ⟨hnullable, hunmasked⟩
    rw [layout.logicalValidity_chunk, hmask hnullable, Chunk.masked_self] at hunmasked
    exact Bool.noConfusion hunmasked
  rw [Chunk.checkColumns, if_neg (not_not_intro hlength), if_neg hmasked]

/-- Canonical columns of admitted rows pass the check of a struct. -/
theorem LayoutFields.checkColumns_chunks : (fields : LayoutFields) →
    {rows : List (Option fields.Cells)} → fields.AdmitAll rows →
    Chunk.checkColumns rows.length (Mask.ofSlots rows) (fields.chunks rows) = .ok ()
  | .nil, _, _ => rfl
  | .cons name layout nullable rest, (rows : List (Option (Option layout.Cell × rest.Cells))),
      h => by
    obtain ⟨-, hrest, hmask⟩ := h.columns
    have hchecked := rest.checkColumns_chunks hrest
    rw [List.length_map, Chunk.ofSlots_map] at hchecked
    exact (checkColumns_cons hmask _).trans hchecked

/-- Canonical columns make a struct if they pass its check. -/
theorem LayoutFields.assembleStruct_eq (fields : LayoutFields)
    (rows : List (Option fields.Cells)) :
    Chunk.assembleStruct rows.length (fields.chunks rows) (Mask.ofSlots rows) =
      (Chunk.checkColumns rows.length (Mask.ofSlots rows) (fields.chunks rows)).map fun _ =>
        .struct rows.length (fields.chunks rows) (Mask.ofSlots rows) := by
  cases fields with
  | nil =>
    rw [LayoutFields.chunks, Chunk.assembleStruct, Chunk.checkMask_ofSlots,
      Chunk.keepIfNull_ofSlots]
  | cons name layout nullable rest =>
    change List (Option (Option layout.Cell × rest.Cells)) at rows
    have hlength : (layout.chunk (rows.map (·.bind Prod.fst))).length = rows.length := by
      rw [layout.length_chunk, List.length_map]
    show Chunk.assembleStruct rows.length
      (.cons name nullable (layout.chunk (rows.map (·.bind Prod.fst)))
        (rest.chunks (rows.map (·.map Prod.snd)))) (Mask.ofSlots rows) = _
    have hmask := Chunk.checkMask_ofSlots rows
    rw [← hlength] at hmask
    unfold Chunk.assembleStruct
    dsimp only [Chunks.firstLength]
    rw [hmask, hlength, Chunk.keepIfNull_ofSlots]
    rfl

/-- The canonical columns of rows that are admitted pass all checks of assembling a struct. -/
theorem LayoutFields.assembleStruct_chunks (fields : LayoutFields)
    {rows : List (Option fields.Cells)} (h : fields.AdmitAll rows) :
    Chunk.assembleStruct rows.length (fields.chunks rows) (Mask.ofSlots rows) =
      .ok (.struct rows.length (fields.chunks rows) (Mask.ofSlots rows)) := by
  rw [fields.assembleStruct_eq, fields.checkColumns_chunks h]
  rfl

mutual

/-- A writer of admitted slots finishes with their canonical chunk. -/
theorem Writer.Holds.finish_eq : {layout : Layout} → {w : Writer} →
    {slots : List (Option layout.Cell)} → w.Holds layout slots → layout.AdmitsAll slots →
    w.finish = .ok (layout.chunk slots)
  | .boolean, _, _, ⟨_, rfl, h⟩, _ => h.finish_eq
  | .number _, _, _, ⟨_, rfl, h⟩, _ => h.finish_eq
  | .binary, _, _, ⟨_, rfl, h⟩, _ => h.finishBinary_eq
  | .utf8, _, (slots : List (Option String)), ⟨leaf, rfl, h⟩, _ => by
    have htext := h.finishText_eq
    rw [Chunk.ofSlots_map] at htext
    exact congrArg Except.ok htext
  | .list item nullable, _, (slots : List (Option (List (Option item.Cell)))),
      ⟨ends, child, rfl, hends, hchild⟩, hadmits => by
    obtain ⟨hitems, hnulls⟩ := Layout.AdmitsAll.items hadmits
    have hlength := item.length_chunk (slotLists slots).flatten
    rw [Writer.finish, hchild.finish_eq hitems]
    dsimp only
    rw [hends.offsets.items, hends.validity.finish_eq]
    exact Chunk.assembleList_offsetsOf (Nat.le_of_eq hlength.symm)
      (fun hnullable => item.nullCount_chunk (hnulls hnullable)) Layout.itemName
  | .struct fields, _, (rows : List (Option fields.Cells)),
      ⟨validity, columns, rfl, hvalidity, hcolumns⟩, hadmits => by
    have hlength : validity.length = rows.length :=
      hvalidity.length_eq.trans (List.length_map _)
    rw [Writer.finish, hcolumns.finish_eq hadmits]
    dsimp only
    rw [hlength, hvalidity.finish_eq]
    exact fields.assembleStruct_chunks hadmits

/-- Writers of admitted rows finish with the canonical columns of the rows. -/
theorem Writers.Hold.finish_eq : {fields : LayoutFields} → {columns : Writers} →
    {rows : List (Option fields.Cells)} → columns.Hold fields rows → fields.AdmitAll rows →
    columns.finish = .ok (fields.chunks rows)
  | .nil, _, _, rfl, _ => rfl
  | .cons name layout nullable rest, _, (rows : List (Option (Option layout.Cell × rest.Cells))),
      ⟨column, others, rfl, hcolumn, hothers⟩, hadmits => by
    obtain ⟨hfirst, hrest, -⟩ := hadmits.columns
    rw [Writers.finish, hcolumn.finish_eq hfirst, hothers.finish_eq hrest]
    rfl

end

namespace Chunk

/-- The mask of slots has one bit per slot. -/
theorem maskFits_ofSlots {α : Type} (slots : List (Option α)) :
    MaskFits slots.length (Mask.ofSlots slots) :=
  fun _ hmask => Mask.length_of_mem_ofSlots hmask

/-- A chunk without nulls is null nowhere. -/
theorem isNullAt_of_none {chunk : Chunk} (h : chunk.logicalValidity = none) (i : Nat) :
    chunk.isNullAt i = false := by
  rw [isNullAt, h]
  rfl

/-- The strings in slots that hold texts are texts. -/
theorem textsFit_offsetsOf (slots : List (Option String)) :
    TextsFit (offsetsOf (slotLists (slots.map (·.map Text.encode))))
      (slotLists (slots.map (·.map Text.encode))).flatten := by
  intro bytes hbytes
  rw [contents_offsetsOf, slotLists, List.map_map] at hbytes
  obtain ⟨slot, -, rfl⟩ := List.mem_map.1 hbytes
  cases slot with
  | none => exact "".isValidUTF8
  | some text => exact text.isValidUTF8

end Chunk

mutual

/-- The canonical chunk of slots that a writer holds is sound. -/
theorem Writer.Holds.sound_chunk : {layout : Layout} → {w : Writer} →
    {slots : List (Option layout.Cell)} → w.Holds layout slots → layout.AdmitsAll slots →
    (layout.chunk slots).Sound
  | .boolean, _, (slots : List (Option Bool)), _, _ => by
    have hmask := Chunk.maskFits_ofSlots slots
    rwa [← List.length_map (·.getD false)] at hmask
  | .number kind, _, (slots : List (Option kind.Carrier)), _, _ => by
    have hmask := Chunk.maskFits_ofSlots slots
    rwa [← List.length_map (·.getD 0)] at hmask
  | .binary, _, (slots : List (Option (List UInt8))), ⟨_, _, h⟩, _ => by
    refine ⟨Chunk.offsetsFit_offsetsOf h.ends.offsets.last_le, ?_⟩
    rw [Chunk.slots_offsetsOf]
    exact Chunk.maskFits_ofSlots slots
  | .utf8, _, (slots : List (Option String)), ⟨_, _, h⟩, _ => by
    refine ⟨Chunk.offsetsFit_offsetsOf h.ends.offsets.last_le, ?_, Chunk.textsFit_offsetsOf slots⟩
    rw [Chunk.slots_offsetsOf, List.length_map]
    exact Chunk.maskFits_ofSlots slots
  | .list item nullable, _, (slots : List (Option (List (Option item.Cell)))),
      ⟨_, _, _, hends, hchild⟩, hadmits => by
    obtain ⟨hitems, hnulls⟩ := Layout.AdmitsAll.items hadmits
    have hlength := item.length_chunk (slotLists slots).flatten
    refine ⟨?_, ?_, ?_, hchild.sound_chunk hitems⟩
    · rw [hlength]
      exact Chunk.offsetsFit_offsetsOf hends.offsets.last_le
    · rw [Chunk.slots_offsetsOf]
      exact Chunk.maskFits_ofSlots slots
    · intro hnullable i _
      apply Chunk.isNullAt_of_none
      rw [item.logicalValidity_chunk, Chunk.ofSlots_of_not_mem (hnulls hnullable)]
  | .struct fields, _, (rows : List (Option fields.Cells)), ⟨_, _, _, _, hcolumns⟩, hadmits =>
    ⟨Chunk.maskFits_ofSlots rows, hcolumns.sound_chunks hadmits⟩

/-- The canonical columns of rows that writers hold fit a struct. -/
theorem Writers.Hold.sound_chunks : {fields : LayoutFields} → {columns : Writers} →
    {rows : List (Option fields.Cells)} → columns.Hold fields rows → fields.AdmitAll rows →
    (fields.chunks rows).Sound rows.length (Mask.ofSlots rows)
  | .nil, _, _, _, _ => trivial
  | .cons name layout nullable rest, _, (rows : List (Option (Option layout.Cell × rest.Cells))),
      ⟨_, _, _, hcolumn, hothers⟩, hadmits => by
    obtain ⟨hfirst, hrest, hmask⟩ := hadmits.columns
    have hsound := hothers.sound_chunks hrest
    rw [List.length_map, Chunk.ofSlots_map] at hsound
    refine ⟨?_, ?_, hcolumn.sound_chunk hfirst, hsound⟩
    · exact (layout.length_chunk _).trans (List.length_map _)
    · intro hnullable i _ hnull
      rw [Chunk.isNullAt, layout.logicalValidity_chunk, hmask hnullable] at hnull
      show (Mask.ofSlots rows).any _ = true
      cases hrows : Mask.ofSlots rows with
      | none =>
        rw [hrows] at hnull
        exact Bool.noConfusion hnull
      | some mask =>
        rw [hrows] at hnull
        exact hnull

end

/-- Whether the flaw is a null where none may be. -/
def Flaw.isUnmaskedNull : Flaw → Bool
  | nullItem | nullField _ => true
  | _ => false

/-- Lists are admitted if their items are, which are not null where they must not be. -/
theorem Layout.admitsAll_list_iff {item : Layout} {nullable : Bool}
    {slots : List (Option (List (Option item.Cell)))} :
    (Layout.list item nullable).AdmitsAll slots ↔
      item.AdmitsAll (slotLists slots).flatten ∧
        (nullable = false → none ∉ (slotLists slots).flatten) := by
  refine ⟨fun h => Layout.AdmitsAll.items h, ?_⟩
  rintro ⟨hitems, hnulls⟩ list hlist items hsome slot hslot
  obtain rfl : list = some items := hsome
  have hmem : slot ∈ (slotLists slots).flatten :=
    List.mem_flatten.2 ⟨items, List.mem_map.2 ⟨some items, hlist, rfl⟩, hslot⟩
  refine ⟨fun hnullable => ?_, hitems slot hmem⟩
  cases slot with
  | none => exact absurd hmem (hnulls hnullable)
  | some cell => rfl

/-- Rows are admitted if their columns are, and no field is null that must not be. -/
theorem LayoutFields.admitAll_cons_iff {name : String} {layout : Layout} {nullable : Bool}
    {rest : LayoutFields} {rows : List (Option (Option layout.Cell × rest.Cells))} :
    (LayoutFields.cons name layout nullable rest).AdmitAll rows ↔
      layout.AdmitsAll (rows.map (·.bind Prod.fst)) ∧ rest.AdmitAll (rows.map (·.map Prod.snd)) ∧
        (nullable = false → ∀ slot ∈ rows, ∀ row ∈ slot, row.1.isSome) := by
  constructor
  · intro h
    obtain ⟨hcolumn, hrest, -⟩ := h.columns
    exact ⟨hcolumn, hrest, fun hnullable slot hslot row hrow => (h slot hslot row hrow).1 hnullable⟩
  · rintro ⟨hcolumn, hrest, hnulls⟩ slot hslot row hrow
    obtain rfl : slot = some row := hrow
    refine ⟨fun hnullable => hnulls hnullable _ hslot row rfl, fun cell hcell => ?_, ?_⟩
    · exact hcolumn row.1 (List.mem_map.2 ⟨some row, hslot, rfl⟩) cell hcell
    · exact hrest (some row.2) (List.mem_map.2 ⟨some row, hslot, rfl⟩) row.2 rfl

namespace Chunk

/-- Lists are not assembled over a child with a null that must not be there. -/
theorem assembleList_eq_nullItem {α : Type} {slots : List (Option (List α))} {child : Chunk}
    (hlength : child.length = (slotLists slots).flatten.length) (hnulls : 0 < child.nullCount)
    (item : String) (validity : Option Mask) :
    assembleList item false (offsetsOf (slotLists slots)) child validity = .error .nullItem := by
  have hlast : (offsetsOf (slotLists slots)).getLast?.getD 0 = child.length := by
    rw [hlength, offsetsOf, getLast?_offsetsFrom, Option.getD_some, Int.zero_add]
  rw [assembleList, hlast, if_neg (Int.lt_irrefl _), if_pos ⟨rfl, hnulls⟩]

/-- A null of a column is unmasked where the row is none. -/
theorem masked_eq_false {α β : Type} {f : α → Option β} {rows : List (Option α)} {row : α}
    (hrow : some row ∈ rows) (hnull : f row = none) :
    masked (Mask.ofSlots rows) (Mask.ofSlots (rows.map (·.bind f))) = false := by
  have hmem : none ∈ rows.map (·.bind f) := List.mem_map.2 ⟨some row, hrow, hnull⟩
  rw [ofSlots_of_mem hmem]
  by_cases hnone : none ∈ rows
  · rw [ofSlots_of_mem hnone]
    -- In the place of the row the column is null and the mask is set.
    refine List.all_eq_false.2 ⟨(false, true), ?_, by decide⟩
    rw [List.map_map, List.zip_map']
    exact List.mem_map.2 ⟨some row, hrow, by simp [hnull]⟩
  · rw [ofSlots_of_not_mem hnone]
    have hcount : 0 < ((rows.map (·.bind f)).map Option.isSome).count false :=
      List.count_pos_iff.2 (List.mem_map.2 ⟨none, hmem, rfl⟩)
    exact beq_eq_false_iff_ne.2 (Nat.ne_of_gt hcount)

end Chunk

/-- Columns with a null that must not be there are not assembled. -/
theorem LayoutFields.checkColumns_cons_eq_nullField {name : String} {layout : Layout}
    {rest : LayoutFields} {rows : List (Option (Option layout.Cell × rest.Cells))}
    {row : Option layout.Cell × rest.Cells} (hrow : some row ∈ rows) (hnull : row.1 = none)
    (others : Chunks) :
    Chunk.checkColumns rows.length (Mask.ofSlots rows)
      (.cons name false (layout.chunk (rows.map (·.bind Prod.fst))) others) =
        .error (.nullField name) := by
  have hlength : (layout.chunk (rows.map (·.bind Prod.fst))).length = rows.length := by
    rw [layout.length_chunk, List.length_map]
  rw [Chunk.checkColumns, if_neg (not_not_intro hlength), layout.logicalValidity_chunk,
    Chunk.masked_eq_false (f := Prod.fst) hrow hnull, if_pos ⟨rfl, rfl⟩]

mutual

/-- A writer of slots that are not admitted is not finished. -/
theorem Writer.Holds.refused : {layout : Layout} → {w : Writer} →
    {slots : List (Option layout.Cell)} → w.Holds layout slots → ¬ layout.AdmitsAll slots →
    ∃ flaw, w.finish = .error flaw ∧ flaw.isUnmaskedNull = true
  | .boolean, _, _, _, hnot => absurd (fun _ _ _ _ => trivial) hnot
  | .number _, _, _, _, hnot => absurd (fun _ _ _ _ => trivial) hnot
  | .binary, _, _, _, hnot => absurd (fun _ _ _ _ => trivial) hnot
  | .utf8, _, _, _, hnot => absurd (fun _ _ _ _ => trivial) hnot
  | .list item nullable, _, (slots : List (Option (List (Option item.Cell)))),
      ⟨ends, child, rfl, hends, hchild⟩, hnot => by
    rw [Writer.finish]
    by_cases hitems : item.AdmitsAll (slotLists slots).flatten
    · obtain ⟨hnullable, hnone⟩ : nullable = false ∧ none ∈ (slotLists slots).flatten := by
        refine Classical.byContradiction fun hnulls => ?_
        exact hnot (Layout.admitsAll_list_iff.2 ⟨hitems, fun hnullable hnone =>
          hnulls ⟨hnullable, hnone⟩⟩)
      subst hnullable
      rw [hchild.finish_eq hitems, hends.offsets.items]
      refine ⟨.nullItem, ?_, rfl⟩
      refine Chunk.assembleList_eq_nullItem (item.length_chunk _) ?_ _ _
      rw [Chunk.nullCount, item.validity_chunk, Chunk.ofSlots_of_mem hnone]
      exact List.count_pos_iff.2 (List.mem_map.2 ⟨none, hnone, rfl⟩)
    · obtain ⟨flaw, hflaw, hnull⟩ := hchild.refused hitems
      rw [hflaw]
      exact ⟨flaw, rfl, hnull⟩
  | .struct fields, _, (rows : List (Option fields.Cells)),
      ⟨validity, columns, rfl, hvalidity, hcolumns⟩, hnot => by
    rw [Writer.finish]
    obtain ⟨flaw, hflaw, hnull⟩ | ⟨hfinish, flaw, hflaw, hnull⟩ := hcolumns.refused hnot
    · rw [hflaw]
      exact ⟨flaw, rfl, hnull⟩
    · have hlength : validity.length = rows.length :=
        hvalidity.length_eq.trans (List.length_map _)
      rw [hfinish, hlength, hvalidity.finish_eq]
      dsimp only
      refine ⟨flaw, ?_, hnull⟩
      exact (fields.assembleStruct_eq rows).trans (congrArg (Except.map _) hflaw)

/-- Writers of rows that are not admitted are not finished, or not assembled. -/
theorem Writers.Hold.refused : {fields : LayoutFields} → {columns : Writers} →
    {rows : List (Option fields.Cells)} → columns.Hold fields rows → ¬ fields.AdmitAll rows →
    (∃ flaw, columns.finish = .error flaw ∧ flaw.isUnmaskedNull = true) ∨
      columns.finish = .ok (fields.chunks rows) ∧
        ∃ flaw, Chunk.checkColumns rows.length (Mask.ofSlots rows) (fields.chunks rows) =
          .error flaw ∧ flaw.isUnmaskedNull = true
  | .nil, _, _, _, hnot => absurd (fun _ _ _ _ => trivial) hnot
  | .cons name layout nullable rest, _, (rows : List (Option (Option layout.Cell × rest.Cells))),
      ⟨column, others, rfl, hcolumn, hothers⟩, hnot => by
    rw [Writers.finish]
    by_cases hfirst : layout.AdmitsAll (rows.map (·.bind Prod.fst))
    · rw [hcolumn.finish_eq hfirst]
      dsimp only
      have hrest : (∃ flaw, others.finish = .error flaw ∧ flaw.isUnmaskedNull = true) ∨
          others.finish = .ok (rest.chunks (rows.map (·.map Prod.snd))) ∧
            (¬ rest.AdmitAll (rows.map (·.map Prod.snd)) →
              ∃ flaw, Chunk.checkColumns rows.length (Mask.ofSlots rows)
                (rest.chunks (rows.map (·.map Prod.snd))) = .error flaw ∧
                flaw.isUnmaskedNull = true) := by
        by_cases hadmits : rest.AdmitAll (rows.map (·.map Prod.snd))
        · exact .inr ⟨hothers.finish_eq hadmits, fun hnot => absurd hadmits hnot⟩
        · refine (hothers.refused hadmits).imp_right fun ⟨hfinish, hcheck⟩ => ⟨hfinish, fun _ => ?_⟩
          rwa [List.length_map, Chunk.ofSlots_map] at hcheck
      obtain ⟨flaw, hflaw, hnull⟩ | ⟨hfinish, hcheck⟩ := hrest
      · rw [hflaw]
        exact .inl ⟨flaw, rfl, hnull⟩
      · rw [hfinish]
        refine .inr ⟨rfl, ?_⟩
        -- The flaw is in this column or in one that follows.
        by_cases hnulls : nullable = false → ∀ slot ∈ rows, ∀ row ∈ slot, row.1.isSome
        · obtain ⟨flaw, hflaw, hnull⟩ := hcheck fun hadmits =>
            hnot (LayoutFields.admitAll_cons_iff.2 ⟨hfirst, hadmits, hnulls⟩)
          refine ⟨flaw, (LayoutFields.checkColumns_cons ?_ _).trans hflaw, hnull⟩
          exact fun hnullable => Chunk.ofSlots_bind (hnulls hnullable)
        · push Not at hnulls
          obtain ⟨rfl, _, hrow, row, rfl, hnone⟩ := hnulls
          refine ⟨.nullField name, ?_, rfl⟩
          exact LayoutFields.checkColumns_cons_eq_nullField hrow (by simpa using hnone) _
    · obtain ⟨flaw, hflaw, hnull⟩ := hcolumn.refused hfirst
      rw [hflaw]
      exact .inl ⟨flaw, rfl, hnull⟩

end

end Columnar
