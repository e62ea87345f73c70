import Columnar.Chunk.Sound
import Columnar.Proofs.Spans
/-!
# Chunks that fit a layout

A sound chunk of the layout's datatype has just the parts that the layout
says: `Layout.fits_of_sound`.  `Layout.Fits` is what remains of soundness when
one looks at the slots: where the layout forbids nulls there are none, except
beneath a null row.

Nulls of the slots are nulls of the mask: `Layout.Fits.map_isSome_cells`.
-/

namespace Columnar

namespace Chunk

/-- One flag for each slot: without a mask all are set. -/
def flags (length : Nat) (validity : Option Mask) : List Bool :=
  validity.getD (List.replicate length true)

/-- The flags that a mask gives to slots are as many as the slots. -/
theorem length_flags {length : Nat} {validity : Option Mask} (h : MaskFits length validity) :
    (flags length validity).length = length := by
  cases validity with
  | none => exact List.length_replicate
  | some mask => exact h mask rfl

/-- A member that counts, and the place of one that does not. -/
def slotOf {α : Type} (valid : Bool) (x : α) : Option α := if valid then some x else none

/-- The slots that a mask shows, flag by flag. -/
theorem shown_eq_zipWith {α : Type} {validity : Option Mask} {xs : List α} :
    shown validity xs = List.zipWith slotOf (flags xs.length validity) xs := by
  cases validity with
  | none =>
    show xs.map some = List.zipWith slotOf (List.replicate xs.length true) xs
    induction xs with
    | nil => rfl
    | cons x xs ih =>
      rw [List.map_cons, List.length_cons, List.replicate_succ, List.zipWith_cons_cons, ih]
      rfl
  | some mask => rfl

/-- There is one slot for each member. -/
theorem length_shown {α : Type} {length : Nat} {validity : Option Mask} {xs : List α}
    (hlength : xs.length = length) (h : MaskFits length validity) :
    (shown validity xs).length = length := by
  subst hlength
  rw [shown_eq_zipWith, List.length_zipWith, length_flags h, Nat.min_self]

/-- What a mask shows of members is there exactly where its flags are set. -/
theorem map_isSome_shown {α : Type} {length : Nat} {validity : Option Mask} {xs : List α}
    (hlength : xs.length = length) (h : MaskFits length validity) :
    (shown validity xs).map Option.isSome = flags length validity := by
  subst hlength
  have hslot : (fun (valid : Bool) (x : α) => (slotOf valid x).isSome) = fun valid _ => valid := by
    funext valid x
    cases valid <;> rfl
  have hfirst : List.zipWith (fun valid _ => valid) (flags xs.length validity) xs =
      ((flags xs.length validity).zip xs).map Prod.fst := by
    rw [List.zip, List.map_zipWith]
  rw [shown_eq_zipWith, List.map_zipWith, hslot, hfirst,
    List.map_fst_zip (Nat.le_of_eq (length_flags h))]

/-- There is one content for each slot. -/
theorem length_contents {α : Type} (offsets : List Int) (content : List α) :
    (contents offsets content).length = offsets.length - 1 := by
  rw [contents, List.length_map, length_itemSpans]

/-- Where nothing is null a mask marks no null. -/
theorem nullCount_eq_zero_iff {α : Type} {chunk : Chunk} {slots : List (Option α)}
    (h : slots.map Option.isSome = flags chunk.length chunk.validity) :
    chunk.nullCount = 0 ↔ none ∉ slots := by
  have hnone : none ∈ slots ↔ false ∈ flags chunk.length chunk.validity := by
    rw [← h]
    simp
  rw [hnone, nullCount, flags]
  cases chunk.validity with
  | none => simp
  | some mask => exact List.count_eq_zero

/-- A slot is null where its flag is not set. -/
theorem isNullAt_eq_true_iff {α : Type} {chunk : Chunk} {slots : List (Option α)} {i : Nat}
    (hsame : chunk.logicalValidity = chunk.validity)
    (h : slots.map Option.isSome = flags chunk.length chunk.validity) :
    chunk.isNullAt i = true ↔ slots[i]? = some none := by
  have hflag : slots[i]? = some none ↔ (flags chunk.length chunk.validity)[i]? = some false := by
    rw [← h, List.getElem?_map]
    rcases slots[i]? with _ | _ | a <;> simp
  rw [hflag, isNullAt, hsame, flags]
  cases chunk.validity with
  | none => simp [List.getElem?_replicate]
  | some mask => simp

end Chunk

mutual

/-- The chunk has the parts of the layout, and they fit together. -/
def Layout.Fits : Layout → Chunk → Prop
  | .boolean, chunk =>
    ∃ values validity, chunk = .boolean values validity ∧ Chunk.MaskFits values.length validity
  | .number kind, chunk =>
    ∃ values validity, chunk = .number kind values validity ∧
      Chunk.MaskFits values.length validity
  | .binary, chunk =>
    ∃ offsets content validity, chunk = .binary offsets content validity ∧
      Chunk.OffsetsFit offsets content.length ∧ Chunk.MaskFits (offsets.length - 1) validity
  | .utf8, chunk =>
    ∃ offsets content validity, chunk = .utf8 offsets content validity ∧
      Chunk.OffsetsFit offsets content.length ∧ Chunk.MaskFits (offsets.length - 1) validity
  | .list item nullable, chunk =>
    ∃ name offsets child validity, chunk = .list name nullable offsets child validity ∧
      Chunk.OffsetsFit offsets child.length ∧ Chunk.MaskFits (offsets.length - 1) validity ∧
      item.Fits child ∧ (nullable = false → none ∉ item.cells child)
  | .struct fields, chunk =>
    ∃ length columns validity, chunk = .struct length columns validity ∧
      Chunk.MaskFits length validity ∧ fields.Fit length (Chunk.flags length validity) columns

/-- The columns are those of the fields and as long as the struct, and what
must not be null is null only in rows whose flag is not set. -/
def LayoutFields.Fit : LayoutFields → Nat → List Bool → Chunks → Prop
  | .nil, _, _, columns => columns = .nil
  | .cons name layout nullable rest, length, rows, columns =>
    ∃ column others, columns = .cons name nullable column others ∧ column.length = length ∧
      layout.Fits column ∧
      (nullable = false → ∀ pair ∈ rows.zip (layout.cells column), pair.1 = true → pair.2.isSome) ∧
      rest.Fit length rows others

end

mutual

/-- A chunk that fits has the slots that it counts. -/
theorem Layout.Fits.length_cells : {layout : Layout} → {chunk : Chunk} → layout.Fits chunk →
    (layout.cells chunk).length = chunk.length
  | .boolean, _, ⟨_, _, rfl, h⟩ => Chunk.length_shown rfl h
  | .number kind, _, ⟨values, validity, rfl, h⟩ => by
    have hcells : (Layout.number kind).cells (.number kind values validity) =
        Chunk.shown validity values := dif_pos rfl
    rw [hcells]
    exact Chunk.length_shown rfl h
  | .binary, _, ⟨offsets, content, _, rfl, _, h⟩ =>
    Chunk.length_shown (Chunk.length_contents offsets content) h
  | .utf8, _, ⟨offsets, content, _, rfl, _, h⟩ =>
    Chunk.length_shown ((List.length_map _).trans (Chunk.length_contents offsets content)) h
  | .list _ _, _, ⟨_, offsets, _, _, rfl, _, h, _⟩ =>
    Chunk.length_shown (Chunk.length_contents offsets _) h
  | .struct _, _, ⟨_, _, _, rfl, h, hcolumns⟩ => Chunk.length_shown hcolumns.length_rows h

/-- Columns that fit have as many rows as the struct. -/
theorem LayoutFields.Fit.length_rows : {fields : LayoutFields} → {length : Nat} →
    {rows : List Bool} → {columns : Chunks} → fields.Fit length rows columns →
    (fields.rows length columns).length = length
  | .nil, _, _, _, _ => List.length_replicate
  | .cons _ layout _ rest, length, _, _, ⟨column, others, rfl, hlength, hfits, _, hothers⟩ => by
    show ((layout.cells column).zip (rest.rows length others)).length = length
    rw [List.length_zip, hfits.length_cells, hothers.length_rows, hlength, Nat.min_self]

end

/-- The mask of a chunk that fits tells which slots are null. -/
theorem Layout.Fits.map_isSome_cells : {layout : Layout} → {chunk : Chunk} → layout.Fits chunk →
    (layout.cells chunk).map Option.isSome = Chunk.flags chunk.length chunk.validity
  | .boolean, _, ⟨_, _, rfl, h⟩ => Chunk.map_isSome_shown rfl h
  | .number kind, _, ⟨values, validity, rfl, h⟩ => by
    have hcells : (Layout.number kind).cells (.number kind values validity) =
        Chunk.shown validity values := dif_pos rfl
    rw [hcells]
    exact Chunk.map_isSome_shown rfl h
  | .binary, _, ⟨offsets, content, _, rfl, _, h⟩ =>
    Chunk.map_isSome_shown (Chunk.length_contents offsets content) h
  | .utf8, _, ⟨offsets, content, _, rfl, _, h⟩ =>
    Chunk.map_isSome_shown ((List.length_map _).trans (Chunk.length_contents offsets content)) h
  | .list _ _, _, ⟨_, offsets, _, _, rfl, _, h, _⟩ =>
    Chunk.map_isSome_shown (Chunk.length_contents offsets _) h
  | .struct _, _, ⟨_, _, _, rfl, h, hcolumns⟩ => Chunk.map_isSome_shown hcolumns.length_rows h

/-- The mask that a chunk means is the one it has. -/
theorem Layout.Fits.logicalValidity_eq : {layout : Layout} → {chunk : Chunk} →
    layout.Fits chunk → chunk.logicalValidity = chunk.validity
  | .boolean, _, ⟨_, _, rfl, _⟩ => rfl
  | .number _, _, ⟨_, _, rfl, _⟩ => rfl
  | .binary, _, ⟨_, _, _, rfl, _⟩ => rfl
  | .utf8, _, ⟨_, _, _, rfl, _⟩ => rfl
  | .list _ _, _, ⟨_, _, _, _, rfl, _⟩ => rfl
  | .struct _, _, ⟨_, _, _, rfl, _⟩ => rfl

/-- A chunk that fits counts no null exactly if no slot is null. -/
theorem Layout.Fits.nullCount_eq_zero_iff {layout : Layout} {chunk : Chunk}
    (h : layout.Fits chunk) : chunk.nullCount = 0 ↔ none ∉ layout.cells chunk :=
  Chunk.nullCount_eq_zero_iff h.map_isSome_cells

/-- A slot of a chunk that fits is null where the chunk says so. -/
theorem Layout.Fits.isNullAt_eq_true_iff {layout : Layout} {chunk : Chunk} (h : layout.Fits chunk)
    (i : Nat) : chunk.isNullAt i = true ↔ (layout.cells chunk)[i]? = some none :=
  Chunk.isNullAt_eq_true_iff h.logicalValidity_eq h.map_isSome_cells

/-- Some slot of a chunk that fits is null exactly if the chunk says so of one. -/
theorem Layout.Fits.none_mem_cells_iff {layout : Layout} {chunk : Chunk} (h : layout.Fits chunk) :
    none ∈ layout.cells chunk ↔ ∃ i < chunk.length, chunk.isNullAt i = true := by
  constructor
  · intro hnone
    obtain ⟨i, hi⟩ := List.mem_iff_getElem?.1 hnone
    refine ⟨i, ?_, (h.isNullAt_eq_true_iff i).2 hi⟩
    rw [← h.length_cells]
    exact (List.getElem?_eq_some_iff.1 hi).1
  · rintro ⟨i, -, hnull⟩
    exact List.mem_of_getElem? ((h.isNullAt_eq_true_iff i).1 hnull)

/-- No layout has the datatype of an array that is only looked at from outside. -/
theorem Layout.not_foreign : (layout : Layout) → {type : DataType} → {length : Nat} →
    {validity logical : Option Mask} → (Chunk.foreign type length validity logical).Sound →
    type ≠ layout.toDataType
  | .boolean, _, _, _, _, hsound, rfl => Bool.noConfusion hsound.1
  | .number _, _, _, _, _, hsound, rfl => Bool.noConfusion hsound.1
  | .binary, _, _, _, _, hsound, rfl => Bool.noConfusion hsound.1
  | .utf8, _, _, _, _, hsound, rfl => Bool.noConfusion hsound.1
  | .list _ _, _, _, _, _, hsound, rfl => Bool.noConfusion hsound.1
  | .struct _, _, _, _, _, hsound, rfl => Bool.noConfusion hsound.1

mutual

/-- A sound chunk of the layout's datatype fits the layout. -/
theorem Layout.fits_of_sound : (layout : Layout) → {chunk : Chunk} → chunk.Sound →
    chunk.dataType = layout.toDataType → layout.Fits chunk
  | .boolean, chunk, hsound, htype => by
    cases chunk with
    | boolean values validity => exact ⟨values, validity, rfl, hsound⟩
    | foreign type length validity logical => exact absurd htype (Layout.not_foreign _ hsound)
    | _ => exact DataType.noConfusion htype
  | .number kind, chunk, hsound, htype => by
    cases chunk with
    | number kind' values validity =>
      obtain rfl : kind' = kind := DataType.number.inj htype
      exact ⟨values, validity, rfl, hsound⟩
    | foreign type length validity logical => exact absurd htype (Layout.not_foreign _ hsound)
    | _ => exact DataType.noConfusion htype
  | .binary, chunk, hsound, htype => by
    cases chunk with
    | binary offsets content validity =>
      exact ⟨offsets, content, validity, rfl, hsound.1, hsound.2⟩
    | foreign type length validity logical => exact absurd htype (Layout.not_foreign _ hsound)
    | _ => exact DataType.noConfusion htype
  | .utf8, chunk, hsound, htype => by
    cases chunk with
    | utf8 offsets content validity =>
      exact ⟨offsets, content, validity, rfl, hsound.1, hsound.2.1⟩
    | foreign type length validity logical => exact absurd htype (Layout.not_foreign _ hsound)
    | _ => exact DataType.noConfusion htype
  | .list item nullable, chunk, hsound, htype => by
    cases chunk with
    | list name nullable' offsets child validity =>
      obtain ⟨-, hchild, rfl⟩ := DataType.list.inj htype
      obtain ⟨hoffsets, hmask, hnulls, hsound⟩ := hsound
      have hfits := item.fits_of_sound hsound hchild
      refine ⟨name, offsets, child, validity, rfl, hoffsets, hmask, hfits, ?_⟩
      intro hnullable hnone
      obtain ⟨i, hlt, hnull⟩ := hfits.none_mem_cells_iff.1 hnone
      exact Bool.false_ne_true ((hnulls hnullable i hlt).symm.trans hnull)
    | foreign type length validity logical => exact absurd htype (Layout.not_foreign _ hsound)
    | _ => exact DataType.noConfusion htype
  | .struct fields, chunk, hsound, htype => by
    cases chunk with
    | struct length columns validity =>
      exact ⟨length, columns, validity, rfl, hsound.1,
        fields.fit_of_sound hsound.2 (DataType.struct.inj htype)⟩
    | foreign type length validity logical => exact absurd htype (Layout.not_foreign _ hsound)
    | _ => exact DataType.noConfusion htype

/-- Sound columns of the fields' datatypes fit the fields. -/
theorem LayoutFields.fit_of_sound : (fields : LayoutFields) → {length : Nat} →
    {validity : Option Mask} → {columns : Chunks} → columns.Sound length validity →
    columns.dataFields = fields.toDataFields →
    fields.Fit length (Chunk.flags length validity) columns
  | .nil, _, _, .nil, _, _ => rfl
  | .nil, _, _, .cons .., _, htype => DataFields.noConfusion htype
  | .cons .., _, _, .nil, _, htype => DataFields.noConfusion htype
  | .cons name layout nullable rest, length, validity, .cons name' nullable' column others,
      ⟨hlength, hnulls, hsound, hothers⟩, htype => by
    obtain ⟨rfl, hcolumn, rfl, hrest⟩ := DataFields.cons.inj htype
    have hfits := layout.fits_of_sound hsound hcolumn
    refine ⟨column, others, rfl, hlength, hfits, ?_, rest.fit_of_sound hothers hrest⟩
    rintro hnullable ⟨row, slot⟩ hpair hrow
    obtain ⟨i, hi⟩ := List.mem_iff_getElem?.1 hpair
    obtain ⟨hflag, hslot⟩ := List.getElem?_zip_eq_some.1 hi
    cases slot with
    | some cell => rfl
    | none =>
      have hlt : i < length := by
        rw [← hlength, ← hfits.length_cells]
        exact (List.getElem?_eq_some_iff.1 hslot).1
      have hmasked := hnulls hnullable i hlt ((hfits.isNullAt_eq_true_iff i).2 hslot)
      cases validity with
      | none => exact Bool.noConfusion hmasked
      | some mask =>
        have hfalse : mask[i]? = some false := by simpa using hmasked
        have htrue : mask[i]? = some true := by
          rw [← (hrow : row = true)]
          exact hflag
        rw [hfalse] at htrue
        exact Bool.noConfusion (Option.some.inj htrue)

end

end Columnar
