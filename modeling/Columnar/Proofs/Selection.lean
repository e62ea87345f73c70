import Columnar.Proofs.Canonical
import Columnar.Proofs.Fitting
/-!
# Choosing slots of a chunk

Choosing slots keeps exactly the slots in the given spans, in their order, in
the chunk and in everything inside it: `Layout.Fits.select`.  What comes out
fits the layout again, so it can be chosen from once more.

Filtering by the marks of some slots leaves just these: `Layout.Fits.filter_map`.
Only a struct without fields loses its slots on the way, so layouts with such
a struct are left out there.
-/

namespace Columnar

namespace Chunk

/-- A mask that fits and marks a null is picked from. -/
theorem pickMask_of_mem {spans : List Span} {length : Nat} {validity : Option Mask}
    (hfits : MaskFits length validity) (hspans : SpansFit length 0 spans)
    (h : false ∈ flags length validity) :
    pickMask spans validity = some (pick spans (flags length validity)) := by
  cases validity with
  | none =>
    have hreplicate : false ∈ List.replicate length true := h
    simp at hreplicate
  | some mask =>
    have hmask : false ∈ mask := h
    have hcount : 0 < Mask.nullCount mask := List.count_pos_iff.2 hmask
    have hlength : mask.length = length := hfits mask rfl
    rw [← hlength] at hspans
    have hbits : pickBits spans mask = pick spans mask :=
      hspans.pick_append (Int.le_refl 0) _
    rw [pickMask, Option.filter_some, if_pos (by simpa using hcount), Option.map_some, hbits]
    rfl

/-- Choosing spans from a mask without nulls leaves no mask. -/
theorem pickMask_of_not_mem {spans : List Span} {length : Nat} {validity : Option Mask}
    (h : false ∉ flags length validity) : pickMask spans validity = none := by
  cases validity with
  | none => rfl
  | some mask =>
    have hcount : Mask.nullCount mask = 0 := List.count_eq_zero.2 h
    rw [pickMask, Option.filter_some, if_neg (by simp [hcount])]
    rfl

/-- The chosen slots have the flags that they had. -/
theorem flags_pickMask {spans : List Span} {length : Nat} {validity : Option Mask}
    (hfits : MaskFits length validity) (hspans : SpansFit length 0 spans) :
    flags (spansLength spans).toNat (pickMask spans validity) =
      pick spans (flags length validity) := by
  by_cases hnull : false ∈ flags length validity
  · rw [pickMask_of_mem hfits hspans hnull]
    rfl
  · rw [pickMask_of_not_mem hnull]
    have hlength := length_flags hfits
    rw [← hlength] at hspans
    apply Eq.symm
    refine List.eq_replicate_iff.2 ⟨hspans.length_pick (Int.le_refl 0), ?_⟩
    intro bit hbit
    cases bit with
    | true => rfl
    | false => exact absurd (mem_of_mem_pick hbit) hnull

/-- The mask of the chosen slots has one bit for each. -/
theorem maskFits_pickMask {spans : List Span} {length : Nat} {validity : Option Mask}
    (hfits : MaskFits length validity) (hspans : SpansFit length 0 spans) :
    MaskFits (spansLength spans).toNat (pickMask spans validity) := by
  intro mask hmask
  by_cases hnull : false ∈ flags length validity
  · rw [pickMask_of_mem hfits hspans hnull] at hmask
    obtain rfl := Option.some.inj hmask
    rw [← length_flags hfits] at hspans
    exact hspans.length_pick (Int.le_refl 0)
  · rw [pickMask_of_not_mem hnull] at hmask
    exact nomatch hmask

/-- The mask of the chosen slots shows the chosen members. -/
theorem shown_pickMask {α : Type} {spans : List Span} {length : Nat} {validity : Option Mask}
    {xs : List α} (hlength : xs.length = length) (hfits : MaskFits length validity)
    (hspans : SpansFit length 0 spans) :
    shown (pickMask spans validity) (pick spans xs) = pick spans (shown validity xs) := by
  subst hlength
  have hflags := length_flags hfits
  have hpicked := hspans.length_pick (Int.le_refl 0)
  rw [shown_eq_zipWith, shown_eq_zipWith, hpicked, flags_pickMask hfits hspans]
  rw [← hflags] at hspans
  exact (hspans.pick_zipWith (Int.le_refl 0) hflags slotOf).symm

/-- The chosen contents lie side by side, and the offsets are theirs. -/
theorem OffsetsFit.select {α : Type} {offsets : List Int} {xs : List α}
    (h : OffsetsFit offsets xs.length) {spans : List Span}
    (hspans : SpansFit (offsets.length - 1 : Nat) 0 spans) :
    contents (pickOffsets spans offsets) (pick (descend spans offsets) xs) =
        pick spans (contents offsets xs) ∧
      OffsetsFit (pickOffsets spans offsets) (pick (descend spans offsets) xs).length ∧
      (pickOffsets spans offsets).length - 1 = (spansLength spans).toNat := by
  have hpos : 0 < offsets.length := List.length_pos_iff.2 h.1
  have hcontents := length_contents offsets xs
  have hshort : (pick (descend spans offsets) xs).length ≤ Offsets.maxOffset := by
    have hdescend := h.spansFit_descend hspans (Int.le_refl 0) fun offset hoffset =>
      (h.2.1 offset hoffset).2.1
    have hlimit := h.spansFit_descend hspans (Int.le_refl 0) fun offset hoffset =>
      (h.2.1 offset hoffset).2.2
    have hfirst := (h.getD_mem hpos).1
    have hlength := hdescend.length_pick hfirst
    have htotal := hlimit.spansLength_le
    rw [hlength]
    simp only [Int.toNat_zero] at htotal
    omega
  rw [h.pickOffsets_eq hspans, h.pick_descend hspans (Int.le_refl 0)] at *
  refine ⟨contents_offsetsOf _, offsetsFit_offsetsOf hshort, ?_⟩
  rw [← hcontents] at hspans
  rw [length_offsetsOf, hspans.length_pick (Int.le_refl 0), Nat.add_sub_cancel]

end Chunk

mutual

/-- Choosing from an even chunk leaves an even chunk of the chosen slots. -/
theorem Chunk.Even.select : {chunk : Chunk} → chunk.Even → {spans : List Span} →
    Chunk.SpansFit chunk.length 0 spans →
    (chunk.select spans).Even ∧
      (chunk.select spans).length = (Chunk.spansLength spans).toNat
  | .boolean values validity, h, spans, hspans => by
    have hspans : Chunk.SpansFit values.length 0 spans := hspans
    have hbits : Chunk.pickBits spans values = Chunk.pick spans values :=
      hspans.pick_append (Int.le_refl 0) _
    have hlength := hspans.length_pick (Int.le_refl 0)
    have hmask := Chunk.maskFits_pickMask h hspans
    rw [← hlength] at hmask
    rw [Chunk.select, hbits]
    exact ⟨hmask, hlength⟩
  | .number kind values validity, h, spans, hspans => by
    have hspans : Chunk.SpansFit values.length 0 spans := hspans
    have hlength := hspans.length_pick (Int.le_refl 0)
    have hmask := Chunk.maskFits_pickMask h hspans
    rw [← hlength] at hmask
    exact ⟨hmask, hlength⟩
  | .utf8 offsets content validity, ⟨hoffsets, h⟩, spans, hspans => by
    obtain ⟨-, hfit, hlength⟩ := hoffsets.select hspans
    exact ⟨⟨hfit, hlength.symm ▸ Chunk.maskFits_pickMask h hspans⟩, hlength⟩
  | .binary offsets content validity, ⟨hoffsets, h⟩, spans, hspans => by
    obtain ⟨-, hfit, hlength⟩ := hoffsets.select hspans
    exact ⟨⟨hfit, hlength.symm ▸ Chunk.maskFits_pickMask h hspans⟩, hlength⟩
  | .list _ _ offsets child validity, ⟨hoffsets, h, hchild⟩, spans, hspans => by
    have hspans : Chunk.SpansFit (offsets.length - 1 : Nat) 0 spans := hspans
    have hpos : 0 < offsets.length := List.length_pos_iff.2 hoffsets.1
    have hdescend : Chunk.SpansFit child.length 0 (Chunk.descend spans offsets) :=
      (hoffsets.spansFit_descend hspans (Int.le_refl 0) fun offset hoffset =>
        (hoffsets.2.1 offset hoffset).2.1).weaken (hoffsets.getD_mem hpos).1
    obtain ⟨heven, hlengthChild⟩ := hchild.select hdescend
    -- Where offsets end depends on how many items there are, not on what they are.
    have hitems : (List.replicate child.length ()).length = child.length := List.length_replicate
    rw [← hitems] at hoffsets hdescend
    have hpicked := hdescend.length_pick (Int.le_refl 0)
    obtain ⟨-, hfit, hlength⟩ := hoffsets.select hspans
    rw [hpicked, ← hlengthChild] at hfit
    exact ⟨⟨hfit, hlength.symm ▸ Chunk.maskFits_pickMask h hspans, heven⟩, hlength⟩
  | .struct _ _ _, ⟨h, hcolumns⟩, _, hspans =>
    ⟨⟨Chunk.maskFits_pickMask h hspans, hcolumns.select hspans⟩, rfl⟩
  | .foreign _ _ _ _, ⟨h, hlogical⟩, _, hspans =>
    ⟨⟨Chunk.maskFits_pickMask h hspans, Chunk.maskFits_pickMask hlogical hspans⟩, rfl⟩

/-- Choosing spans that fit from even columns leaves columns that are even at the new length. -/
theorem Chunks.Even.select {length : Nat} : {columns : Chunks} → columns.Even length →
    {spans : List Span} → Chunk.SpansFit length 0 spans →
    (columns.select spans).Even (Chunk.spansLength spans).toNat
  | .nil, _, _, _ => trivial
  | .cons .., ⟨hlength, hcolumn, hrest⟩, _, hspans => by
    obtain ⟨heven, hchosen⟩ := hcolumn.select (hlength ▸ hspans)
    exact ⟨hchosen, heven, hrest.select hspans⟩

end

mutual

/-- A struct that has a column takes its length from it, so nothing is lost. -/
theorem Chunk.Even.keep_eq_select : {chunk : Chunk} → chunk.Even →
    chunk.hasEmptyStruct = false → {spans : List Span} → Chunk.SpansFit chunk.length 0 spans →
    chunk.keep spans = chunk.select spans
  | .struct _ .nil _, _, hempty, _, _ => nomatch hempty
  | .struct length (.cons name nullable column rest) validity, ⟨_, hcolumns⟩, hempty, spans,
      hspans => by
    have hspans : Chunk.SpansFit length 0 spans := hspans
    rw [Chunk.keep, Chunk.select, hcolumns.keep_eq_select hempty hspans]
    obtain ⟨hlength, hcolumn, -⟩ := hcolumns
    rw [Chunks.select, Chunks.firstLength, (hcolumn.select (hlength ▸ hspans)).2]
  | .boolean .., _, _, _, _ => rfl
  | .number .., _, _, _, _ => rfl
  | .utf8 .., _, _, _, _ => rfl
  | .binary .., _, _, _, _ => rfl
  | .list .., _, _, _, _ => rfl
  | .foreign .., _, _, _, _ => rfl

/-- Nor is anything lost in the columns. -/
theorem Chunks.Even.keep_eq_select {length : Nat} : {columns : Chunks} → columns.Even length →
    columns.haveEmptyStruct = false → {spans : List Span} → Chunk.SpansFit length 0 spans →
    columns.keep spans = columns.select spans
  | .nil, _, _, _, _ => rfl
  | .cons .., ⟨hlength, hcolumn, hrest⟩, hempty, _, hspans => by
    obtain ⟨hfirst, hothers⟩ := Bool.or_eq_false_iff.1 hempty
    rw [Chunks.keep, Chunks.select, hcolumn.keep_eq_select hfirst (hlength ▸ hspans),
      hrest.keep_eq_select hothers hspans]

end

mutual

/-- Choosing from a chunk that fits chooses its slots, and what is chosen fits. -/
theorem Layout.Fits.select : {layout : Layout} → {chunk : Chunk} → layout.Fits chunk →
    {spans : List Span} → Chunk.SpansFit chunk.length 0 spans →
    layout.Fits (chunk.select spans) ∧
      (chunk.select spans).length = (Chunk.spansLength spans).toNat ∧
      layout.cells (chunk.select spans) = Chunk.pick spans (layout.cells chunk)
  | .boolean, _, ⟨values, validity, rfl, h⟩, spans, hspans => by
    have hspans : Chunk.SpansFit values.length 0 spans := hspans
    have hbits : Chunk.pickBits spans values = Chunk.pick spans values :=
      hspans.pick_append (Int.le_refl 0) _
    have hlength := hspans.length_pick (Int.le_refl 0)
    have hmask := Chunk.maskFits_pickMask h hspans
    have hshown := Chunk.shown_pickMask (rfl : values.length = values.length) h hspans
    rw [Chunk.select, hbits]
    refine ⟨⟨_, _, rfl, ?_⟩, hlength, hshown⟩
    rw [hlength]
    exact hmask
  | .number kind, _, ⟨values, validity, rfl, h⟩, spans, hspans => by
    have hspans : Chunk.SpansFit values.length 0 spans := hspans
    have hcells (values : List kind.Carrier) (validity : Option Mask) :
        (Layout.number kind).cells (.number kind values validity) =
          Chunk.shown validity values := dif_pos rfl
    have hlength := hspans.length_pick (Int.le_refl 0)
    have hmask := Chunk.maskFits_pickMask h hspans
    have hshown := Chunk.shown_pickMask (rfl : values.length = values.length) h hspans
    rw [Chunk.select, hcells, hcells]
    refine ⟨⟨_, _, rfl, ?_⟩, hlength, hshown⟩
    rw [hlength]
    exact hmask
  | .binary, _, ⟨offsets, content, validity, rfl, hoffsets, h⟩, spans, hspans => by
    have hspans : Chunk.SpansFit (offsets.length - 1 : Nat) 0 spans := hspans
    obtain ⟨hcontents, hfit, hlength⟩ := hoffsets.select hspans
    have hmask := Chunk.maskFits_pickMask h hspans
    have hshown := Chunk.shown_pickMask (Chunk.length_contents offsets content) h hspans
    rw [← hcontents] at hshown
    rw [Chunk.select]
    refine ⟨⟨_, _, _, rfl, hfit, ?_⟩, hlength, hshown⟩
    rw [hlength]
    exact hmask
  | .utf8, _, ⟨offsets, content, validity, rfl, hoffsets, h⟩, spans, hspans => by
    have hspans : Chunk.SpansFit (offsets.length - 1 : Nat) 0 spans := hspans
    obtain ⟨hcontents, hfit, hlength⟩ := hoffsets.select hspans
    have hmask := Chunk.maskFits_pickMask h hspans
    have hslots : ((Chunk.contents offsets content).map Text.decode).length =
        offsets.length - 1 := by
      rw [List.length_map, Chunk.length_contents]
    have hshown := Chunk.shown_pickMask hslots h hspans
    rw [Chunk.pick_map, ← hcontents] at hshown
    rw [Chunk.select]
    refine ⟨⟨_, _, _, rfl, hfit, ?_⟩, hlength, hshown⟩
    rw [hlength]
    exact hmask
  | .list item nullable, _, ⟨name, offsets, child, validity, rfl, hoffsets, h, hchild, hnulls⟩,
      spans, hspans => by
    have hspans : Chunk.SpansFit (offsets.length - 1 : Nat) 0 spans := hspans
    have hitems := hchild.length_cells
    have hpos : 0 < offsets.length := List.length_pos_iff.2 hoffsets.1
    have hdescend : Chunk.SpansFit child.length 0 (Chunk.descend spans offsets) :=
      (hoffsets.spansFit_descend hspans (Int.le_refl 0) fun offset hoffset =>
        (hoffsets.2.1 offset hoffset).2.1).weaken (hoffsets.getD_mem hpos).1
    obtain ⟨hfits, hlengthChild, hcells⟩ := hchild.select hdescend
    rw [← hitems] at hoffsets
    obtain ⟨hcontents, hfit, hlength⟩ := hoffsets.select hspans
    rw [← hcells] at hcontents hfit
    rw [hfits.length_cells] at hfit
    have hmask := Chunk.maskFits_pickMask h hspans
    have hshown := Chunk.shown_pickMask (Chunk.length_contents offsets (item.cells child)) h hspans
    rw [← hcontents] at hshown
    rw [Chunk.select]
    refine ⟨⟨_, _, _, _, rfl, hfit, ?_, hfits, ?_⟩, hlength, hshown⟩
    · rw [hlength]
      exact hmask
    · intro hnullable hnull
      rw [hcells] at hnull
      exact hnulls hnullable (Chunk.mem_of_mem_pick hnull)
  | .struct fields, _, ⟨length, columns, validity, rfl, h, hcolumns⟩, spans, hspans => by
    have hspans : Chunk.SpansFit length 0 spans := hspans
    obtain ⟨hfit, hrows⟩ := hcolumns.select (Chunk.length_flags h) hspans
    have hmask := Chunk.maskFits_pickMask h hspans
    have hshown := Chunk.shown_pickMask hcolumns.length_rows h hspans
    rw [← hrows] at hshown
    rw [← Chunk.flags_pickMask h hspans] at hfit
    rw [Chunk.select]
    exact ⟨⟨_, _, _, rfl, hmask, hfit⟩, rfl, hshown⟩

/-- Choosing from columns that fit chooses their rows, and what is chosen fits. -/
theorem LayoutFields.Fit.select : {fields : LayoutFields} → {length : Nat} → {rows : List Bool} →
    {columns : Chunks} → fields.Fit length rows columns → rows.length = length →
    {spans : List Span} → Chunk.SpansFit length 0 spans →
    fields.Fit (Chunk.spansLength spans).toNat (Chunk.pick spans rows) (columns.select spans) ∧
      fields.rows (Chunk.spansLength spans).toNat (columns.select spans) =
        Chunk.pick spans (fields.rows length columns)
  | .nil, length, rows, _, rfl, _, spans, hspans => by
    refine ⟨rfl, ?_⟩
    have hunits : (List.replicate length ()).length = length := List.length_replicate
    rw [← hunits] at hspans
    apply Eq.symm
    exact List.eq_replicate_iff.2 ⟨hspans.length_pick (Int.le_refl 0), fun _ _ => rfl⟩
  | .cons name layout nullable rest, length, rows, _, ⟨column, others, rfl, hlength, hfits, hnulls,
      hothers⟩, hrows, spans, hspans => by
    have hcolumn : Chunk.SpansFit column.length 0 spans := hlength ▸ hspans
    obtain ⟨hselect, hshort, hcells⟩ := hfits.select hcolumn
    obtain ⟨hrest, hrestRows⟩ := hothers.select hrows hspans
    have hcount : (layout.cells column).length = length := by rw [hfits.length_cells, hlength]
    refine ⟨⟨_, _, rfl, hshort, hselect, ?_, hrest⟩, ?_⟩
    · intro hnullable pair hpair
      rw [hcells] at hpair
      rw [← hrows] at hspans
      have hzip : (Chunk.pick spans rows).zip (Chunk.pick spans (layout.cells column)) =
          Chunk.pick spans (rows.zip (layout.cells column)) :=
        (hspans.pick_zipWith (Int.le_refl 0) (hrows.trans hcount.symm) Prod.mk).symm
      rw [hzip] at hpair
      exact hnulls hnullable pair (Chunk.mem_of_mem_pick hpair)
    · show (layout.cells (column.select spans)).zip (rest.rows _ (others.select spans)) =
        Chunk.pick spans ((layout.cells column).zip (rest.rows length others))
      rw [← hcount] at hspans
      rw [hcells, hrestRows]
      exact (hspans.pick_zipWith (Int.le_refl 0) (hcount.trans hothers.length_rows.symm)
        Prod.mk).symm

end

mutual

/-- A chunk that fits is even, and has no struct without columns where the layout has
none without fields. -/
theorem Layout.Fits.even : {layout : Layout} → {chunk : Chunk} → layout.Fits chunk →
    chunk.Even ∧ (layout.hasEmptyStruct = false → chunk.hasEmptyStruct = false)
  | .boolean, _, ⟨_, _, rfl, h⟩ => ⟨h, fun _ => rfl⟩
  | .number _, _, ⟨_, _, rfl, h⟩ => ⟨h, fun _ => rfl⟩
  | .binary, _, ⟨_, _, _, rfl, h⟩ => ⟨h, fun _ => rfl⟩
  | .utf8, _, ⟨_, _, _, rfl, h⟩ => ⟨h, fun _ => rfl⟩
  | .list _ _, _, ⟨_, _, _, _, rfl, hoffsets, h, hchild, _⟩ =>
    ⟨⟨hoffsets, h, hchild.even.1⟩, fun _ => rfl⟩
  | .struct fields, _, ⟨length, columns, validity, rfl, h, hcolumns⟩ => by
    obtain ⟨heven, hnames, hempty⟩ := hcolumns.even
    refine ⟨⟨h, heven⟩, fun hfields => ?_⟩
    obtain ⟨hnone, hothers⟩ := Bool.or_eq_false_iff.1 hfields
    exact Bool.or_eq_false_iff.2 ⟨hnames ▸ hnone, hempty hothers⟩

/-- The columns of a chunk that fits the layout of a struct are even. -/
theorem LayoutFields.Fit.even : {fields : LayoutFields} → {length : Nat} → {rows : List Bool} →
    {columns : Chunks} → fields.Fit length rows columns →
    columns.Even length ∧ fields.names.isEmpty = columns.toList.isEmpty ∧
      (fields.haveEmptyStruct = false → columns.haveEmptyStruct = false)
  | .nil, _, _, _, rfl => ⟨trivial, rfl, fun _ => rfl⟩
  | .cons .., _, _, _, ⟨_, _, rfl, hlength, hfits, _, hothers⟩ => by
    obtain ⟨hcolumn, hfirst⟩ := hfits.even
    obtain ⟨hrest, -, hempty⟩ := hothers.even
    refine ⟨⟨hlength, hcolumn, hrest⟩, rfl, fun hfields => ?_⟩
    obtain ⟨hlayout, hlayouts⟩ := Bool.or_eq_false_iff.1 hfields
    exact Bool.or_eq_false_iff.2 ⟨hfirst hlayout, hempty hlayouts⟩

end

/-- Filtering by the marks of the slots that pass a test leaves just these. -/
theorem Layout.Fits.filter_map {layout : Layout} {chunk : Chunk} (h : layout.Fits chunk)
    (hfields : layout.hasEmptyStruct = false) (p : Option layout.Cell → Bool) :
    ∃ kept, chunk.filter ((layout.cells chunk).map p) = .ok kept ∧ layout.Fits kept ∧
      layout.cells kept = (layout.cells chunk).filter p := by
  have hlength : ((layout.cells chunk).map p).length = chunk.length := by
    rw [List.length_map, h.length_cells]
  have hspans : Chunk.SpansFit chunk.length 0 (Mask.runs ((layout.cells chunk).map p)) := by
    rw [← hlength]
    exact Chunk.spansFit_runs _
  obtain ⟨hkept, -, hcells⟩ := h.select hspans
  refine ⟨_, ?_, hkept, hcells.trans (Chunk.pick_runs p _)⟩
  obtain ⟨heven, hempty⟩ := h.even
  rw [heven.filter_eq (Nat.le_of_eq hlength), heven.keep_eq_select (hempty hfields) hspans]

end Columnar
