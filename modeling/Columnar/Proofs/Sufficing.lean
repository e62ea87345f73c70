import Columnar.Proofs.Placing
import Columnar.Proofs.Rows
import Columnar.Proofs.Spare
/-!
# What is reserved suffices

Slots of booleans, numbers and structs of these take up the same room whatever is
in them.  So once room for `n` slots is reserved, the next `n` additions ask the
ledger for nothing, apart from one mask for each validity at its first null.  For a
column of lists of such slots this needs room for lists and room for items, and
the only other thing that may stop an addition is an end that is too large for
an offset.
-/

namespace Columnar

open Maskable

mutual

/-- Whether all slots of the layout take up the same room. -/
def Layout.isFixed : Layout → Bool
  | .boolean => true
  | .number _ => true
  | .struct fields => fields.areFixed
  | _ => false

/-- Whether the slots of all fields do. -/
def LayoutFields.areFixed : LayoutFields → Bool
  | .nil => true
  | .cons _ layout _ rest => layout.isFixed && rest.areFixed

end

/-- Whether all slots of the layout take up the same room, or are lists of items that
do. -/
def Layout.isLevel : Layout → Bool
  | .list item _ => item.isFixed
  | layout => layout.isFixed

mutual

/-- No value in the value is missing, at whatever depth. -/
def ValueType.NullFree : (type : ValueType) → type.Datum → Prop
  | .option type, value =>
    match value with
    | none => False
    | some value => type.NullFree value
  | .collection type, items => ∀ item ∈ items.toList, type.NullFree item
  | .record _ fields, row => fields.NullFree row
  | .named _ type, value => type.NullFree value
  | _, _ => True

/-- No value in the record is missing, at any depth, so adding it makes no mask. -/
def FieldTypes.NullFree : (fields : FieldTypes) → fields.Row → Prop
  | .nil, _ => True
  | .cons _ type rest, (value, row) => type.NullFree value ∧ rest.NullFree row

end

mutual

/-- How many masks of a writer were not made yet. -/
def Writer.maskless : Writer → Nat
  | .boolean leaf => unmasked leaf
  | .number _ leaf => unmasked leaf
  | .binary leaf => unmasked leaf.slots
  | .utf8 leaf => unmasked leaf.slots
  | .list slots _ child => unmasked slots + child.maskless
  | .struct validity columns => columns.maskless + unmasked validity

/-- How many masks of the columns were not made yet. -/
def Writers.maskless : Writers → Nat
  | .nil => 0
  | .cons _ _ column rest => column.maskless + rest.maskless

end

instance : Maskable Writer := ⟨Writer.maskless⟩

instance : Maskable Writers := ⟨Writers.maskless⟩

mutual

/-- How many columns of a layout have no null among these slots. -/
def Layout.nullFreeColumns : (layout : Layout) → List (Option layout.Cell) → Nat
  | .list item _, (lists : List (Option (List (Option item.Cell)))) =>
    (if lists.all Option.isSome then 1 else 0) + item.nullFreeColumns (slotLists lists).flatten
  | .struct fields, (rows : List (Option fields.Cells)) =>
    fields.nullFreeColumns rows + if rows.all Option.isSome then 1 else 0
  | _, slots => if slots.all Option.isSome then 1 else 0

/-- How many columns of the fields have no null. -/
def LayoutFields.nullFreeColumns : (fields : LayoutFields) → List (Option fields.Cells) → Nat
  | .nil, _ => 0
  | .cons _ layout _ rest, (rows : List (Option (Option layout.Cell × rest.Cells))) =>
    layout.nullFreeColumns (rows.map (·.bind Prod.fst)) +
      rest.nullFreeColumns (rows.map (·.map Prod.snd))

end

/-- A mask was not made yet exactly if there was no null. -/
theorem Validity.Shows.unmasked_eq {α : Type} {v : Validity} {slots : List (Option α)}
    (h : v.Shows (slots.map Option.isSome)) :
    unmasked v = if slots.all Option.isSome then 1 else 0 := by
  cases v with
  | allValid count planned =>
    obtain ⟨hflags, -⟩ := h
    have hall : slots.all Option.isSome = true := by
      refine List.all_eq_true.2 fun slot hslot => ?_
      have hflag : slot.isSome ∈ List.replicate count true :=
        hflags ▸ List.mem_map_of_mem hslot
      exact List.eq_of_mem_replicate hflag
    rw [if_pos hall]
    rfl
  | mask bits =>
    obtain ⟨-, -, hnull⟩ := h
    obtain ⟨slot, hslot, hnone⟩ := List.mem_map.1 hnull
    have hnot : ¬ slots.all Option.isSome = true := fun hall =>
      Bool.false_ne_true (hnone.symm.trans (List.all_eq_true.1 hall slot hslot))
    rw [if_neg hnot]
    rfl

mutual

/-- In a writer that holds slots the masks that were not made are those of columns
without nulls. -/
theorem Writer.Holds.unmasked_eq : {layout : Layout} → {w : Writer} →
    {slots : List (Option layout.Cell)} → w.Holds layout slots →
    unmasked w = layout.nullFreeColumns slots
  | .boolean, _, _, ⟨_, rfl, h⟩ => Validity.Shows.unmasked_eq h.validity
  | .number _, _, _, ⟨_, rfl, h⟩ => Validity.Shows.unmasked_eq h.validity
  | .binary, _, _, ⟨_, rfl, h⟩ => Validity.Shows.unmasked_eq h.ends.validity
  | .utf8, _, (slots : List (Option String)), ⟨_, rfl, h⟩ => by
    have hsame : (slots.map (·.map Text.encode)).all Option.isSome = slots.all Option.isSome := by
      simp [List.all_map, Function.comp_def]
    refine (Validity.Shows.unmasked_eq h.ends.validity).trans ?_
    rw [hsame]
    rfl
  | .list _ _, _, _, ⟨_, _, rfl, h, hchild⟩ =>
    congrArg₂ (· + ·) (Validity.Shows.unmasked_eq h.validity) hchild.unmasked_eq
  | .struct _, _, _, ⟨_, _, rfl, h, hcolumns⟩ =>
    congrArg₂ (· + ·) hcolumns.unmasked_eq (Validity.Shows.unmasked_eq h)

/-- And in columns that hold rows. -/
theorem Writers.Hold.unmasked_eq : {fields : LayoutFields} → {columns : Writers} →
    {rows : List (Option fields.Cells)} → columns.Hold fields rows →
    unmasked columns = fields.nullFreeColumns rows
  | .nil, _, _, rfl => rfl
  | .cons .., _, _, ⟨_, _, rfl, hcolumn, hothers⟩ =>
    congrArg₂ (· + ·) hcolumn.unmasked_eq hothers.unmasked_eq

end

mutual

/-- There is room for `n` more slots of a layout whose slots take up the same room. -/
def Writer.Spare (n : Nat) : Layout → Writer → Prop
  | .boolean, w => ∃ leaf : BooleanWriter, w = .boolean leaf ∧ leaf.Spare n
  | .number kind, w => ∃ leaf : NumberWriter kind, w = .number kind leaf ∧ leaf.Spare n
  | .struct fields, w => ∃ (validity : Validity) (columns : Writers),
    w = .struct validity columns ∧ validity.Spare n ∧
      Writers.Spare n validity.length fields columns
  | _, _ => False

/-- There is room for `n` more rows in columns that have `rows` each. -/
def Writers.Spare (n rows : Nat) : LayoutFields → Writers → Prop
  | .nil, columns => columns = .nil
  | .cons name layout nullable rest, columns => ∃ (column : Writer) (others : Writers),
    columns = .cons name nullable column others ∧ Writer.Spare n layout column ∧
      column.length = rows ∧ Writers.Spare n rows rest others

end

variable {n k : Nat}

/-- Slots that there is room for can be counted. -/
theorem Writer.Spare.length_le : {layout : Layout} → {w : Writer} → w.Spare n layout →
    w.length + n ≤ Size.max
  | .boolean, _, ⟨_, rfl, h⟩ => h.validity.length_le
  | .number _, _, ⟨_, rfl, h⟩ => h.validity.length_le
  | .struct _, _, ⟨_, _, rfl, h, _⟩ => h.length_le

/-- Columns with room to spare for one more row have as many slots as there are rows, so closing a
row finds them in step. -/
theorem Writers.Spare.findUneven_eq_none {rows : Nat} : {fields : LayoutFields} →
    {columns : Writers} → columns.Spare n rows fields → columns.findUneven rows = none
  | .nil, _, rfl => rfl
  | .cons .., _, ⟨_, _, rfl, _, hlength, hrest⟩ => by
    rw [findUneven, if_pos hlength]
    exact hrest.findUneven_eq_none

/-- A tidy bitmap has room for what it holds. -/
theorem Bitmap.Tidy.spare_zero {b : Bitmap} (h : b.Tidy) : b.Spare 0 := by
  refine ⟨h.length_le, ?_⟩
  have hfits : 1 * b.bytes.items.length ≤ b.room := h.bounded.fits
  rw [h.bytes_length] at hfits
  rw [Nat.add_zero]
  omega

/-- So has a validity. -/
theorem Validity.Shows.spare_zero {v : Validity} {flags : List Bool} (h : v.Shows flags) :
    v.Spare 0 := by
  cases v with
  | allValid slots planned => exact ⟨Nat.le_max_left _ _, h.2⟩
  | mask bits => exact h.1.spare_zero

mutual

/-- A writer that holds slots has room for them. -/
theorem Writer.Holds.spare_zero : {layout : Layout} → {w : Writer} →
    {slots : List (Option layout.Cell)} → w.Holds layout slots → layout.isFixed = true →
    w.Spare 0 layout
  | .boolean, _, _, ⟨leaf, rfl, h⟩, _ =>
    ⟨leaf, rfl, h.tidy.spare_zero, Validity.Shows.spare_zero h.validity⟩
  | .number _, _, _, ⟨leaf, rfl, h⟩, _ =>
    ⟨leaf, rfl, h.bounded.fits, Validity.Shows.spare_zero h.validity⟩
  | .struct _, _, _, ⟨validity, columns, rfl, h, hcolumns⟩, hfixed =>
    ⟨validity, columns, rfl, h.spare_zero,
      hcolumns.spare_zero hfixed (h.length_eq.trans (List.length_map _))⟩

/-- Columns that hold rows have room for them. -/
theorem Writers.Hold.spare_zero : {fields : LayoutFields} → {columns : Writers} →
    {slots : List (Option fields.Cells)} → columns.Hold fields slots → fields.areFixed = true →
    {rows : Nat} → rows = slots.length → columns.Spare 0 rows fields
  | .nil, _, _, rfl, _, _, _ => rfl
  | .cons _ _ _ _, _, _, ⟨column, others, rfl, hcolumn, hothers⟩, hfixed, _, hrows => by
    obtain ⟨hlayout, hrest⟩ := Bool.and_eq_true_iff.1 hfixed
    exact ⟨column, others, rfl, hcolumn.spare_zero hlayout,
      (hcolumn.length_eq.trans (List.length_map _)).trans hrows.symm,
      hothers.spare_zero hrest (hrows.trans (List.length_map _).symm)⟩

end

mutual

/-- Reserving slots makes room for them, and takes none away. -/
theorem Writer.Spare.reserve (n : Nat) : {layout : Layout} → {w : Writer} →
    w.Spare k layout → (m : Ledger) →
    (w.reserve n m).Ensures fun w' => w'.length = w.length ∧ w'.Spare (max k n) layout
  | .boolean, _, ⟨_, rfl, h⟩, m =>
    Outcome.ensures_map ((h.reserve n m).imp fun leaf h' => ⟨h'.1, leaf, rfl, h'.2⟩)
  | .number _, _, ⟨_, rfl, h⟩, m =>
    Outcome.ensures_map ((h.reserve n m).imp fun leaf h' => ⟨h'.1, leaf, rfl, h'.2⟩)
  | .struct _, _, ⟨validity, columns, rfl, h, hcolumns⟩, m => by
    rw [Writer.reserve_struct]
    refine Outcome.ensures_both fun hfirst => ?_
    obtain ⟨hlength, hspare⟩ := h.reserve n m hfirst
    rw [← hlength] at hcolumns
    exact (hcolumns.reserve n _).imp fun columns' h' => ⟨hlength, _, columns', rfl, hspare, h'⟩

/-- Reserving rows makes room for them, and takes none away. -/
theorem Writers.Spare.reserve (n : Nat) : {rows : Nat} → {fields : LayoutFields} →
    {columns : Writers} → columns.Spare k rows fields → (m : Ledger) →
    (columns.reserve n m).Ensures (Writers.Spare (max k n) rows fields)
  | _, .nil, _, rfl, _ => Outcome.ensures_done rfl
  | _, .cons .., _, ⟨column, others, rfl, hcolumn, hlength, hothers⟩, m => by
    rw [Writers.reserve_cons]
    refine Outcome.ensures_both fun hfirst => ?_
    obtain ⟨hsame, hspare⟩ := hcolumn.reserve n m hfirst
    exact (hothers.reserve n _).imp fun others' h' =>
      ⟨_, others', rfl, hspare, hsame.trans hlength, h'⟩

end

variable {m : Ledger} {free : Prop} {lax : Fault → Prop}

mutual

/-- A null takes up the room of one slot. -/
theorem Writer.frugal_appendNull (hfree : ¬ free) : {layout : Layout} → {w : Writer} →
    w.Spare (n + 1) layout → (m : Ledger) →
    (w.appendNull m).Frugal m (unmasked w) free lax fun w' =>
      w'.Spare n layout ∧ w'.length = w.length + 1
  | .boolean, _, ⟨_, rfl, h⟩, m =>
    .boxed ((BooleanWriter.frugal_append h fun h => absurd h hfree).imp
      (fun leaf h' => ⟨⟨leaf, rfl, h'.1⟩, h'.2⟩) id) fun _ => rfl
  | .number _, _, ⟨_, rfl, h⟩, m =>
    .boxed ((NumberWriter.frugal_append h fun h => absurd h hfree).imp
      (fun leaf h' => ⟨⟨leaf, rfl, h'.1⟩, h'.2⟩) id) fun _ => rfl
  | .struct _, _, ⟨validity, columns, rfl, h, hcolumns⟩, m => by
    rw [Writer.appendNull_struct]
    refine (Writers.frugal_appendNull hfree hcolumns m).both
      (fun m => Validity.frugal_append h fun h => absurd h hfree) (fun _ _ => rfl) ?_
    rintro columns' validity' hcolumns' ⟨hspare, hlength⟩
    rw [← hlength] at hcolumns'
    exact ⟨⟨validity', columns', rfl, hspare, hcolumns'⟩, hlength⟩

/-- A null row takes up the room of one row. -/
theorem Writers.frugal_appendNull (hfree : ¬ free) : {rows : Nat} → {fields : LayoutFields} →
    {columns : Writers} → columns.Spare (n + 1) rows fields → (m : Ledger) →
    (columns.appendNull m).Frugal m (unmasked columns) free lax
      (Writers.Spare n (rows + 1) fields)
  | _, .nil, _, rfl, _ => Outcome.frugal_done rfl rfl
  | _, .cons .., _, ⟨column, others, rfl, hcolumn, hlength, hothers⟩, m => by
    rw [Writers.appendNull_cons]
    refine (Writer.frugal_appendNull hfree hcolumn m).both
      (Writers.frugal_appendNull hfree hothers) (fun _ _ => rfl) ?_
    rintro column' others' ⟨hspare, hsame⟩ hothers'
    exact ⟨column', others', rfl, hspare, by rw [hsame, hlength], hothers'⟩

end

/-- A row that was written to columns in step takes up the room of one. -/
theorem Writer.frugal_closeRow {fields : LayoutFields} {validity : Validity} {columns : Writers}
    (h : validity.Spare (n + 1)) (hcolumns : columns.Spare n (validity.length + 1) fields) :
    ((Writer.struct validity columns).closeRow m).Frugal m
      (unmasked (Writer.struct validity columns)) free lax fun w' =>
        w'.Spare n (.struct fields) ∧ w'.length = validity.length + 1 := by
  have hrows : Size.add? validity.length 1 = some (validity.length + 1) := by
    have hle := h.length_le
    exact Size.add?_of_le (by omega)
  have hcount : unmasked (Writer.struct validity columns) =
      unmasked validity + unmasked columns := Nat.add_comm _ _
  have hlast : (validity.append true m).Frugal m (unmasked validity) free lax fun validity' =>
      validity'.Spare n ∧ validity'.length = validity.length + 1 :=
    Validity.frugal_append h fun _ => rfl
  simp only [closeRow, hrows, hcolumns.findUneven_eq_none]
  rw [hcount]
  refine (hlast.imp ?_ id).map fun validity' => Nat.add_comm _ _
  rintro validity' ⟨hspare, hlength⟩
  rw [← hlength] at hcolumns
  exact ⟨⟨validity', columns, rfl, hspare, hcolumns⟩, hlength⟩

mutual

/-- A value takes up the room of one slot. -/
theorem ValueType.frugal_write : (type : ValueType) → (value : type.Datum) → {w : Writer} →
    w.Spare (n + 1) type.layout → (m : Ledger) →
    (type.write value w m).Frugal m (unmasked w) (type.NullFree value) lax fun w' =>
      w'.Spare n type.layout ∧ w'.length = w.length + 1
  | .boolean, (value : Bool), _, ⟨_, rfl, h⟩, m =>
    .boxed ((BooleanWriter.frugal_append h fun _ => rfl).imp
      (fun leaf h' => ⟨⟨leaf, rfl, h'.1⟩, h'.2⟩) id) fun _ => rfl
  | .number kind, (value : kind.Carrier), _, ⟨leaf, rfl, h⟩, m => by
    have hwrite : (ValueType.number kind).write value (.number kind leaf) m =
        (leaf.append (some value) m).map (.number kind) := dif_pos rfl
    rw [hwrite]
    exact .boxed ((NumberWriter.frugal_append h fun _ => rfl).imp
      (fun leaf h' => ⟨⟨leaf, rfl, h'.1⟩, h'.2⟩) id) fun _ => rfl
  | .option type, none, _, h, m => Writer.frugal_appendNull not_false h m
  | .option type, some value, _, h, m => type.frugal_write value h m
  | .record _ fields, row, _, ⟨validity, columns, rfl, h, hcolumns⟩, m => by
    have hwritten : ((fields.write row 0 columns.count columns m).map
        (Writer.struct validity)).Frugal m (unmasked (Writer.struct validity columns))
        (fields.NullFree row) lax fun w' => ∃ columns', w' = .struct validity columns' ∧
          columns'.Spare n (validity.length + 1) fields.layoutFields :=
      .map ((fields.frugal_write row 0 columns.count hcolumns m).imp
        (fun columns' h' => ⟨columns', rfl, h'⟩) id) fun _ => rfl
    rw [ValueType.write]
    refine hwritten.andThen ?_
    rintro _ m' ⟨columns', rfl, hcolumns'⟩
    exact Writer.frugal_closeRow h hcolumns'
  | .named _ type, value, _, h, m => type.frugal_write value h m

/-- The values of a record take up the room of one row. -/
theorem FieldTypes.frugal_write : (fields : FieldTypes) → (row : fields.Row) →
    (i count : Nat) → {rows : Nat} → {columns : Writers} →
    columns.Spare (n + 1) rows fields.layoutFields → (m : Ledger) →
    (fields.write row i count columns m).Frugal m (unmasked columns) (fields.NullFree row) lax
      (Writers.Spare n (rows + 1) fields.layoutFields)
  | .nil, _, _, _, _, _, rfl, _ => Outcome.frugal_done rfl rfl
  | .cons _ type rest, (value, row), i, count, _, _,
      ⟨column, others, rfl, hcolumn, hlength, hothers⟩, m => by
    rw [FieldTypes.write_cons]
    refine ((type.frugal_write value hcolumn m).imp (fun _ h => h) And.left).both
      (fun m => (rest.frugal_write row (i + 1) count hothers m).imp (fun _ h => h) And.right)
      (fun _ _ => rfl) ?_
    rintro column' others' ⟨hspare, hsame⟩ hothers'
    exact ⟨column', others', rfl, hspare, by rw [hsame, hlength], hothers'⟩

end

/-- There is room for `k` more slots, and in a column of lists for `j` more items. -/
def Writer.Ready (k j : Nat) : Layout → Writer → Prop
  | .list item nullable, w => ∃ (slots : Slots) (child : Writer),
    w = .list slots nullable child ∧ slots.Spare k child.length ∧ child.Spare j item
  | layout, w => w.Spare k layout

/-- A writer of another kind than lists is ready for any number of items, since it has none. -/
theorem Writer.ready_iff_of_not_isList {j : Nat} {layout : Layout} (h : layout.isList = false)
    {w : Writer} : w.Ready k j layout ↔ w.Spare k layout := by
  cases layout with
  | list => exact Bool.noConfusion h
  | _ => exact Iff.rfl

/-- A writer that holds slots has room for them. -/
theorem Writer.Holds.ready_zero : {layout : Layout} → {w : Writer} →
    {slots : List (Option layout.Cell)} → w.Holds layout slots → layout.isLevel = true →
    w.Ready 0 0 layout
  | .list _ _, _, _, ⟨slots, child, rfl, hslots, hchild⟩, hlevel =>
    ⟨slots, child, rfl, ⟨Validity.Shows.spare_zero hslots.validity,
      hslots.offsets.bounded.fits, by rw [hslots.offsets.last, hchild.length_eq]⟩,
      hchild.spare_zero hlevel⟩
  | .boolean, _, _, h, hlevel => Writer.Holds.spare_zero h hlevel
  | .number _, _, _, h, hlevel => Writer.Holds.spare_zero h hlevel
  | .struct _, _, _, h, hlevel => Writer.Holds.spare_zero h hlevel

section Lists

variable {j last : Nat} {item : Layout} {nullable : Bool} {slots : Slots} {child : Writer}

/-- Adding items to a writer that has room for all of them asks for nothing but masks, and takes up
the room of one for each. -/
theorem ValueType.frugal_items (type : ValueType) (items : List type.Datum)
    (h : child.Spare (j + items.length) type.layout) (m : Ledger) :
    ((items.map fun item => type.write item).foldl (fun (o : Outcome Writer) op => o.andThen op)
      (.done child m)).Frugal m (unmasked child) (∀ item ∈ items, type.NullFree item) lax
        fun child' => child'.Spare j type.layout ∧
          child'.length = child.length + items.length := by
  rw [List.foldl_map]
  refine (Outcome.Frugal.foldl (I := fun rest child' => child'.Spare (j + rest.length) type.layout ∧
    child'.length + rest.length = child.length + items.length)
    (Outcome.frugal_done rfl ⟨h, rfl⟩) ?_).imp (fun _ h' => h') id
  rintro item hitem rest child' m' ⟨hspare, hlength⟩
  refine (type.frugal_write item hspare m').imp ?_ fun hfree => hfree item hitem
  rintro child'' ⟨hspare', hlength'⟩
  rw [List.length_cons] at hlength
  exact ⟨hspare', by omega⟩

/-- A list that is closed takes up the room of one, unless its end is too large. -/
theorem Writer.frugal_close (h : slots.Spare (k + 1) last) (hchild : child.Spare j item)
    (hle : last ≤ child.length) {valid : Bool} (hfree : free → valid = true)
    (hlax : ∀ fault : Fault, fault.IsTooLarge → lax fault) :
    ((slots.close child.length valid m).map fun slots => Writer.list slots nullable child).Frugal m
      (unmasked (Writer.list slots nullable child)) free lax
        (Writer.Ready k j (.list item nullable)) :=
  .map ((Slots.frugal_close h hle hfree hlax).imp
    (fun slots' h' => ⟨slots', child, rfl, h'.1, hchild⟩) id) fun _ => rfl

/-- So does a list without items. -/
theorem Writer.frugal_closeEmpty (h : slots.Spare (k + 1) child.length)
    (hchild : child.Spare j item) {valid : Bool} (hfree : free → valid = true)
    (hlax : ∀ fault : Fault, fault.IsTooLarge → lax fault) :
    ((slots.closeEmpty valid m).map fun slots => Writer.list slots nullable child).Frugal m
      (unmasked (Writer.list slots nullable child)) free lax
        (Writer.Ready k j (.list item nullable)) := by
  have hcount : child.length ≤ Size.max := Nat.le_trans (Nat.le_add_right _ _) hchild.length_le
  rw [h.closeEmpty_eq hcount]
  exact Writer.frugal_close h hchild (Nat.le_refl _) hfree hlax

/-- A list of items takes up the room of one list and of its items. -/
theorem ValueType.frugal_appendList (type : ValueType) (items : List type.Datum) {w : Writer}
    (h : w.Ready (k + 1) (j + items.length) (.list type.layout nullable))
    (hlax : ∀ fault : Fault, fault.IsTooLarge → lax fault) (m : Ledger) :
    (w.appendList (items.map fun item => type.write item) m).Frugal m (unmasked w)
      (∀ item ∈ items, type.NullFree item) lax
        (Writer.Ready k j (.list type.layout nullable)) := by
  obtain ⟨slots, child, rfl, hslots, hchild⟩ := h
  have hcount : unmasked (Writer.list slots nullable child) = unmasked child + unmasked slots :=
    Nat.add_comm _ _
  have hitems : ((Writer.list slots nullable child).onItems (fun child m =>
      (items.map fun item => type.write item).foldl (fun (o : Outcome Writer) op => o.andThen op)
        (.done child m)) m).Frugal m (unmasked child + unmasked slots)
        (∀ item ∈ items, type.NullFree item) lax fun w' => ∃ child',
          w' = .list slots nullable child' ∧ child'.Spare j type.layout ∧
            child'.length = child.length + items.length :=
    .map ((type.frugal_items items hchild m).imp
      (fun child' h' => ⟨child', rfl, h'⟩) id) fun _ => Nat.add_comm _ _
  rw [Writer.appendList, hcount]
  refine hitems.andThen ?_
  rintro _ m' ⟨child', rfl, hchild', hlength⟩
  exact Writer.frugal_close hslots hchild' (by omega) (fun _ => rfl) hlax

/-- The slot of a value takes up the room of one list and of the items that it has. -/
theorem ValueType.frugal_writeList : (type : ValueType) → (value : type.Datum) → {w : Writer} →
    type.layout = .list item nullable →
    w.Ready (k + 1) (j + type.itemCount value) (.list item nullable) →
    (∀ fault : Fault, fault.IsTooLarge → lax fault) → (m : Ledger) →
    (type.write value w m).Frugal m (unmasked w) (type.NullFree value) lax
      (Writer.Ready k j (.list item nullable))
  | .option _, none, _, _, ⟨_, _, rfl, h, hchild⟩, hlax, _ =>
    Writer.frugal_closeEmpty h hchild False.elim hlax
  | .option type, some value, _, hlayout, h, hlax, m =>
    type.frugal_writeList value hlayout h hlax m
  | .named _ type, value, _, hlayout, h, hlax, m => type.frugal_writeList value hlayout h hlax m
  | .collection _, .unset, _, _, ⟨_, _, rfl, h, hchild⟩, hlax, _ =>
    Writer.frugal_closeEmpty h hchild (fun _ => rfl) hlax
  | .collection _, .empty, _, _, ⟨_, _, rfl, h, hchild⟩, hlax, _ =>
    Writer.frugal_close h hchild (Nat.le_refl _) (fun _ => rfl) hlax
  | .collection type, .populated items, _, hlayout, h, hlax, m => by
    obtain ⟨rfl, rfl⟩ := Layout.list.inj hlayout
    exact type.frugal_appendList items h hlax m

end Lists

/-- The fault is of an end that is too large, in a column of lists. -/
def Layout.Overruns (layout : Layout) (fault : Fault) : Prop :=
  layout.isList = true ∧ fault.IsTooLarge

namespace ColumnOp

/-- The operation adds one slot, of a value or a list that fits the layout. -/
def Adds (layout : Layout) (op : ColumnOp) : Prop :=
  op.Fits layout ∧ (op.place layout).isSome = true

/-- How many items the operation adds to a column of lists. -/
def children : ColumnOp → Nat
  | append type value => type.itemCount value
  | appendList _ items => items.length
  | _ => 0

/-- How many items the operations add altogether to the writer of the items. -/
def childTotal : List ColumnOp → Nat
  | [] => 0
  | op :: ops => op.children + childTotal ops

/-- No value that the operation adds is missing, at whatever depth. -/
def NullFree : ColumnOp → Prop
  | appendNull => False
  | append type value => type.NullFree value
  | appendList type items => ∀ item ∈ items, type.NullFree item
  | _ => True

variable {j : Nat} {layout : Layout}

/-- What adds a slot takes up the room of it and of its items. -/
theorem frugal_work {op : ColumnOp} (hop : op.Adds layout) (hint : Nat) {w : Writer}
    (h : w.Ready (k + 1) (j + op.children) layout) (m : Ledger) :
    (op.work hint w m).Frugal m (unmasked w) op.NullFree layout.Overruns
      (Writer.Ready k j layout) := by
  obtain ⟨hfits, hplace⟩ := hop
  have hlists : layout.isList = true → ∀ fault : Fault, fault.IsTooLarge → layout.Overruns fault :=
    fun hlist fault hlarge => ⟨hlist, hlarge⟩
  cases op with
  | reserve | reserveItems => exact Bool.noConfusion hplace
  | appendAbsent =>
    cases layout with
    | list item nullable =>
      obtain ⟨slots, child, rfl, hslots, hchild⟩ := h
      exact Writer.frugal_closeEmpty hslots hchild (fun _ => rfl) (hlists rfl)
    | _ => exact Bool.noConfusion hplace
  | appendNull =>
    cases hlist : layout.isList with
    | true =>
      obtain ⟨item, nullable, rfl⟩ := Column.exists_of_isList hlist
      obtain ⟨slots, child, rfl, hslots, hchild⟩ := h
      exact Writer.frugal_closeEmpty hslots hchild False.elim (hlists rfl)
    | false =>
      rw [Writer.ready_iff_of_not_isList hlist] at h
      exact (Writer.frugal_appendNull not_false h m).imp
        (fun _ h' => (Writer.ready_iff_of_not_isList hlist).2 h'.1) id
  | append type value =>
    obtain ⟨rfl, -⟩ := hfits
    cases hlist : type.layout.isList with
    | true =>
      obtain ⟨item, nullable, hlayout⟩ := Column.exists_of_isList hlist
      have hlax := hlists hlist
      rw [hlayout] at h hlax ⊢
      exact type.frugal_writeList value hlayout h hlax m
    | false =>
      rw [Writer.ready_iff_of_not_isList hlist] at h
      exact (type.frugal_write value h m).imp
        (fun _ h' => (Writer.ready_iff_of_not_isList hlist).2 h'.1) id
  | appendList type items =>
    obtain ⟨rfl, -⟩ := hfits
    exact type.frugal_appendList items h (hlists rfl) m

/-- Making room for items makes room for them, and takes none away. -/
theorem ready_onItems : {layout : Layout} → {w : Writer} → w.Ready k j layout → (n : Nat) →
    (m : Ledger) → (w.onItems (Writer.reserve n) m).Ensures (Writer.Ready k (max j n) layout)
  | .list _ _, _, ⟨slots, child, rfl, hslots, hchild⟩, n, m =>
    Outcome.ensures_map ((hchild.reserve n m).imp fun child' h' =>
      ⟨slots, child', rfl, by rw [h'.1]; exact hslots, h'.2⟩)
  | .boolean, _, ⟨_, rfl, _⟩, _, _ => Outcome.ensures_stopped
  | .number _, _, ⟨_, rfl, _⟩, _, _ => Outcome.ensures_stopped
  | .struct _, _, ⟨_, _, rfl, _, _⟩, _, _ => Outcome.ensures_stopped

/-- Reserving slots makes room for them, and takes none away. -/
theorem ready_reserve : {layout : Layout} → {w : Writer} → w.Ready k j layout → (n : Nat) →
    (m : Ledger) → (w.reserve n m).Ensures (Writer.Ready (max k n) j layout)
  | .list _ _, _, ⟨_, child, rfl, hslots, hchild⟩, n, m =>
    Outcome.ensures_map ((hslots.reserve n m).imp fun slots' h' =>
      ⟨slots', child, rfl, h'.2, hchild⟩)
  | .boolean, _, h, n, m => (Writer.Spare.reserve n h m).imp fun _ h' => h'.2
  | .number _, _, h, n, m => (Writer.Spare.reserve n h m).imp fun _ h' => h'.2
  | .struct _, _, h, n, m => (Writer.Spare.reserve n h m).imp fun _ h' => h'.2

/-- What adds nothing makes the room that it is meant to make, and takes none away. -/
theorem ensures_ready_work {op : ColumnOp} (hop : op.adds = false) (hint : Nat) {w : Writer}
    (h : w.Ready k j layout) (m : Ledger) :
    (op.work hint w m).Ensures fun w' => ∃ k' j', w'.Ready k' j' layout ∧ k ≤ k' ∧ j ≤ j' ∧
      (∀ n, op = .reserve n → n ≤ k') ∧ ∀ n, op = .reserveItems n → n ≤ j' := by
  cases op with
  | reserve n =>
    have hmore : ∀ n', ColumnOp.reserve n = .reserve n' → n' ≤ max k n := by
      rintro _ ⟨⟩
      exact Nat.le_max_right _ _
    have hitems (j' : Nat) : ∀ n', ColumnOp.reserve n = .reserveItems n' → n' ≤ j' :=
      fun _ h => ColumnOp.noConfusion h
    rw [ColumnOp.work]
    refine (ready_reserve h n m).andThen fun w' m' h' => ?_
    split
    · split
      · exact Outcome.ensures_stopped
      · exact (ready_onItems h' _ m').imp fun w'' h'' =>
          ⟨_, _, h'', Nat.le_max_left _ _, Nat.le_max_left _ _, hmore, hitems _⟩
    · exact Outcome.ensures_done ⟨_, _, h', Nat.le_max_left _ _, Nat.le_refl _, hmore, hitems _⟩
  | reserveItems n =>
    refine (ready_onItems h n m).imp fun w' h' =>
      ⟨_, _, h', Nat.le_refl _, Nat.le_max_left _ _, fun _ h => ColumnOp.noConfusion h, ?_⟩
    rintro _ ⟨⟩
    exact Nat.le_max_right _ _
  | appendAbsent | appendNull | append | appendList => exact Bool.noConfusion hop

end ColumnOp

namespace Column

instance : Maskable Column := ⟨fun c => c.writer?.elim 0 unmasked⟩

/-- A column that works has the masks of its writer. -/
theorem unmasked_of_usable {c : Column} {progress : Progress} {writer : Writer}
    (h : c.state = .usable progress writer) : unmasked c = unmasked writer := by
  simp only [unmasked, writer?, h, Option.elim]

/-- The column works, and its writer has room for `k` more slots and `j` more items. -/
def Ready (k j : Nat) (c : Column) : Prop :=
  ∃ (progress : Progress) (writer : Writer), c.state = .usable progress writer ∧
    writer.Ready k j c.layout

variable {j : Nat} {c : Column}

/-- Without lists there is room for any number of items. -/
theorem Ready.of_not_isList (h : c.Ready k j) (hlist : c.layout.isList = false) (j' : Nat) :
    c.Ready k j' := by
  obtain ⟨progress, writer, hstate, hwriter⟩ := h
  refine ⟨progress, writer, hstate, ?_⟩
  rw [Writer.ready_iff_of_not_isList hlist] at hwriter ⊢
  exact hwriter

/-- Whatever an operation asks for the writer it asks for the column. -/
theorem frugal_apply {before : Progress} {writer : Writer}
    (hstate : c.state = .usable before writer) {op : Writer → Ledger → Outcome Writer}
    {P : Writer → Prop}
    (h : (op writer m).Frugal m (unmasked writer) free lax P) (progress : Progress) :
    (c.apply progress op m).Frugal m (unmasked c) free lax fun c' => c'.layout = c.layout ∧
      ∃ (progress' : Progress) (writer' : Writer), c'.state = .usable progress' writer' ∧
        P writer' := by
  obtain ⟨sizes, hledger, hle, hnone, hdone⟩ := h.asks
  rw [apply_eq hstate, unmasked_of_usable hstate]
  cases hfault : (op writer m).fault with
  | none =>
    rw [Outcome.elim_of_none hfault]
    exact ⟨⟨sizes, hledger, hle, hnone, fun _ => hdone hfault⟩, nofun,
      fun _ => ⟨rfl, _, _, rfl, h.ensures hfault⟩⟩
  | some fault =>
    rw [Outcome.elim_of_some hfault]
    refine ⟨⟨sizes, hledger, hle, hnone, nofun⟩, fun fault' hfault' => ?_, nofun⟩
    exact h.stops fault' (hfault.trans hfault')

/-- An operation that adds a slot takes up the room of it and of its items. -/
theorem Ready.frugal_run (op : ColumnOp) (h : c.Ready (k + 1) (j + op.children))
    (hop : op.Adds c.layout) (m : Ledger) :
    (op.run c m).Frugal m (unmasked c) op.NullFree c.layout.Overruns fun c' =>
      c'.layout = c.layout ∧ c'.Ready k j := by
  obtain ⟨before, writer, hstate, hwriter⟩ := h
  rw [op.run_eq]
  refine (frugal_apply hstate (ColumnOp.frugal_work hop c.hint hwriter m) op.progress).imp ?_ id
  rintro c' ⟨hlayout, progress, writer', hstate', hwriter'⟩
  exact ⟨hlayout, progress, writer', hstate', by rw [hlayout]; exact hwriter'⟩

/-- What adds nothing makes the room that it is meant to make, and takes none away. -/
theorem Ready.ensures_run (h : c.Ready k j) (op : ColumnOp) (hop : op.adds = false) (m : Ledger) :
    (op.run c m).Ensures fun c' => c'.layout = c.layout ∧ ∃ k' j', c'.Ready k' j' ∧
      k ≤ k' ∧ j ≤ j' ∧ (∀ n, op = .reserve n → n ≤ k') ∧ ∀ n, op = .reserveItems n → n ≤ j' := by
  obtain ⟨before, writer, hstate, hwriter⟩ := h
  intro hok
  rw [op.run_eq] at hok ⊢
  obtain ⟨hwork, hstate'⟩ := apply_of_fault_eq_none hstate hok
  have hlayout : (c.apply op.progress (op.work c.hint) m).value.layout = c.layout := by
    rw [apply_eq hstate, Outcome.elim_of_none hwork]
    rfl
  obtain ⟨k', j', hready, hmore⟩ := ColumnOp.ensures_ready_work hop c.hint hwriter m hwork
  exact ⟨hlayout, k', j', ⟨_, _, hstate', by rw [hlayout]; exact hready⟩, hmore⟩

end Column

end Columnar
