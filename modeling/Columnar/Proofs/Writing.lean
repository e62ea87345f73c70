import Columnar.Column
import Columnar.Proofs.Cells
import Columnar.Proofs.Writers
import Columnar.Value.Cell
/-!
# Writing a value adds its slot

A value that is written without a fault to a writer adds one slot, and this is
the slot that the value takes up in the layout of the writer: `ValueType.place`.
The recursion follows the type: the items of a collection become slots of the
child, and the fields of a record slots of the columns.  A record that does not
reach every column is refused when its row is closed.

In the layout of its own type a value takes up its own slot, so that is what
`ValueType.ensures_write` adds.
-/

namespace Columnar

/-- A record finds its slots field by field. -/
theorem FieldTypes.place_cons {fieldName name : String} {type : ValueType} {rest : FieldTypes}
    {value : type.Datum} {row : rest.Row} {layout : Layout} {nullable : Bool}
    {others : LayoutFields} {slot : Option layout.Cell} {cells : others.Cells}
    (hslot : type.place value layout = some slot) (hcells : rest.place row others = some cells) :
    (FieldTypes.cons fieldName type rest).place (value, row) (.cons name layout nullable others) =
      some (slot, cells) := by
  rw [FieldTypes.place, hslot, hcells]
  rfl

section

variable {layout : Layout} {slots : List (Option layout.Cell)} {w : Writer}

/-- A boolean is the last slot of a writer of booleans; other writers refuse it. -/
theorem Writer.Holds.ensures_boolean (h : w.Holds layout slots) (value : Bool) (m : Ledger) :
    (w.appendBoolean (some value) m).Ensures fun w' =>
      ∃ slot, ValueType.boolean.place value layout = some slot ∧
        w'.Holds layout (slots ++ [slot]) := by
  cases layout with
  | boolean => exact (h.appendBoolean (some value) m).imp fun _ h' => ⟨some value, rfl, h'⟩
  | number | binary | utf8 =>
    obtain ⟨_, rfl, _⟩ := h
    exact Outcome.ensures_stopped
  | list | struct =>
    obtain ⟨_, _, rfl, _, _⟩ := h
    exact Outcome.ensures_stopped

/-- A number is the last slot of a writer of its own kind of numbers; other writers refuse it. -/
theorem Writer.Holds.ensures_number (h : w.Holds layout slots) {kind : NumberType}
    (value : kind.Carrier) (m : Ledger) :
    (w.appendNumber kind (some value) m).Ensures fun w' =>
      ∃ slot, (ValueType.number kind).place value layout = some slot ∧
        w'.Holds layout (slots ++ [slot]) := by
  cases layout with
  | number kind' =>
    by_cases hsame : kind = kind'
    · subst hsame
      exact (h.appendNumber (some value) m).imp fun _ h' => ⟨some value, dif_pos rfl, h'⟩
    · obtain ⟨leaf, rfl, _⟩ := h
      have hwrite : (Writer.number kind' leaf).appendNumber kind (some value) m =
          .stopped (.number kind' leaf) m ((Writer.number kind' leaf).notA kind.name) :=
        dif_neg hsame
      rw [hwrite]
      exact Outcome.ensures_stopped
  | boolean | binary | utf8 =>
    obtain ⟨_, rfl, _⟩ := h
    exact Outcome.ensures_stopped
  | list | struct =>
    obtain ⟨_, _, rfl, _, _⟩ := h
    exact Outcome.ensures_stopped

/-- A text is the last slot of a writer of texts; other writers refuse it. -/
theorem Writer.Holds.ensures_text (h : w.Holds layout slots) (value : String) (m : Ledger) :
    (w.appendText (some value) m).Ensures fun w' =>
      ∃ slot, ValueType.text.place value layout = some slot ∧
        w'.Holds layout (slots ++ [slot]) := by
  cases layout with
  | utf8 => exact (h.appendText (some value) m).imp fun _ h' => ⟨some value, rfl, h'⟩
  | boolean | number | binary =>
    obtain ⟨_, rfl, _⟩ := h
    exact Outcome.ensures_stopped
  | list | struct =>
    obtain ⟨_, _, rfl, _, _⟩ := h
    exact Outcome.ensures_stopped

/-- A byte string is the last slot of a writer of byte strings; other writers refuse it. -/
theorem Writer.Holds.ensures_bytes (h : w.Holds layout slots) (value : List UInt8) (m : Ledger) :
    (w.appendBytes (some value) m).Ensures fun w' =>
      ∃ slot, ValueType.bytes.place value layout = some slot ∧
        w'.Holds layout (slots ++ [slot]) := by
  cases layout with
  | binary => exact (h.appendBytes (some value) m).imp fun _ h' => ⟨some value, rfl, h'⟩
  | boolean | number | utf8 =>
    obtain ⟨_, rfl, _⟩ := h
    exact Outcome.ensures_stopped
  | list | struct =>
    obtain ⟨_, _, rfl, _, _⟩ := h
    exact Outcome.ensures_stopped

end

/-- Only an even row is closed, so it is enough to know the slots of a row that is even. -/
theorem Writer.ensures_closeRow_of_even {fields : LayoutFields} {validity : Validity}
    {columns : Writers} {rows : List (Option fields.Cells)} {P : fields.Cells → Prop}
    (hvalidity : validity.Shows (rows.map Option.isSome))
    (heven : columns.findUneven (validity.length + 1) = none →
      ∃ row, P row ∧ columns.Hold fields (rows ++ [some row])) (m : Ledger) :
    ((Writer.struct validity columns).closeRow m).Ensures fun w' =>
      ∃ row, P row ∧ w'.Holds (.struct fields) (rows ++ [some row]) := by
  cases hfound : columns.findUneven (validity.length + 1) with
  | none =>
    obtain ⟨row, hrow, hhold⟩ := heven hfound
    exact (Writer.ensures_closeRow hvalidity hhold m).imp fun _ h' => ⟨row, hrow, h'⟩
  | some uneven =>
    -- The row is not closed: it is uneven, or nobody can count it.
    intro hok
    rw [Writer.closeRow_struct] at hok
    cases hsum : Size.add? validity.length 1 with
    | none => simp [hsum] at hok
    | some count =>
      obtain ⟨rfl, -⟩ := Size.add?_eq_some hsum
      simp [hsum, hfound] at hok

mutual

/-- A value is the last slot of a writer, as the layout of the writer has it. -/
theorem ValueType.ensures_place : (type : ValueType) → (value : type.Datum) →
    {layout : Layout} → (slots : List (Option layout.Cell)) → (w : Writer) → (m : Ledger) →
    w.Holds layout slots →
    (type.write value w m).Ensures fun w' =>
      ∃ slot, type.place value layout = some slot ∧ w'.Holds layout (slots ++ [slot])
  | .boolean, (value : Bool), _, _, _, m, h => h.ensures_boolean value m
  | .number kind, (value : kind.Carrier), _, _, _, m, h => h.ensures_number value m
  | .text, (value : String), _, _, _, m, h => h.ensures_text value m
  | .bytes, (value : List UInt8), _, _, _, m, h => h.ensures_bytes value m
  | .option _, none, _, _, _, m, h => (h.appendNull m).imp fun _ h' => ⟨none, rfl, h'⟩
  | .option type, some value, _, slots, w, m, h => type.ensures_place value slots w m h
  | .named _ type, value, _, slots, w, m, h => type.ensures_place value slots w m h
  | .collection type, items, layout, slots, w, m, h => by
    cases layout with
    | list item nullable =>
      change List (Option (List (Option item.Cell))) at slots
      have hempty : ∀ cells : List (Option item.Cell), cells = [] →
          (w.appendAbsent m).Ensures fun w' => ∃ slot, some (some cells) = some slot ∧
            w'.Holds (.list item nullable) (slots ++ [slot]) := by
        rintro _ rfl
        exact (h.appendAbsent m).imp fun _ h' => ⟨some [], rfl, h'⟩
      cases items with
      | unset => exact hempty [] rfl
      | empty =>
        have hclosed := hempty [] rfl
        rw [h.appendAbsent_eq] at hclosed
        exact hclosed
      | populated items =>
        refine (h.appendList (fun x _ => type.ensures_place x) m).imp ?_
        rintro w' ⟨cells, hcells, h'⟩
        exact ⟨some cells, congrArg (Option.map some) (mapM_eq_some_iff.2 hcells), h'⟩
    | boolean | number | binary | utf8 =>
      obtain ⟨_, rfl, _⟩ := h
      cases items <;> exact Outcome.ensures_stopped
    | struct =>
      obtain ⟨_, _, rfl, _, _⟩ := h
      cases items <;> exact Outcome.ensures_stopped
  | .record name fields, row, layout, slots, w, m, h => by
    cases layout with
    | struct others =>
      change List (Option others.Cells) at slots
      obtain ⟨validity, columns, rfl, hvalidity, hcolumns⟩ := h
      have hrows : validity.length = slots.length :=
        hvalidity.length_eq.trans (List.length_map _)
      have hwritten := fields.ensures_place row 0 columns.count slots columns m hcolumns
      rw [← hrows] at hwritten
      rw [ValueType.write]
      refine (Outcome.ensures_map (P := fun w' : Writer => ∃ columns',
        w' = .struct validity columns' ∧
          (columns'.findUneven (validity.length + 1) = none →
            ∃ cells, fields.place row others = some cells ∧
              columns'.Hold others (slots ++ [some cells])))
        (hwritten.imp fun columns' hcolumns' => ⟨columns', rfl, hcolumns'⟩)).andThen ?_
      rintro w' m' ⟨columns', rfl, hplaced⟩
      refine (Writer.ensures_closeRow_of_even hvalidity hplaced m').imp ?_
      rintro w'' ⟨cells, hcells, h'⟩
      exact ⟨some cells, congrArg (Option.map some) hcells, h'⟩
    | boolean | number | binary | utf8 =>
      obtain ⟨_, rfl, _⟩ := h
      exact Outcome.ensures_stopped
    | list =>
      obtain ⟨_, _, rfl, _, _⟩ := h
      exact Outcome.ensures_stopped

/-- The values of a record are the last slots of their columns, unless there are
columns that they do not reach. -/
theorem FieldTypes.ensures_place : (fields : FieldTypes) → (row : fields.Row) →
    (i count : Nat) → {others : LayoutFields} →
    (rows : List (Option others.Cells)) → (columns : Writers) →
    (m : Ledger) → columns.Hold others rows →
    (fields.write row i count columns m).Ensures fun columns' =>
      columns'.findUneven (rows.length + 1) = none →
        ∃ cells, fields.place row others = some cells ∧
          columns'.Hold others (rows ++ [some cells])
  | .nil, _, _, _, others, rows, columns, _, h => by
    cases others with
    | nil =>
      obtain rfl := h
      exact Outcome.ensures_done fun _ => ⟨(), rfl, rfl⟩
    | cons name layout nullable rest =>
      change List (Option (Option layout.Cell × rest.Cells)) at rows
      obtain ⟨column, columns, rfl, hcolumn, hothers⟩ := h
      -- The column has no slot for the row, so it is uneven.
      refine Outcome.ensures_done fun heven => ?_
      rw [Writers.findUneven, if_neg] at heven
      · exact nomatch heven
      · rw [hcolumn.length_eq, List.length_map]
        exact Nat.ne_of_lt (Nat.lt_succ_self _)
  | .cons fieldName type rest, (value, row), i, count, others, rows, columns, m, h => by
    cases others with
    | nil =>
      obtain rfl := h
      exact Outcome.ensures_stopped
    | cons name layout nullable others =>
      change List (Option (Option layout.Cell × others.Cells)) at rows
      obtain ⟨column, columns, rfl, hcolumn, hothers⟩ := h
      rw [FieldTypes.write_cons]
      refine Outcome.ensures_both fun hfirst => ?_
      obtain ⟨slot, hslot, hcolumn'⟩ := type.ensures_place value _ column m hcolumn hfirst
      have hrest := rest.ensures_place row (i + 1) count _ columns
        (type.write value column m).ledger hothers
      refine hrest.imp fun columns' hcolumns' heven => ?_
      rw [Writers.findUneven] at heven
      split at heven
      · rw [List.length_map] at hcolumns'
        obtain ⟨cells, hcells, hhold⟩ := hcolumns' heven
        have hlast : (type.write value column m).value.Holds layout
            ((rows ++ [some (slot, cells)]).map (·.bind Prod.fst)) := by
          rw [List.map_append]
          exact hcolumn'
        have hothers' : columns'.Hold others
            ((rows ++ [some (slot, cells)]).map (·.map Prod.snd)) := by
          rw [List.map_append]
          exact hhold
        exact ⟨(slot, cells), FieldTypes.place_cons hslot hcells, _, columns', rfl, hlast, hothers'⟩
      · exact nomatch heven

end

mutual

/-- In the layout of its type a value takes up its own slot. -/
theorem ValueType.place_layout : (type : ValueType) → (value : type.Datum) →
    type.place value type.layout = some (type.cell value)
  | .boolean, _ => rfl
  | .number _, _ => dif_pos rfl
  | .text, _ => rfl
  | .bytes, _ => rfl
  | .option _, none => rfl
  | .option type, some value => type.place_layout value
  | .collection type, items => by
    refine congrArg (Option.map some) (mapM_eq_some_iff.2 ?_)
    rw [List.map_map]
    exact List.map_congr_left fun value _ => type.place_layout value
  | .record _ fields, row => congrArg (Option.map some) (fields.place_layoutFields row)
  | .named _ type, value => type.place_layout value

/-- In the columns of their record the fields take up their own slots. -/
theorem FieldTypes.place_layoutFields : (fields : FieldTypes) → (row : fields.Row) →
    fields.place row fields.layoutFields = some (fields.cells row)
  | .nil, _ => rfl
  | .cons _ type rest, (value, row) =>
    FieldTypes.place_cons (type.place_layout value) (rest.place_layoutFields row)

end

/-- Writing a value to a writer of exactly the layout of its type adds one slot, and this is
the slot that the value takes up: nothing else in the writer changes its meaning. -/
theorem ValueType.ensures_write (type : ValueType) (value : type.Datum)
    (w : Writer) (slots : List (Option type.layout.Cell)) (h : w.Holds type.layout slots)
    (m : Ledger) :
    (type.write value w m).Ensures fun w' =>
      w'.Holds type.layout (slots ++ [type.cell value]) := by
  refine (type.ensures_place value slots w m h).imp ?_
  rintro w' ⟨slot, hslot, h'⟩
  rw [type.place_layout value] at hslot
  rwa [Option.some.inj hslot]

end Columnar
