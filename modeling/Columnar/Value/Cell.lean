import Columnar.Chunk.Basic
import Columnar.Layout.Cell
import Columnar.Value.Basic
/-!
# Values as slots

A value takes up one slot of a column of its type's layout: `ValueType.cell` is that slot.
A missing value is a null, and a value that is there is what it is made of, a collection by
the slots of its items and a record by the slots of its fields.  `ValueType.ofCell` goes
back.  To a type that knows no missing values a null is no value at all, so not every slot
stands for one.  The slot of a value stands for the normal form of the value:
`ValueType.ofCell_cell`.

A value may be written to a column that was not made for its type.  `ValueType.place` is the
slot that it takes up there, if it takes up one: a leaf fits its own layout only, a collection
fits lists that its items fit, and a record fits a struct of as many fields, one by one,
whatever the names are.  What the layout says about nulls plays no part in this, so the slot
need not be one that the layout admits.

Many chunks hold the same values.  The canonical one holds nothing else: it has a mask only if
some slot is null, zero, false or no bytes beneath every null, offsets that start at zero and
leave no gaps, and for every null row of a struct a null in each of its columns.
`ValueType.canonical` makes it by recursion over the type, from one slot per value.
-/

namespace Columnar

mutual

/-- The slot that a value takes up in a column of its type's layout: null, or the cell that the
value is made of. -/
def ValueType.cell : (type : ValueType) → type.Datum → Option type.layout.Cell
  | .boolean, (value : Bool) => some value
  | .number _, value => some value
  | .text, (value : String) => some value
  | .bytes, (value : List UInt8) => some value
  | .option type, value =>
    match value with
    | none => none
    | some value => type.cell value
  | .collection type, items => some (items.toList.map type.cell)
  | .record _ fields, row => some (fields.cells row)
  | .named _ type, value => type.cell value

/-- The slots of the fields of a record. -/
def FieldTypes.cells : (fields : FieldTypes) → fields.Row → fields.layoutFields.Cells
  | .nil, _ => ()
  | .cons _ type rest, (value, row) => (type.cell value, rest.cells row)

end

mutual

/-- The value that a slot stands for, if the type knows one. -/
def ValueType.ofCell : (type : ValueType) → Option type.layout.Cell → Option type.Datum
  | .boolean, slot => slot
  | .number _, slot => slot
  | .text, slot => slot
  | .bytes, slot => slot
  | .option type, slot =>
    if slot.isSome then (type.ofCell slot).map some else some (none : Option type.Datum)
  | .collection type, slot =>
    match slot with
    | none => some (.unset : Collection type.Datum)
    | some items => (List.mapM type.ofCell items).map Collection.ofList
  | .record _ fields, slot =>
    match slot with
    | none => none
    | some row => fields.ofCells row
  | .named _ type, slot => type.ofCell slot

/-- The record that the slots of its fields stand for. -/
def FieldTypes.ofCells : (fields : FieldTypes) → fields.layoutFields.Cells → Option fields.Row
  | .nil, _ => some ()
  | .cons _ type rest, (slot, row) =>
    match type.ofCell slot, rest.ofCells row with
    | some value, some values => some (value, values)
    | _, _ => none

end

/-- Whether the type gives a meaning to nulls: values that may be missing and
collections do, whatever names they have. -/
def ValueType.toleratesNulls : ValueType → Bool
  | .option _ => true
  | .collection _ => true
  | .named _ type => type.toleratesNulls
  | _ => false

mutual

/-- Whether no record without fields lies beneath a value that may be missing, where the items of a
collection in between do not count as beneath. -/
def ValueType.optionsHaveFields : ValueType → Bool
  | .option type => !type.layout.hasEmptyStruct && type.optionsHaveFields
  | .collection type => type.optionsHaveFields
  | .record _ fields => fields.optionsHaveFields
  | .named _ type => type.optionsHaveFields
  | _ => true

/-- Whether that is so in every field. -/
def FieldTypes.optionsHaveFields : FieldTypes → Bool
  | .nil => true
  | .cons _ type rest => type.optionsHaveFields && rest.optionsHaveFields

end

mutual

/-- The slot that a value takes up in a column of a layout. -/
def ValueType.place : (type : ValueType) → type.Datum → (layout : Layout) →
    Option (Option layout.Cell)
  | .boolean, (value : Bool), .boolean => some (some value)
  | .number kind, value, .number kind' =>
    if same : kind = kind' then some (some (same ▸ value)) else none
  | .text, (value : String), .utf8 => some (some value)
  | .bytes, (value : List UInt8), .binary => some (some value)
  | .option type, value, layout =>
    match value with
    | none => some none
    | some value => type.place value layout
  | .collection type, items, .list item _ =>
    (items.toList.mapM fun value => type.place value item).map some
  | .record _ fields, row, .struct columns => (fields.place row columns).map some
  | .named _ type, value, layout => type.place value layout
  | _, _, _ => none

/-- The slots that the fields of a record take up in the columns of a struct. -/
def FieldTypes.place : (fields : FieldTypes) → fields.Row → (columns : LayoutFields) →
    Option columns.Cells
  | .nil, _, .nil => some ()
  | .cons _ type rest, (value, row), .cons _ layout _ columns =>
    match type.place value layout, rest.place row columns with
    | some slot, some slots => some (slot, slots)
    | _, _ => none
  | _, _, _ => none

end

/-- The items of the collection in a slot; a null slot has none. -/
def Collection.slotItems {α : Type} (slot : Option (Collection α)) : List α :=
  slot.elim [] Collection.toList

mutual

/-- The canonical chunk with the given values in its slots; a slot without a value is null. -/
def ValueType.canonical : (type : ValueType) → List (Option type.Datum) → Chunk
  | .boolean, slots =>
    let slots : List (Option Bool) := slots
    .boolean (slots.map (·.getD false)) (Mask.ofSlots slots)
  | .number kind, slots =>
    let slots : List (Option kind.Carrier) := slots
    .number kind (slots.map (·.getD 0)) (Mask.ofSlots slots)
  | .text, slots =>
    let strings := slots.map fun slot : Option String => (slot.map Text.encode).getD []
    .utf8 (Chunk.offsetsFrom 0 (strings.map List.length)) strings.flatten (Mask.ofSlots slots)
  | .bytes, slots =>
    let strings := slots.map fun slot : Option (List UInt8) => slot.getD []
    .binary (Chunk.offsetsFrom 0 (strings.map List.length)) strings.flatten (Mask.ofSlots slots)
  | .option type, slots =>
    type.canonical (slots.map fun slot : Option (Option type.Datum) => slot.join)
  | .collection type, slots =>
    let lists := slots.map Collection.slotItems
    .list Layout.itemName type.isNullable (Chunk.offsetsFrom 0 (lists.map List.length))
      (type.canonical (lists.flatten.map some)) (Mask.ofSlots slots)
  | .record _ fields, slots => .struct slots.length (fields.canonical slots) (Mask.ofSlots slots)
  | .named _ type, slots => type.canonical slots

/-- The canonical columns of rows. -/
def FieldTypes.canonical : (fields : FieldTypes) → List (Option fields.Row) → Chunks
  | .nil, _ => .nil
  | .cons name type rest, rows =>
    let rows : List (Option (type.Datum × rest.Row)) := rows
    .cons name type.isNullable (type.canonical (rows.map (·.map Prod.fst)))
      (rest.canonical (rows.map (·.map Prod.snd)))

end

end Columnar
