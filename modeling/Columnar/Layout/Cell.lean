import Columnar.Fault
/-!
# What layouts admit

A struct whose fields share a name can be written by position but not read by name, so a
column is only made for a layout in which no struct, at any depth, has two fields of one
name.  `Layout.check` finds the first repetition in the order in which the layout is written.

A datatype is a tree: lists, structs and some of the kinds that the library turns away have
datatypes inside them.  `DataType.nodes` lists all of them, the outer before the inner and
from the left to the right.  `DataType.withItemNames` is what is left of a datatype after a
detour through its layout, which knows no names of items.

A cell is what a slot of a column holds when it is not null: a boolean, a number, the bytes
of a string, a text, the slots of the items of a list, or one slot for every field of a
struct.  So the slots of a column are a list of `Option layout.Cell`, whatever the memory
looks like that they lie in.  Where the layout says that items or fields are never null,
`Layout.Admits` asks the cell for it, at every depth.
-/

namespace Columnar

/-- The layout of a datatype that a column can hold. -/
def Layout.ofDataType? (type : DataType) : Except Fault Layout :=
  match Layout.ofDataType type with
  | .ok layout => .ok layout
  | .error node => .error (.invalidArgument (.unsupportedType node))

mutual

/-- Refuses a layout with a struct that repeats a field name. -/
def Layout.check : Layout → Except Fault Unit
  | .list item _ => item.check
  | .struct fields => fields.check []
  | _ => .ok ()

/-- Refuses fields that repeat a name, or one of the names seen before them. -/
def LayoutFields.check : LayoutFields → List String → Except Fault Unit
  | .nil, _ => .ok ()
  | .cons name layout _ rest, seen =>
    if name ∈ seen then .error (.invalidArgument (.duplicateField name))
    else
      match layout.check with
      | .error fault => .error fault
      | .ok () => rest.check (name :: seen)

end

mutual

/-- The datatype and those inside it, the outer before the inner and from the
left to the right. -/
def DataType.nodes : DataType → List DataType
  | .list item type nullable => .list item type nullable :: type.nodes
  | .struct fields => .struct fields :: fields.nodes
  | .largeList item type nullable => .largeList item type nullable :: type.nodes
  | .fixedSizeList item type nullable size => .fixedSizeList item type nullable size :: type.nodes
  | .dictionary keys values => .dictionary keys values :: (keys.nodes ++ values.nodes)
  | type => [type]

/-- The nodes of the fields, from the left to the right. -/
def DataFields.nodes : DataFields → List DataType
  | .nil => []
  | .cons _ type _ rest => type.nodes ++ rest.nodes

end

mutual

/-- The datatype with `Layout.itemName` for the items of every list, as deep as
there are lists and structs. -/
def DataType.withItemNames : DataType → DataType
  | .list _ type nullable => .list Layout.itemName type.withItemNames nullable
  | .struct fields => .struct fields.withItemNames
  | type => type

/-- The fields with `Layout.itemName` for the items of every list. -/
def DataFields.withItemNames : DataFields → DataFields
  | .nil => .nil
  | .cons name type nullable rest => .cons name type.withItemNames nullable rest.withItemNames

end

mutual

/-- What a slot of a column of the layout holds when it is not null. -/
def Layout.Cell : Layout → Type
  | .boolean => Bool
  | .number kind => kind.Carrier
  | .binary => List UInt8
  | .utf8 => String
  | .list item _ => List (Option item.Cell)
  | .struct fields => fields.Cells

/-- One slot for every field. -/
def LayoutFields.Cells : LayoutFields → Type
  | .nil => Unit
  | .cons _ layout _ rest => Option layout.Cell × rest.Cells

end

mutual

/-- No item and no field inside the cell is null that must not be. -/
def Layout.Admits : (layout : Layout) → layout.Cell → Prop
  | .boolean, _ => True
  | .number _, _ => True
  | .binary, _ => True
  | .utf8, _ => True
  | .list item nullable, (items : List (Option item.Cell)) =>
    ∀ slot ∈ items, (nullable = false → slot.isSome) ∧ ∀ cell ∈ slot, item.Admits cell
  | .struct fields, row => fields.Admit row

/-- No field of the row is null that must not be, nor anything inside. -/
def LayoutFields.Admit : (fields : LayoutFields) → fields.Cells → Prop
  | .nil, _ => True
  | .cons _ layout nullable rest, (slot, row) =>
    (nullable = false → slot.isSome) ∧ (∀ cell ∈ slot, layout.Admits cell) ∧ rest.Admit row

end

/-- The layout admits every cell in the slots: no item and no field is null that must not be. -/
def Layout.AdmitsAll (layout : Layout) (slots : List (Option layout.Cell)) : Prop :=
  ∀ slot ∈ slots, ∀ cell ∈ slot, layout.Admits cell

/-- The fields admit every row that is not null. -/
def LayoutFields.AdmitAll (fields : LayoutFields) (rows : List (Option fields.Cells)) : Prop :=
  ∀ slot ∈ rows, ∀ row ∈ slot, fields.Admit row

mutual

/-- Whether there is a struct without fields in the layout, other than in the items of
lists. -/
def Layout.hasEmptyStruct : Layout → Bool
  | .struct fields => fields.names.isEmpty || fields.haveEmptyStruct
  | _ => false

/-- Whether there is one in some field. -/
def LayoutFields.haveEmptyStruct : LayoutFields → Bool
  | .nil => false
  | .cons _ layout _ rest => layout.hasEmptyStruct || rest.haveEmptyStruct

end

end Columnar
