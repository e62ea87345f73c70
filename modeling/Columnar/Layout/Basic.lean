import Columnar.DataType
/-!
# Layouts

A layout says what a column holds: booleans, numbers, byte strings, texts,
lists of one item layout, or structs with named fields.  Layouts are the
datatypes that the library can write, without the name that a datatype gives
to the items of a list.

`Layout.toDataType` is the datatype of a finished column.  `Layout.ofDataType`
goes back; it names the first node, from the left and from the top, that no
layout stands for.
-/

namespace Columnar

mutual

/-- What a column holds: one leaf type, lists of items, or structs of named fields, and which items
and fields may be null. -/
inductive Layout where
  | boolean
  | number (kind : NumberType)
  | binary
  | utf8
  | list (item : Layout) (nullable : Bool)
  | struct (fields : LayoutFields)
deriving DecidableEq, Repr

/-- The fields of a struct in order, each with its name, its layout and whether it may be null. -/
inductive LayoutFields where
  | nil
  | cons (name : String) (layout : Layout) (nullable : Bool) (rest : LayoutFields)
deriving DecidableEq, Repr

end

/-- The fields with the given names, layouts and nullabilities. -/
def LayoutFields.ofList : List (String × Layout × Bool) → LayoutFields
  | [] => .nil
  | (name, layout, nullable) :: rest => .cons name layout nullable (ofList rest)

/-- The names, layouts and nullabilities of the fields. -/
def LayoutFields.toList : LayoutFields → List (String × Layout × Bool)
  | .nil => []
  | .cons name layout nullable rest => (name, layout, nullable) :: rest.toList

namespace Layout

def isList : Layout → Bool
  | .list .. => true
  | _ => false

/-- The layout of the items of a list. -/
def item? : Layout → Option Layout
  | .list item _ => some item
  | _ => none

/-- The name that the items of a list carry in its datatype. -/
def itemName : String := "item"

end Layout

mutual

/-- The datatype of a column of this layout; items of lists have the default name in it. -/
def Layout.toDataType : Layout → DataType
  | .boolean => .boolean
  | .number kind => .number kind
  | .binary => .binary
  | .utf8 => .utf8
  | .list item nullable => .list Layout.itemName item.toDataType nullable
  | .struct fields => .struct fields.toDataFields

/-- The fields of the datatype of a struct. -/
def LayoutFields.toDataFields : LayoutFields → DataFields
  | .nil => .nil
  | .cons name layout nullable rest =>
    .cons name layout.toDataType nullable rest.toDataFields

end

mutual

/-- The layout of a datatype, or the first node that no layout stands for. -/
def Layout.ofDataType : DataType → Except DataType Layout
  | .boolean => .ok .boolean
  | .number kind => .ok (.number kind)
  | .binary => .ok .binary
  | .utf8 => .ok .utf8
  | .list _ type nullable =>
    match Layout.ofDataType type with
    | .ok item => .ok (.list item nullable)
    | .error t => .error t
  | .struct fields =>
    match LayoutFields.ofDataFields fields with
    | .ok fields => .ok (.struct fields)
    | .error t => .error t
  | type => .error type

/-- The fields of a layout, or the first node that no layout stands for. -/
def LayoutFields.ofDataFields : DataFields → Except DataType LayoutFields
  | .nil => .ok .nil
  | .cons name type nullable rest =>
    match Layout.ofDataType type with
    | .error t => .error t
    | .ok layout =>
      match LayoutFields.ofDataFields rest with
      | .error t => .error t
      | .ok fields => .ok (.cons name layout nullable fields)

end

mutual

/-- A layout is read back from the datatype of its columns. -/
theorem Layout.ofDataType_toDataType : (layout : Layout) →
    Layout.ofDataType layout.toDataType = .ok layout
  | .boolean => rfl
  | .number _ => rfl
  | .binary => rfl
  | .utf8 => rfl
  | .list item nullable => by
    simp [Layout.toDataType, Layout.ofDataType, Layout.ofDataType_toDataType item]
  | .struct fields => by
    simp [Layout.toDataType, Layout.ofDataType, LayoutFields.ofDataFields_toDataFields fields]

/-- The fields of a layout are read back from their datatypes. -/
theorem LayoutFields.ofDataFields_toDataFields : (fields : LayoutFields) →
    LayoutFields.ofDataFields fields.toDataFields = .ok fields
  | .nil => rfl
  | .cons name layout nullable rest => by
    simp [LayoutFields.toDataFields, LayoutFields.ofDataFields, Layout.ofDataType_toDataType layout,
      LayoutFields.ofDataFields_toDataFields rest]

end

/-- Whether an array of the datatype is a column of the layout. -/
def Layout.matches (layout : Layout) (type : DataType) : Bool :=
  decide (layout.toDataType = type)

mutual

/-- The text of a layout in messages. -/
def Layout.render : Layout → String
  | .boolean => DataType.boolean.render
  | .number kind => kind.name
  | .binary => "binary"
  | .utf8 => "utf8"
  | .list item true => "list<" ++ item.render ++ "?>"
  | .list item false => "list<" ++ item.render ++ ">"
  | .struct fields => "struct<" ++ ", ".intercalate fields.render ++ ">"

/-- The texts of the fields of a struct. -/
def LayoutFields.render : LayoutFields → List String
  | .nil => []
  | .cons name layout nullable rest =>
    (name ++ ": " ++ layout.render ++ (if nullable then "?" else "")) :: rest.render

end

/-- The names of the fields, in order. -/
def LayoutFields.names : LayoutFields → List String
  | .nil => []
  | .cons name _ _ rest => name :: rest.names

end Columnar
