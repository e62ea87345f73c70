import Columnar.Bank
/-!
# Layouts and names in writers

A writer is built like the layout that it was made for: `Writer.layout` reads the layout off,
and `Layout.inside` follows the same ways inside a layout as `Writer.find` does inside a
writer.

A field of a struct has a place and a name.  Values are written by place and read by name,
and both lead to the same column only where no struct has two fields of one name.
`Layout.namings` lists the fields of all structs in a layout, as it is written: a field comes
before all that is inside it.  `Layout.Distinct` says that no struct, however deep, repeats a
name.  `FieldTypes.toList` lists the fields of a record, each with what it takes out of a row.
-/

namespace Columnar

mutual

/-- The layout of the slots that the writer collects. -/
def Writer.layout : Writer → Layout
  | .boolean _ => .boolean
  | .number kind _ => .number kind
  | .binary _ => .binary
  | .utf8 _ => .utf8
  | .list _ nullable child => .list child.layout nullable
  | .struct _ columns => .struct columns.layouts

/-- The fields of the rows that the columns collect. -/
def Writers.layouts : Writers → LayoutFields
  | .nil => .nil
  | .cons name nullable column rest => .cons name column.layout nullable rest.layouts

end

/-- The layout at the end of a way inside. -/
def Layout.inside : List Inward → Layout → Option Layout
  | [], layout => some layout
  | .items :: way, .list item _ => item.inside way
  | .field i :: way, .struct fields =>
    fields.toList[i]?.bind fun (_, layout, _) => layout.inside way
  | .named name :: way, .struct fields =>
    (fields.toList.find? fun (own, _) => own == name).bind fun (_, layout, _) => layout.inside way
  | _, _ => none

/-- Runs an operation on a writer, or on the one at the end of a way inside it. -/
def WriterOp.runAt (call : List Inward × WriterOp) : Writer → Ledger → Outcome Writer :=
  Writer.inside call.2.run call.1

/-- The element stands at the first place of the list where one comes again. -/
def IsFirstRepeated {α : Type} (x : α) (xs : List α) : Prop :=
  ∃ before after, xs = before ++ x :: after ∧ before.Nodup ∧ x ∈ before

/-- A field of a struct somewhere in a layout: the way to the struct, and the name of the field
there. -/
structure Naming where
  /-- The way to the struct. -/
  way : List Inward
  /-- The name of the field. -/
  name : String
deriving DecidableEq

/-- The same field, as it is reached from one step further out. -/
def Naming.within (inward : Inward) (n : Naming) : Naming := { n with way := inward :: n.way }

mutual

/-- The fields of all structs in the layout, in the order in which it is written. -/
def Layout.namings : Layout → List Naming
  | .list item _ => item.namings.map (Naming.within .items)
  | .struct fields => fields.namings 0
  | _ => []

/-- The fields from place `i` on, each followed by those inside it. -/
def LayoutFields.namings : LayoutFields → Nat → List Naming
  | .nil, _ => []
  | .cons name layout _ rest, i =>
    ⟨[], name⟩ :: (layout.namings.map (Naming.within (.field i)) ++ rest.namings (i + 1))

end

/-- No struct in the layout, however deep, has two fields of one name. -/
def Layout.Distinct (layout : Layout) : Prop :=
  ∀ way fields, layout.inside way = some (.struct fields) → fields.names.Nodup

/-- The field stands at place `i` of the struct at the end of the way. -/
def Layout.HasField (layout : Layout) (way : List Inward) (i : Nat)
    (field : String × Layout × Bool) : Prop :=
  ∃ fields, layout.inside way = some (.struct fields) ∧ fields.toList[i]? = some field

/-- A field of a record: its name, its type, and what it takes out of a row. -/
structure RecordField (Row : Type) where
  name : String
  type : ValueType
  /-- The value of the field in a row. -/
  value : Row → type.Datum

/-- The same field, behind a field of another type. -/
def RecordField.behind {Row : Type} (type : ValueType) (f : RecordField Row) :
    RecordField (type.Datum × Row) :=
  ⟨f.name, f.type, fun row => f.value row.2⟩

/-- The fields of a record, in order. -/
def FieldTypes.toList : (fields : FieldTypes) → List (RecordField fields.Row)
  | .nil => []
  | .cons name type rest => ⟨name, type, Prod.fst⟩ :: rest.toList.map (RecordField.behind type)

/-- What is behind the first field is a field of the rest. -/
theorem FieldTypes.exists_of_getElem?_succ {name : String} {type : ValueType} {rest : FieldTypes}
    {i : Nat} {f : RecordField (type.Datum × rest.Row)}
    (h : (FieldTypes.cons name type rest).toList[i + 1]? = some f) :
    ∃ g, rest.toList[i]? = some g ∧ RecordField.behind type g = f := by
  have hrest : (rest.toList.map (RecordField.behind type))[i]? = some f := h
  rw [List.getElem?_map] at hrest
  exact Option.map_eq_some_iff.1 hrest

end Columnar
