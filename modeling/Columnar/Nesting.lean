import Columnar.Bank
import Columnar.Column
import Columnar.Outcome
import Columnar.Value.Cell
/-!
# Structs and lists under construction

Whoever fills a struct adds values to its fields, each on its own, and closes a row when every
field has its value; a null row is added at one go.  The fields are in step with the rows when
every field holds as many values as there are rows.  `Table` is what a struct under
construction stands for: the rows that are closed, and the slots that each field has got
since.  `RowOp.log` says what an operation makes of it.  A row is closed with the one slot that
each field has got since the row before, so no slot ever comes into another row.

Whoever fills a list adds children to the writer of its items, by any operations on it or on
the writers inside it, and ends slots: with the children that were added since, with none, or
as a null.  A slot with none and a null slot leave the children that were added since where
they are, for the slot after them.  `Tiling` is what a list under construction stands for:
which children, counted from zero, are in each slot, and which are in none so far.
`ListOp.log` says what an operation makes of it.
-/

namespace Columnar

/-- Something that is done to a struct under construction. -/
inductive RowOp where
  /-- Adds a value to the field at a place. -/
  | field (i : Nat) (type : ValueType) (value : type.Datum)
  /-- Adds a value to the first field of a name. -/
  | named (name : String) (type : ValueType) (value : type.Datum)
  /-- Closes a row. -/
  | close
  /-- Adds a null row. -/
  | null

namespace RowOp

def run : RowOp → Writer → Ledger → Outcome Writer
  | field i type value => Writer.onField i (type.write value)
  | named name type value => Writer.onFieldNamed name (type.write value)
  | close => Writer.closeRow
  | null => Writer.appendNull

end RowOp

/-- How many values each column of a struct holds, in the order of the columns. -/
def Writers.lengths : Writers → List Nat
  | .nil => []
  | .cons _ _ column rest => column.length :: rest.lengths

/-- Every field of a struct holds as many values as there are rows. -/
def Writer.InStep : Writer → Prop
  | .struct validity columns => ∀ n ∈ columns.lengths, n = validity.length
  | _ => True

instance : (w : Writer) → Decidable w.InStep
  | .struct validity columns =>
    inferInstanceAs (Decidable (∀ n ∈ columns.lengths, n = validity.length))
  | .boolean _ | .number .. | .binary _ | .utf8 _ | .list .. => .isTrue trivial

/-- The writers that successful operations lead to.  Null rows are added only while
the fields are in step.  Each operation may find the ledger in another state. -/
inductive Writer.Fills (start : Writer) : List RowOp → Writer → Prop where
  | here : Writer.Fills start [] start
  | step {ops : List RowOp} {w : Writer} (op : RowOp) (m : Ledger) : Writer.Fills start ops w →
      (op = .null → w.InStep) → (op.run w m).fault = none →
      Writer.Fills start (ops ++ [op]) (op.run w m).value

namespace LayoutFields

/-- The slots that each field has got for rows that are not closed yet. -/
def Pending : LayoutFields → Type
  | .nil => Unit
  | .cons _ layout _ rest => List (Option layout.Cell) × rest.Pending

/-- Nothing is pending. -/
def nothing : (fields : LayoutFields) → fields.Pending
  | .nil => ()
  | .cons _ _ _ rest => ([], rest.nothing)

/-- The row of one pending slot for each field. -/
def row? : (fields : LayoutFields) → fields.Pending → Option fields.Cells
  | .nil, _ => some ()
  | .cons _ _ _ rest, ([slot], pending) => (rest.row? pending).map fun row => (slot, row)
  | .cons _ _ _ _, _ => none

/-- A value is pending for the field at a place, if it has a place there. -/
def put? (type : ValueType) (value : type.Datum) :
    (fields : LayoutFields) → Nat → fields.Pending → Option fields.Pending
  | .nil, _, _ => none
  | .cons _ layout _ _, 0, (slots, pending) =>
    (type.place value layout).map fun slot => (slots ++ [slot], pending)
  | .cons _ _ _ rest, i + 1, (slots, pending) =>
    (rest.put? type value i pending).map fun pending => (slots, pending)

/-- The place of the first field of a name. -/
def place? (name : String) : LayoutFields → Option Nat
  | .nil => none
  | .cons n _ _ rest => if n = name then some 0 else (rest.place? name).map (· + 1)

end LayoutFields

/-- The rows that are closed, and what is pending. -/
structure Table (fields : LayoutFields) where
  rows : List (Option fields.Cells) := []
  pending : fields.Pending := fields.nothing

/-- What an operation makes of a table.  A null row is added only while nothing is
pending. -/
def RowOp.log {fields : LayoutFields} : RowOp → Table fields → Option (Table fields)
  | field i type value, t =>
    (fields.put? type value i t.pending).map fun pending => { t with pending }
  | named name type value, t =>
    (fields.place? name).bind fun i =>
      (fields.put? type value i t.pending).map fun pending => { t with pending }
  | close, t => (fields.row? t.pending).map fun row => { rows := t.rows ++ [some row] }
  | null, t => some { t with rows := t.rows ++ [none] }

/-- The table after operations on a struct without rows, if each of them has its place. -/
def Table.after (fields : LayoutFields) (ops : List RowOp) : Option (Table fields) :=
  ops.foldlM (fun t op => op.log t) {}

namespace WriterOp

/-- How many slots the operation adds to the writer that it runs on. -/
def slotCount : WriterOp → Nat
  | reserve _ | reserveBytes _ | reserveText _ => 0
  | appendNumbers _ values => values.length
  | _ => 1

/-- The slots that the operation adds to a writer of a layout.  Nothing is said of
rows that were put together field by field. -/
def cells? : WriterOp → (layout : Layout) → Option (List (Option layout.Cell))
  | reserve _, _ | reserveBytes _, _ | reserveText _, _ => some []
  | appendNull, _ => some [none]
  | appendBoolean value, .boolean => some [value]
  | appendNumber kind value, .number kind' =>
    if same : kind = kind' then some [same ▸ value] else none
  | appendNumbers kind values, .number kind' =>
    if same : kind = kind' then some ((same ▸ values : List kind'.Carrier).map some) else none
  | appendBytes value, .binary => some [value]
  | appendText value, .utf8 => some [value]
  | append type value, layout => (type.place value layout).map fun slot => [slot]
  | appendAbsent, .list _ _ => some [some []]
  | closeList, .list _ _ => some [some []]
  | appendList type items, layout =>
    ((ValueType.collection type).place (.populated items) layout).map fun slot => [slot]
  | _, _ => none

end WriterOp

/-- Something that is done to a list under construction. -/
inductive ListOp where
  /-- An operation on the writer of the items, or on the one at the end of a way inside
  it. -/
  | child (way : List Inward) (op : WriterOp)
  /-- Ends a slot with the children that are in none so far. -/
  | close
  /-- Adds a slot without children. -/
  | absent
  /-- Adds a null slot. -/
  | null

namespace ListOp

def run : ListOp → Writer → Ledger → Outcome Writer
  | child way op => Writer.onItems (Writer.inside op.run way)
  | close => Writer.closeList
  | absent => Writer.appendAbsent
  | null => Writer.appendNull

/-- How many children the operation adds.  Deeper inside it adds parts of them. -/
def children : ListOp → Nat
  | child [] op => op.slotCount
  | _ => 0

/-- The children that the operation adds, where they do not depend on anything else. -/
def cells? (item : Layout) : ListOp → Option (List (Option item.Cell))
  | child [] op => op.cells? item
  | child _ _ => none
  | _ => some []

/-- Whether the operation adds a slot. -/
def closes : ListOp → Bool
  | child _ _ => false
  | _ => true

/-- How many children all the operations of a list add to the writer of its items. -/
def total : List ListOp → Nat
  | [] => 0
  | op :: ops => op.children + total ops

/-- How many slots the operations add. -/
def closings (ops : List ListOp) : Nat := ops.countP closes

/-- The children that the operations add, one after the other. -/
def allCells? (item : Layout) (ops : List ListOp) : Option (List (Option item.Cell)) :=
  (ops.mapM (cells? item)).map List.flatten

end ListOp

/-- The children in each slot, by number, and those that are in none so far. -/
structure Tiling where
  slots : List (Option (List Nat)) := []
  pending : List Nat := []

namespace Tiling

/-- The children in all slots. -/
def placed (t : Tiling) : List Nat := (slotLists t.slots).flatten

/-- How many children there are. -/
def count (t : Tiling) : Nat := t.placed.length + t.pending.length

end Tiling

/-- What an operation on a list makes of its tiling: children are counted, and a slot that is ended
takes those that are in none, or none of them. -/
def ListOp.log : ListOp → Tiling → Tiling
  | child way op, t =>
    { t with pending := t.pending ++ List.range' t.count (child way op).children }
  | close, t => { slots := t.slots ++ [some t.pending] }
  | absent, t => { t with slots := t.slots ++ [some []] }
  | null, t => { t with slots := t.slots ++ [none] }

/-- The tiling that operations make of another one, one after the other. -/
def Tiling.run (t : Tiling) (ops : List ListOp) : Tiling := ops.foldl (fun t op => op.log t) t

/-- The tiling after operations on a list without slots and without children. -/
def Tiling.after (ops : List ListOp) : Tiling := Tiling.run {} ops

end Columnar
