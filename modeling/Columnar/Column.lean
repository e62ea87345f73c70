import Columnar.Layout.Cell
import Columnar.Value.Basic
import Columnar.Writer.Append
import Columnar.Writer.Basic
/-!
# Columns

A column is a writer with a life cycle.  It is fresh, then memory is reserved, then it is
being filled, and at last it is finished, which yields its chunk and gives all its memory
back.  When an operation fails, the column has failed for good: its content means nothing any
more, though its memory is still held.  A finished or failed column refuses everything.

Reserving is a matter of speed only.  For a column of lists it also makes room for the items,
on the guess of a number of items per list.

A value is added to a writer by recursion over its type: a missing value as a null, a
collection as a list whose items are added one by one, a record field by field and then as a
row.  A collection that is not set becomes a list without items, just as an empty one.  A
value can be added to any writer; one of another kind refuses it, and what was added before
the refusal stays.
-/

namespace Columnar

/-- How far a column has come, in this order. -/
inductive Stage where
  | fresh | reserved | filling | finished | failed
deriving DecidableEq, Repr

/-- The place of a stage in the order of a column's life: fresh, reserved, filling, and then failed
or finished. -/
def Stage.rank : Stage → Nat
  | fresh => 0
  | reserved => 1
  | filling => 2
  | finished => 3
  | failed => 4

def Stage.name : Stage → String
  | fresh => "Fresh"
  | reserved => "Reserved"
  | filling => "Filling"
  | finished => "Finished"
  | failed => "Failed"

/-- How far a column that still works has come. -/
inductive Progress where
  | fresh | reserved | filling
deriving DecidableEq, Repr

namespace Progress

/-- The further of two stages of progress: no operation leads a column back. -/
def further : Progress → Progress → Progress
  | filling, _ => filling
  | _, filling => filling
  | reserved, _ => reserved
  | _, reserved => reserved
  | fresh, fresh => fresh

def stage : Progress → Stage
  | fresh => .fresh
  | reserved => .reserved
  | filling => .filling

end Progress

/-- The state of a column; only a finished one has no writer. -/
inductive Column.State where
  | usable (progress : Progress) (writer : Writer)
  | failed (writer : Writer)
  | finished
deriving DecidableEq

/-- A column under construction: its layout, the guess of items per list, and its state, which has
the writer as long as it is not finished. -/
structure Column where
  layout : Layout
  /-- The guess of items per list. -/
  hint : Nat := 2
  state : Column.State
deriving DecidableEq

/-- Why a column was not finished: it refused, or its parts do not fit. -/
inductive Failure where
  | fault (fault : Fault)
  | flaw (flaw : Flaw)
deriving DecidableEq

namespace Column

/-- A fresh column for a layout, with an empty writer. A layout that repeats a name in a struct is
refused before memory is asked for. -/
def new (layout : Layout) (m : Ledger) : Made Column :=
  match layout.check with
  | .error fault => (.error fault, m)
  | .ok () =>
    (Writer.new layout m).map fun writer => { layout, state := .usable .fresh writer }

/-- The column with another guess of items per list. -/
def withHint (c : Column) (hint : Nat) : Column := { c with hint }

/-- The writer of the column, unless the column is finished; a failed column keeps its writer until
it is dropped. -/
def writer? (c : Column) : Option Writer :=
  match c.state with
  | .usable _ writer => some writer
  | .failed writer => some writer
  | .finished => none

def stage (c : Column) : Stage :=
  match c.state with
  | .usable progress _ => progress.stage
  | .failed _ => .failed
  | .finished => .finished

/-- How many slots were added; zero once finished. -/
def length (c : Column) : Nat := c.writer?.elim 0 Writer.length

/-- Bytes that the slots take; zero once finished. -/
def byteLength (c : Column) : Nat := c.writer?.elim 0 Writer.byteLength

/-- Bytes that are granted to the column. -/
def room (c : Column) : Nat := c.writer?.elim 0 Writer.room

def dataType (c : Column) : DataType := c.layout.toDataType

/-- Runs an operation on the writer of a column that still works, and notes how
far that brings the column. -/
def apply (c : Column) (progress : Progress) (op : Writer → Ledger → Outcome Writer)
    (m : Ledger) : Outcome Column :=
  match c.state with
  | .finished => .stopped c m (.invalidState .alreadyFinished)
  | .failed _ => .stopped c m (.invalidState .failedBefore)
  | .usable before writer =>
    let o := op writer m
    match o.fault with
    | none => .done { c with state := .usable (before.further progress) o.value } o.ledger
    | some fault => .stopped { c with state := .failed o.value } o.ledger fault

/-- On a column that still works an operation brings it further, or it fails. -/
theorem apply_eq {c : Column} {before : Progress} {writer : Writer}
    (h : c.state = .usable before writer) (progress : Progress)
    (op : Writer → Ledger → Outcome Writer) (m : Ledger) :
    c.apply progress op m = (op writer m).elim
      (fun writer m => .done { c with state := .usable (before.further progress) writer } m)
      fun writer m => .stopped { c with state := .failed writer } m := by
  simp only [apply, h]
  rcases op writer m with ⟨writer', m', _ | fault⟩ <;> rfl

/-- Makes room for `n` more slots, and in a list for the guessed items. -/
def reserve (c : Column) (n : Nat) (m : Ledger) : Outcome Column :=
  c.apply .reserved (fun writer m =>
    (writer.reserve n m).andThen fun writer m =>
      match writer with
      | .list .. =>
        match Size.mul? n c.hint with
        | none => .stopped writer m (.outOfMemory .overflow)
        | some items => writer.onItems (Writer.reserve items) m
      | writer => .done writer m) m

/-- Makes room for `n` more items of a column of lists. -/
def reserveItems (c : Column) (n : Nat) (m : Ledger) : Outcome Column :=
  c.apply .reserved (fun writer m => writer.onItems (Writer.reserve n) m) m

/-- Adds a slot by an operation on the writer. -/
def append (c : Column) (op : Writer → Ledger → Outcome Writer) (m : Ledger) : Outcome Column :=
  c.apply .filling op m

/-- Adds a null slot, whatever the layout says about nulls. -/
def appendNull (c : Column) (m : Ledger) : Outcome Column :=
  c.append Writer.appendNull m

/-- Adds a list without items; a column of another layout refuses it and has failed. -/
def appendAbsent (c : Column) (m : Ledger) : Outcome Column :=
  c.append Writer.appendAbsent m

/-- Adds a list of items, each added by an operation of its own. -/
def appendList (c : Column) (items : List (Writer → Ledger → Outcome Writer)) (m : Ledger) :
    Outcome Column :=
  c.append (Writer.appendList items) m

/-- Gives all memory of the column back to the ledger, as dropping it does. -/
def release (c : Column) (m : Ledger) : Ledger := m.giveBack c.room

/-- Finishes the column.  A column that still works is finished for good and
holds no memory, whether its parts fit or not. -/
def finish (c : Column) (m : Ledger) : Except Failure Chunk × Column × Ledger :=
  match c.state with
  | .finished => (.error (.fault (.invalidState .alreadyFinished)), c, m)
  | .failed _ => (.error (.fault (.invalidState .failedBefore)), c, m)
  | .usable _ writer =>
    let result := match writer.finish with
      | .ok chunk => .ok chunk
      | .error flaw => .error (.flaw flaw)
    (result, { c with state := .finished }, c.release m)

end Column

mutual

/-- Adds a value of the type to a writer of any layout. A writer that the value does not belong to
refuses it, and keeps what was added before the refusal. -/
def ValueType.write : (type : ValueType) → type.Datum → Writer → Ledger → Outcome Writer
  | .boolean, (value : Bool), w, m => w.appendBoolean (some value) m
  | .number kind, (value : kind.Carrier), w, m => w.appendNumber kind (some value) m
  | .text, (value : String), w, m => w.appendText (some value) m
  | .bytes, (value : List UInt8), w, m => w.appendBytes (some value) m
  | .option type, value, w, m =>
    match value with
    | some value => type.write value w m
    | none => w.appendNull m
  | .collection type, items, w, m =>
    match items with
    | .unset => w.appendAbsent m
    | .empty => w.closeList m
    | .populated items => w.appendList (items.map fun item => type.write item) m
  | .record _ fields, row, w, m =>
    match w with
    | .struct validity columns =>
      ((fields.write row 0 columns.count columns m).map (.struct validity)).andThen
        Writer.closeRow
    | w => .stopped w m (w.notA "Struct")
  | .named _ type, value, w, m => type.write value w m

/-- Adds the values of a record to the columns from number `i` of `count` on. -/
def FieldTypes.write : (fields : FieldTypes) → fields.Row → (i count : Nat) → Writers →
    Ledger → Outcome Writers
  | .nil, _, _, _, columns, m => .done columns m
  | .cons _ _ _, _, i, count, .nil, m => .stopped .nil m (.invalidArgument (.noFieldAt i count))
  | .cons _ type rest, (value, row), i, count, .cons name nullable column columns, m =>
    let first := type.write value column m
    match first.fault with
    | some _ => first.map fun column => .cons name nullable column columns
    | none =>
      (rest.write row (i + 1) count columns first.ledger).map (.cons name nullable first.value)

end

/-- The value of the first field is added first. -/
theorem FieldTypes.write_cons {fieldName : String} {type : ValueType} {rest : FieldTypes}
    (value : type.Datum) (row : rest.Row) (i count : Nat) (name : String) (nullable : Bool)
    (column : Writer) (columns : Writers) (m : Ledger) :
    (FieldTypes.cons fieldName type rest).write (value, row) i count
        (.cons name nullable column columns) m =
      Outcome.both (Writers.cons name nullable) columns (type.write value column m)
        (rest.write row (i + 1) count columns) := by
  rw [FieldTypes.write]
  rfl

/-- Adds the slot of a value to a column, by the column's own operations for
missing values and collections. -/
def ValueType.writeSlot : (type : ValueType) → type.Datum → Column → Ledger → Outcome Column
  | .option type, value, c, m =>
    match value with
    | some value => type.writeSlot value c m
    | none => c.appendNull m
  | .collection type, items, c, m =>
    match items with
    | .unset => c.appendAbsent m
    | .empty => c.appendList [] m
    | .populated items => c.appendList (items.map fun item => type.write item) m
  | .named _ type, value, c, m => type.writeSlot value c m
  | .boolean, value, c, m => c.append (ValueType.boolean.write value) m
  | .number kind, value, c, m => c.append ((ValueType.number kind).write value) m
  | .text, value, c, m => c.append (ValueType.text.write value) m
  | .bytes, value, c, m => c.append (ValueType.bytes.write value) m
  | .record name fields, value, c, m => c.append ((ValueType.record name fields).write value) m

end Columnar
