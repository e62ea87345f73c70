import Columnar.Column
import Columnar.Value.Cell
/-!
# Histories and lives of columns

The operations that fill a column, each as a value, and the columns that are reached by a
sequence of them.  Every operation of such a history succeeds, and each may find the ledger
in another state: others use the ledger as well.

A value fits a column of exactly the layout of its type, and the items of a list fit a column
of lists of exactly their layout and nullability.  What does not fit in this sense may be
added all the same where it has a place.

Whoever holds a column calls it: to reserve and to append, to change the guess of items per
list, and to finish it.  Each call has a reply.  The life of a column is the sequence of all
calls with their replies, whether they did their work or not.
-/

namespace Columnar

/-- The list without items, in a column of lists. -/
def Layout.emptyList? : (layout : Layout) → Option layout.Cell
  | .list item _ => some ([] : List (Option item.Cell))
  | _ => none

/-- An operation that fills a column: it makes room, or it adds one slot. -/
inductive ColumnOp where
  | reserve (n : Nat)
  | reserveItems (n : Nat)
  | appendAbsent
  | appendNull
  | append (type : ValueType) (value : type.Datum)
  /-- Adds one list of these items. -/
  | appendList (type : ValueType) (items : List type.Datum)

namespace ColumnOp

/-- Runs the operation on a column; one that has failed or is finished refuses it. -/
def run : ColumnOp → Column → Ledger → Outcome Column
  | reserve n, c, m => c.reserve n m
  | reserveItems n, c, m => c.reserveItems n m
  | appendAbsent, c, m => c.appendAbsent m
  | appendNull, c, m => c.appendNull m
  | append type value, c, m => c.append (type.write value) m
  | appendList type items, c, m => c.appendList (items.map fun item => type.write item) m

/-- What the operation does to the writer of a column with a guess of items per
list. -/
def work (hint : Nat) : ColumnOp → Writer → Ledger → Outcome Writer
  | reserve n, writer, m =>
    (writer.reserve n m).andThen fun writer m =>
      match writer with
      | .list .. =>
        match Size.mul? n hint with
        | none => .stopped writer m (.outOfMemory .overflow)
        | some items => writer.onItems (Writer.reserve items) m
      | writer => .done writer m
  | reserveItems n, writer, m => writer.onItems (Writer.reserve n) m
  | appendAbsent, writer, m => writer.appendAbsent m
  | appendNull, writer, m => writer.appendNull m
  | append type value, writer, m => type.write value writer m
  | appendList type items, writer, m =>
    writer.appendList (items.map fun item => type.write item) m

/-- How far an operation that is done brings a column: to be reserved, or to be filling. -/
def progress : ColumnOp → Progress
  | reserve _ | reserveItems _ => .reserved
  | appendAbsent | appendNull | append .. | appendList .. => .filling

/-- Whether the operation adds a slot, instead of only making room. -/
def adds : ColumnOp → Bool
  | reserve _ => false
  | reserveItems _ => false
  | _ => true

/-- Every operation works on the writer, while there is one to work on. -/
theorem run_eq (op : ColumnOp) (c : Column) (m : Ledger) :
    op.run c m = c.apply op.progress (op.work c.hint) m := by
  cases op <;> rfl

/-- The slot that the operation adds to a column of a layout, if it adds one. -/
def place (layout : Layout) : ColumnOp → Option (Option layout.Cell)
  | reserve _ => none
  | reserveItems _ => none
  | appendAbsent => layout.emptyList?.map some
  | appendNull => some none
  | append type value => type.place value layout
  | appendList type items => (ValueType.collection type).place (.populated items) layout

/-- What the operation adds is of the layout of the column. -/
def Fits (layout : Layout) : ColumnOp → Prop
  | append type _ => type.layout = layout
  | appendList type _ => .list type.layout type.isNullable = layout
  | _ => True

end ColumnOp

/-- The columns that a history of successful operations leads to. -/
inductive Column.Reaches (start : Column) : Column → Prop where
  | refl : Column.Reaches start start
  | step {c : Column} (op : ColumnOp) (m : Ledger) : Column.Reaches start c →
      op.Fits c.layout → (op.run c m).fault = none → Column.Reaches start (op.run c m).value

/-- A call on a column by whoever holds it: an operation, a new guess of items per list, or
finishing. -/
inductive ColumnCall where
  | work (op : ColumnOp)
  | withHint (hint : Nat)
  | finish

/-- The reply to a call on a column: done, a chunk, a fault, or no reply since parts did not fit. -/
inductive ColumnReply where
  | done
  | chunk (chunk : Chunk)
  | refused (fault : Fault)
  /-- Finishing breaks off, since the parts do not fit. -/
  | broken (flaw : Flaw)

namespace ColumnReply

/-- An operation is done, or it is refused. -/
def ofFault : Option Fault → ColumnReply
  | none => done
  | some fault => refused fault

/-- The column is finished, or that fails. -/
def ofFinish : Except Failure Chunk → ColumnReply
  | .ok result => chunk result
  | .error (.fault fault) => refused fault
  | .error (.flaw flaw) => broken flaw

end ColumnReply

/-- Makes a call. -/
def ColumnCall.run : ColumnCall → Column → Ledger → ColumnReply × Column × Ledger
  | work op, c, m =>
    let o := op.run c m
    (.ofFault o.fault, o.value, o.ledger)
  | withHint hint, c, m => (.done, c.withHint hint, m)
  | finish, c, m =>
    let result := c.finish m
    (.ofFinish result.1, result.2)

/-- A call on a column with the reply that was given to it. -/
structure ColumnEvent where
  call : ColumnCall
  reply : ColumnReply

/-- What a call came to, as far as it decides about the life of the column. -/
inductive ColumnEvent.Kind where
  /-- The guess of items was changed, and nothing else. -/
  | hint
  /-- An operation was done that only makes room. -/
  | reservation
  /-- An operation was done that adds a slot. -/
  | addition
  /-- An operation was not done. -/
  | failure
  /-- The column was to be finished. -/
  | finish
deriving DecidableEq

namespace ColumnEvent

def kind : ColumnEvent → Kind
  | ⟨.withHint _, _⟩ => .hint
  | ⟨.work op, .done⟩ => if op.adds then .addition else .reservation
  | ⟨.work _, _⟩ => .failure
  | ⟨.finish, _⟩ => .finish

/-- No operation failed, and the column was not to be finished. -/
def AllDone (events : List ColumnEvent) : Prop :=
  ∀ e ∈ events, e.kind ≠ .failure ∧ e.kind ≠ .finish

/-- How many slots were added. -/
def additions (events : List ColumnEvent) : Nat := events.countP fun e => e.kind = .addition

/-- Whether the call yielded the chunk of the column. -/
def yields : ColumnEvent → Bool
  | ⟨.finish, .chunk _⟩ => true
  | _ => false

/-- Whether the call was refused because of the state of the column. -/
def isTurnedAway : ColumnEvent → Bool
  | ⟨_, .refused (.invalidState _)⟩ => true
  | _ => false

end ColumnEvent

/-- The columns that calls lead to, with all that happened on the way. -/
inductive Column.Lives (start : Column) : List ColumnEvent → Column → Prop where
  | here : Column.Lives start [] start
  | step {events : List ColumnEvent} {c : Column} (call : ColumnCall) (m : Ledger) :
    Column.Lives start events c →
      Column.Lives start (events ++ [⟨call, (call.run c m).1⟩]) (call.run c m).2.1

/-- Whether nothing can be done to the column any more. -/
def Stage.isClosed : Stage → Bool
  | finished | failed => true
  | fresh | reserved | filling => false

end Columnar
