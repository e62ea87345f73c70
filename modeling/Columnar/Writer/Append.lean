import Columnar.Text
import Columnar.Writer.Basic
/-!
# Adding slots

A null goes down into every column of a struct before the struct notes it, so
what lies beneath a null row is null as well.  A list notes a null without
touching its items.  A row of a struct is complete when every column holds
exactly one value for it.

Operations that belong to one kind of writer refuse every other kind, naming
the kind they expect and the datatype they found.
-/

namespace Columnar

/-- The fault of using a writer as one of another kind. -/
def Writer.notA (kind : String) (w : Writer) : Fault :=
  .invalidArgument (.wrongWriter kind w.dataType)

mutual

/-- Adds a null slot. -/
def Writer.appendNull : Writer → Ledger → Outcome Writer
  | .boolean leaf, m => (leaf.append none m).map .boolean
  | .number kind leaf, m => (leaf.append none m).map (.number kind)
  | .binary leaf, m => (leaf.append none m).map .binary
  | .utf8 leaf, m => (leaf.append none m).map .utf8
  | .list slots nullable child, m =>
    (slots.closeEmpty false m).map fun slots => .list slots nullable child
  | .struct validity columns, m =>
    let nulls := columns.appendNull m
    match nulls.fault with
    | some _ => nulls.map (.struct validity)
    | none => (validity.append false nulls.ledger).map fun validity => .struct validity nulls.value

/-- Adds a null slot to every column of a struct, one column after the other; a refusal leaves those
before it longer. -/
def Writers.appendNull : Writers → Ledger → Outcome Writers
  | .nil, m => .done .nil m
  | .cons name nullable column rest, m =>
    let first := column.appendNull m
    match first.fault with
    | some _ => first.map fun column => .cons name nullable column rest
    | none => (rest.appendNull first.ledger).map (.cons name nullable first.value)

end

mutual

/-- Makes room for `n` more slots.  A list makes room for lists only; a struct
makes room in all its columns. -/
def Writer.reserve (n : Nat) : Writer → Ledger → Outcome Writer
  | .boolean leaf, m => (leaf.reserve n m).map .boolean
  | .number kind leaf, m => (leaf.reserve n m).map (.number kind)
  | .binary leaf, m => (leaf.reserve n m).map .binary
  | .utf8 leaf, m => (leaf.reserve n m).map .utf8
  | .list slots nullable child, m =>
    (slots.reserve n m).map fun slots => .list slots nullable child
  | .struct validity columns, m =>
    let own := validity.reserve n m
    match own.fault with
    | some _ => own.map fun validity => .struct validity columns
    | none => (columns.reserve n own.ledger).map (.struct own.value)

/-- Makes room for `n` more slots in every column. -/
def Writers.reserve (n : Nat) : Writers → Ledger → Outcome Writers
  | .nil, m => .done .nil m
  | .cons name nullable column rest, m =>
    let first := column.reserve n m
    match first.fault with
    | some _ => first.map fun column => .cons name nullable column rest
    | none => (rest.reserve n first.ledger).map (.cons name nullable first.value)

end

/-- A null row is added to the columns first. -/
theorem Writer.appendNull_struct (validity : Validity) (columns : Writers) (m : Ledger) :
    (Writer.struct validity columns).appendNull m =
      Outcome.both (fun columns validity => Writer.struct validity columns) validity
        (columns.appendNull m) (validity.append false) := by
  rw [Writer.appendNull]
  rfl

/-- A null is added to the first column first. -/
theorem Writers.appendNull_cons (name : String) (nullable : Bool) (column : Writer)
    (rest : Writers) (m : Ledger) :
    (Writers.cons name nullable column rest).appendNull m =
      Outcome.both (Writers.cons name nullable) rest (column.appendNull m) rest.appendNull := by
  rw [Writers.appendNull]
  rfl

/-- Room is made for the validity first. -/
theorem Writer.reserve_struct (n : Nat) (validity : Validity) (columns : Writers) (m : Ledger) :
    (Writer.struct validity columns).reserve n m =
      Outcome.both Writer.struct columns (validity.reserve n m) (columns.reserve n) := by
  rw [Writer.reserve]
  rfl

/-- Room is made in the first column first. -/
theorem Writers.reserve_cons (n : Nat) (name : String) (nullable : Bool) (column : Writer)
    (rest : Writers) (m : Ledger) :
    (Writers.cons name nullable column rest).reserve n m =
      Outcome.both (Writers.cons name nullable) rest (column.reserve n m) (rest.reserve n) := by
  rw [Writers.reserve]
  rfl

namespace Writer

/-- Adds a boolean or a null. A writer of another kind refuses it. -/
def appendBoolean (value : Option Bool) : Writer → Ledger → Outcome Writer
  | .boolean leaf, m => (leaf.append value m).map .boolean
  | w, m => .stopped w m (w.notA "Boolean")

/-- Adds a number or a null. A writer of another kind, or of another number type, refuses it. -/
def appendNumber (kind : NumberType) (value : Option kind.Carrier) :
    Writer → Ledger → Outcome Writer
  | .number kind' leaf, m =>
    if same : kind = kind' then
      (leaf.append (same ▸ value) m).map (.number kind')
    else .stopped (.number kind' leaf) m ((Writer.number kind' leaf).notA kind.name)
  | w, m => .stopped w m (w.notA kind.name)

/-- Adds numbers at one go. -/
def appendNumbers (kind : NumberType) (values : List kind.Carrier) :
    Writer → Ledger → Outcome Writer
  | .number kind' leaf, m =>
    if same : kind = kind' then
      (leaf.appendAll (same ▸ values) m).map (.number kind')
    else .stopped (.number kind' leaf) m ((Writer.number kind' leaf).notA kind.name)
  | w, m => .stopped w m (w.notA kind.name)

/-- Adds a byte string or a null. A writer of another kind refuses it. -/
def appendBytes (value : Option (List UInt8)) : Writer → Ledger → Outcome Writer
  | .binary leaf, m => (leaf.append value m).map .binary
  | w, m => .stopped w m (w.notA "Binary")

/-- Adds a text or a null. A writer of another kind refuses it. -/
def appendText (value : Option String) : Writer → Ledger → Outcome Writer
  | .utf8 leaf, m => (leaf.append (value.map Text.encode) m).map .utf8
  | w, m => .stopped w m (w.notA "Utf8")

/-- Makes room for more bytes of byte strings. -/
def reserveBytes (n : Nat) : Writer → Ledger → Outcome Writer
  | .binary leaf, m => (leaf.reserveContent n m).map .binary
  | w, m => .stopped w m (w.notA "Binary")

/-- Makes room for more bytes of text. -/
def reserveText (n : Nat) : Writer → Ledger → Outcome Writer
  | .utf8 leaf, m => (leaf.reserveContent n m).map .utf8
  | w, m => .stopped w m (w.notA "Utf8")

/-- Closes a list: it has the items that were added since the last closing. -/
def closeList : Writer → Ledger → Outcome Writer
  | .list slots nullable child, m =>
    (slots.close child.length true m).map fun slots => .list slots nullable child
  | w, m => .stopped w m (w.notA "List")

/-- Adds a list without items.  A collection that is not set is written so. -/
def appendAbsent : Writer → Ledger → Outcome Writer
  | .list slots nullable child, m =>
    (slots.closeEmpty true m).map fun slots => .list slots nullable child
  | w, m => .stopped w m (w.notA "List")

/-- Runs an operation on the writer of the items of a list. -/
def onItems (op : Writer → Ledger → Outcome Writer) : Writer → Ledger → Outcome Writer
  | .list slots nullable child, m => (op child m).map (.list slots nullable)
  | w, m => .stopped w m (w.notA "List")

/-- Adds a list of items, each added by an operation of its own. -/
def appendList (items : List (Writer → Ledger → Outcome Writer)) (w : Writer) (m : Ledger) :
    Outcome Writer :=
  (w.onItems (fun child m =>
    items.foldl (fun o op => o.andThen op) (.done child m)) m).andThen closeList

end Writer

/-- The first column that has not the given length, by its name. -/
def Writers.findUneven (rows : Nat) : Writers → Option (String × Nat)
  | .nil => none
  | .cons name _ column rest =>
    if column.length = rows then rest.findUneven rows else some (name, column.length)

/-- Runs an operation on the column at a place, if there is one. -/
def Writers.onPlace? (op : Writer → Ledger → Outcome Writer) :
    Nat → Writers → Ledger → Option (Outcome Writers)
  | _, .nil, _ => none
  | 0, .cons name nullable column rest, m =>
    some ((op column m).map fun column => .cons name nullable column rest)
  | i + 1, .cons name nullable column rest, m =>
    (Writers.onPlace? op i rest m).map fun o => o.map (.cons name nullable column)

/-- The place of the first column of a name. -/
def Writers.place? (name : String) : Writers → Option Nat
  | .nil => none
  | .cons n _ _ rest => if n = name then some 0 else (rest.place? name).map (· + 1)

namespace Writer

/-- Completes a row: every column must hold exactly one value for it.  How many values that
makes is added up unchecked. -/
def closeRow : Writer → Ledger → Outcome Writer
  | .struct validity columns, m =>
    match Size.add? validity.length 1 with
    | none => .stopped (.struct validity columns) m (.brokenOff .sumTooLarge)
    | some rows =>
      match columns.findUneven rows with
      | some (name, held) =>
        .stopped (.struct validity columns) m (.invalidState (.unevenRow name held rows))
      | none => (validity.append true m).map fun validity => .struct validity columns
  | w, m => .stopped w m (w.notA "Struct")

/-- A row is counted, then the columns are compared with the count, then it is valid. -/
theorem closeRow_struct (validity : Validity) (columns : Writers) (m : Ledger) :
    (Writer.struct validity columns).closeRow m =
      match Size.add? validity.length 1 with
      | none => .stopped (.struct validity columns) m (.brokenOff .sumTooLarge)
      | some rows =>
        match columns.findUneven rows with
        | some (name, held) =>
          .stopped (.struct validity columns) m (.invalidState (.unevenRow name held rows))
        | none => (validity.append true m).map fun validity => .struct validity columns :=
  rfl

/-- Runs an operation on the writer of the field at a place. -/
def onField (i : Nat) (op : Writer → Ledger → Outcome Writer) : Writer → Ledger → Outcome Writer
  | .struct validity columns, m =>
    match columns.onPlace? op i m with
    | some o => o.map (.struct validity)
    | none =>
      .stopped (.struct validity columns) m (.invalidArgument (.noFieldAt i columns.count))
  | w, m => .stopped w m (w.notA "Struct")

/-- Runs an operation on the writer of the first field of a name. -/
def onFieldNamed (name : String) (op : Writer → Ledger → Outcome Writer) :
    Writer → Ledger → Outcome Writer
  | .struct validity columns, m =>
    match columns.place? name with
    | some i => (Writer.struct validity columns).onField i op m
    | none => .stopped (.struct validity columns) m (.invalidArgument (.noFieldNamed name))
  | w, m => .stopped w m (w.notA "Struct")

end Writer

/-- One step from a writer to a writer inside it. -/
inductive Inward where
  /-- To the items of a list. -/
  | items
  /-- To the field of a struct at a place. -/
  | field (i : Nat)
  /-- To the first field of a struct of a name. -/
  | named (name : String)
deriving DecidableEq, Repr

/-- Runs an operation on the writer at the end of a way inside. -/
def Writer.inside (op : Writer → Ledger → Outcome Writer) :
    List Inward → Writer → Ledger → Outcome Writer
  | [], w, m => op w m
  | .items :: way, w, m => w.onItems (Writer.inside op way) m
  | .field i :: way, w, m => w.onField i (Writer.inside op way) m
  | .named name :: way, w, m => w.onFieldNamed name (Writer.inside op way) m

/-- The column at a place. -/
def Writers.get? : Nat → Writers → Option Writer
  | _, .nil => none
  | 0, .cons _ _ column _ => some column
  | i + 1, .cons _ _ _ rest => rest.get? i

/-- The writer at the end of a way inside. -/
def Writer.find : List Inward → Writer → Except Fault Writer
  | [], w => .ok w
  | .items :: way, .list _ _ child => child.find way
  | .items :: _, w => .error (w.notA "List")
  | .field i :: way, .struct _ columns =>
    match columns.get? i with
    | some column => column.find way
    | none => .error (.invalidArgument (.noFieldAt i columns.count))
  | .field _ :: _, w => .error (w.notA "Struct")
  | .named name :: way, .struct _ columns =>
    match (columns.place? name).bind fun i => columns.get? i with
    | some column => column.find way
    | none => .error (.invalidArgument (.noFieldNamed name))
  | .named _ :: _, w => .error (w.notA "Struct")

end Columnar
