import Columnar.Writer.Leaf
/-!
# Writers

A writer collects the slots of a column of some layout: a leaf, a list around the writer of
its items, or a struct with a writer for each field.  The leaves hold values; lists and
structs hold only their validity and, for lists, where each list ends.

A new writer asks the ledger for what its parts need, from the inside out and from the left.
A construction that is refused half way gives back all it got.

A finished writer hands its parts over to a chunk.  Nothing in a writer keeps the parts in
step, so they are checked when the chunk is assembled: a writer whose additions all went well
fits, one that was refused memory in the middle of an addition may not.
-/

namespace Columnar

mutual

/-- The slots of a column under construction: a leaf with its values, a list around the writer of
its items, or a struct with a writer for each field. -/
inductive Writer where
  | boolean (leaf : BooleanWriter)
  | number (kind : NumberType) (leaf : NumberWriter kind)
  | binary (leaf : BytesWriter)
  | utf8 (leaf : BytesWriter)
  /-- Lists of the items of `child`, which may be null or not. -/
  | list (slots : Slots) (nullable : Bool) (child : Writer)
  | struct (validity : Validity) (columns : Writers)
deriving DecidableEq

/-- The writers of the fields of a struct, in order. -/
inductive Writers where
  | nil
  | cons (name : String) (nullable : Bool) (column : Writer) (rest : Writers)
deriving DecidableEq

end

mutual

/-- The datatype of the chunk that the writer makes. -/
def Writer.dataType : Writer → DataType
  | .boolean _ => .boolean
  | .number kind _ => .number kind
  | .binary _ => .binary
  | .utf8 _ => .utf8
  | .list _ nullable child => .list Layout.itemName child.dataType nullable
  | .struct _ columns => .struct columns.dataFields

/-- The fields of the datatype of a struct. -/
def Writers.dataFields : Writers → DataFields
  | .nil => .nil
  | .cons name nullable column rest => .cons name column.dataType nullable rest.dataFields

end

/-- How many slots were added. -/
def Writer.length : Writer → Nat
  | .boolean leaf => leaf.length
  | .number _ leaf => leaf.length
  | .binary leaf => leaf.length
  | .utf8 leaf => leaf.length
  | .list slots _ _ => slots.length
  | .struct validity _ => validity.length

mutual

/-- Bytes that the slots take, those of nested writers included. -/
def Writer.byteLength : Writer → Nat
  | .boolean leaf => leaf.byteLength
  | .number _ leaf => leaf.byteLength
  | .binary leaf => leaf.byteLength
  | .utf8 leaf => leaf.byteLength
  | .list slots _ child => slots.byteLength + child.byteLength
  | .struct validity columns => validity.byteLength + columns.byteLength

/-- Bytes that the columns take. -/
def Writers.byteLength : Writers → Nat
  | .nil => 0
  | .cons _ _ column rest => column.byteLength + rest.byteLength

end

mutual

/-- Bytes that were granted to the writer and to the writers inside it. -/
def Writer.room : Writer → Nat
  | .boolean leaf => leaf.room
  | .number _ leaf => leaf.room
  | .binary leaf => leaf.room
  | .utf8 leaf => leaf.room
  | .list slots _ child => slots.room + child.room
  | .struct validity columns => validity.room + columns.room

/-- Bytes that were granted to the columns. -/
def Writers.room : Writers → Nat
  | .nil => 0
  | .cons _ _ column rest => column.room + rest.room

end

/-- How many columns there are. -/
def Writers.count : Writers → Nat
  | .nil => 0
  | .cons _ _ _ rest => rest.count + 1

/-- How many children a list has so far, or how many columns a struct. -/
def Writer.children? : Writer → Option Nat
  | .list _ _ child => some child.length
  | .struct _ columns => some columns.count
  | _ => none

/-- A list writer around an empty child, with room for `capacity` lists.  When
that is refused the child is given up too. -/
def Writer.newList (capacity : Nat) (child : Writer) (nullable : Bool) (m : Ledger) :
    Made Writer :=
  match Slots.new capacity m with
  | (.ok slots, m) => (.ok (.list slots nullable child), m)
  | (.error fault, m) => (.error fault, m.giveBack child.room)

/-- A list is made around a child that is held already. -/
theorem Writer.newList_eq (capacity : Nat) (child : Writer) (nullable : Bool) (m : Ledger) :
    Writer.newList capacity child nullable m =
      (Slots.new capacity m).chain child.room fun slots m =>
        (.ok (.list slots nullable child), m) := by
  rcases hslots : Slots.new capacity m with ⟨_ | slots, m'⟩ <;>
    simp only [Writer.newList, hslots, Made.chain, Made.elim]

mutual

/-- An empty writer for a layout; if one of its parts is refused memory, what the others got is
given back. -/
def Writer.new : Layout → Ledger → Made Writer
  | .boolean, m => (BooleanWriter.new 0 m).map .boolean
  | .number kind, m => (NumberWriter.new kind 0 m).map (.number kind)
  | .binary, m => (BytesWriter.new 0 0 m).map .binary
  | .utf8, m => (BytesWriter.new 0 0 m).map .utf8
  | .list item nullable, m =>
    match Writer.new item m with
    | (.error fault, m) => (.error fault, m)
    | (.ok child, m) => Writer.newList 0 child nullable m
  | .struct fields, m => (Writers.new fields m).map (.struct (.new 0))

/-- Empty writers for the fields of a struct. -/
def Writers.new : LayoutFields → Ledger → Made Writers
  | .nil, m => (.ok .nil, m)
  | .cons name layout nullable rest, m =>
    match Writer.new layout m with
    | (.error fault, m) => (.error fault, m)
    | (.ok column, m) =>
      match Writers.new rest m with
      | (.error fault, m) => (.error fault, m.giveBack column.room)
      | (.ok columns, m) => (.ok (.cons name nullable column columns), m)

end

/-- A new list is made around a new child. -/
theorem Writer.new_list (item : Layout) (nullable : Bool) (m : Ledger) :
    Writer.new (.list item nullable) m =
      (Writer.new item m).chain 0 fun child m => Writer.newList 0 child nullable m := by
  rcases hchild : Writer.new item m with ⟨_ | child, m'⟩ <;>
    simp only [Writer.new, hchild, Made.chain, Made.elim, Ledger.giveBack_zero]

/-- New columns are a new column and, next to it, the columns that follow. -/
theorem Writers.new_cons (name : String) (layout : Layout) (nullable : Bool) (rest : LayoutFields)
    (m : Ledger) :
    Writers.new (.cons name layout nullable rest) m =
      (Writer.new layout m).chain 0 fun column m =>
        (Writers.new rest m).chain column.room fun columns m =>
          (.ok (.cons name nullable column columns), m) := by
  rcases hcolumn : Writer.new layout m with ⟨_ | column, m'⟩
  · simp only [Writers.new, hcolumn, Made.chain, Made.elim, Ledger.giveBack_zero]
  · rcases hcolumns : Writers.new rest m' with ⟨_ | columns, m''⟩ <;>
      simp only [Writers.new, hcolumn, hcolumns, Made.chain, Made.elim]

/-- An empty writer for a layout, with room for `capacity` slots and, in strings,
for `content` bytes.  What is inside lists and structs gets no room. -/
def Writer.newWith (capacity content : Nat) : Layout → Ledger → Made Writer
  | .boolean, m => (BooleanWriter.new capacity m).map .boolean
  | .number kind, m => (NumberWriter.new kind capacity m).map (.number kind)
  | .binary, m => (BytesWriter.new capacity content m).map .binary
  | .utf8, m => (BytesWriter.new capacity content m).map .utf8
  | .list item nullable, m =>
    match Writer.new item m with
    | (.error fault, m) => (.error fault, m)
    | (.ok child, m) => Writer.newList capacity child nullable m
  | .struct fields, m => Writer.new (.struct fields) m

/-- A list with room is made around a new child. -/
theorem Writer.newWith_list (capacity content : Nat) (item : Layout) (nullable : Bool)
    (m : Ledger) :
    Writer.newWith capacity content (.list item nullable) m =
      (Writer.new item m).chain 0 fun child m => Writer.newList capacity child nullable m := by
  rcases hchild : Writer.new item m with ⟨_ | child, m'⟩ <;>
    simp only [Writer.newWith, hchild, Made.chain, Made.elim, Ledger.giveBack_zero]

mutual

/-- The chunk of the slots that were added to a writer, unless its parts do not fit together, which
breaks off. -/
def Writer.finish : Writer → Except Flaw Chunk
  | .boolean leaf => leaf.finish
  | .number _ leaf => leaf.finish
  | .binary leaf => leaf.finishBinary
  | .utf8 leaf => .ok leaf.finishText
  | .list slots nullable child =>
    match child.finish with
    | .error flaw => .error flaw
    | .ok child =>
      Chunk.assembleList Layout.itemName nullable slots.offsets.ends.items child
        slots.validity.finish
  | .struct validity columns =>
    match columns.finish with
    | .error flaw => .error flaw
    | .ok columns => Chunk.assembleStruct validity.length columns validity.finish

/-- The chunks of the columns. -/
def Writers.finish : Writers → Except Flaw Chunks
  | .nil => .ok .nil
  | .cons name nullable column rest =>
    match column.finish with
    | .error flaw => .error flaw
    | .ok column =>
      match rest.finish with
      | .error flaw => .error flaw
      | .ok rest => .ok (.cons name nullable column rest)

end

end Columnar
