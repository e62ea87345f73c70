import Columnar.Chunk.Select
import Columnar.Fault
import Columnar.Text
import Columnar.Value.Basic
/-!
# Reading values

A chunk is read by recursion over the type of its values.  The datatype of a
leaf must be the right one, and nothing may be null but where the type allows
a missing value.  Values that may be missing are read from the slots that are
there, and put back into their places afterwards.  Lists are cut out of the
values of the whole child.  Records find their columns by name; a fault in a
record carries the record's name, and the field's.
-/

namespace Columnar

namespace Chunk

/-- Refuses a chunk that has nulls, with their number and the datatype in the fault. -/
def requireNoNulls (chunk : Chunk) : Except Fault Unit :=
  if 0 < chunk.nullCount then
    .error (.missingData (.nulls chunk.nullCount chunk.length chunk.dataType))
  else .ok ()

/-- Puts values back into the places that a mask marks. -/
def spread {α : Type} : Mask → List α → Except Fault (List (Option α))
  | [], _ => .ok []
  | false :: mask, values => (spread mask values).map (none :: ·)
  | true :: _, [] => .error (.missingData .tooFewValues)
  | true :: mask, value :: values => (spread mask values).map (some value :: ·)

/-- Reads values that may be missing, given how to read those that are there. -/
def readOptions {α : Type} (read : Chunk → Except Fault (List α)) (chunk : Chunk) :
    Except Fault (List (Option α)) :=
  match chunk.logicalValidity.filter (0 < Mask.nullCount ·) with
  | none => (read chunk).map (·.map some)
  | some mask =>
    match chunk.filter mask with
    | .error fault => .error fault
    | .ok kept =>
      match read kept with
      | .error fault => .error fault
      | .ok values => spread mask values

/-- An offset as a size: a negative one is far beyond everything. -/
def offsetSize (offset : Int) : Nat := (BitVec.ofInt 64 offset).toNat

/-- An offset as a size, when it is given as the word that is stored.  Its sign fills the
word up. -/
def wordSize (word : BitVec 32) : Nat := (word.signExtend 64).toNat

/-- The flag of slot `i`.  Looking it up breaks off when the mask ends before the slot. -/
def flagAt (validity : Option Mask) (i : Nat) : Except Fault Bool :=
  match validity with
  | none => .ok true
  | some mask => mask[i]?.elim (.error (.brokenOff .maskTooShort)) .ok

/-- The values from one place up to another.  Taking them breaks off unless both are places of
the list, in order. -/
def range {α : Type} (values : List α) (first last : Nat) : Except Fault (List α) :=
  if first ≤ last ∧ last ≤ values.length then .ok ((values.drop first).take (last - first))
  else .error (.brokenOff (.rangeOutside first last values.length))

/-- Cuts the list of slot `i` out of values. -/
def cutList {α : Type} (values : List α) (validity : Option Mask) (i first last : Nat) :
    Except Fault (Collection α) :=
  match flagAt validity i with
  | .error fault => .error fault
  | .ok false => .ok .unset
  | .ok true => (range values first last).map .ofList

/-- Cuts lists out of values.  Slot `i` reaches from its offset to the next, and its offsets
are checked before it is cut. -/
def cutLists {α : Type} (values : List α) (validity : Option Mask) :
    List Int → Nat → Except Fault (List (Collection α))
  | start :: stop :: rest, i =>
    let first := offsetSize start
    let last := offsetSize stop
    if last < first ∨ values.length < last then
      .error (.offsetsOutOfBounds first last values.length)
    else
      match cutList values validity i first last with
      | .error fault => .error fault
      | .ok slot => (cutLists values validity (stop :: rest) (i + 1)).map (slot :: ·)
  | _, _ => .ok []

end Chunk

/-- The decoded columns of a record: one list of values per field. -/
def FieldTypes.Lists : FieldTypes → Type
  | .nil => Unit
  | .cons _ type rest => List type.Datum × rest.Lists

/-- The place of a field inside a record. -/
def fieldPlace (record field : String) : String := record ++ "#" ++ field

/-- Takes the first value of every column. -/
def FieldTypes.takeRow (record : String) : (fields : FieldTypes) → fields.Lists →
    Except Fault (fields.Row × fields.Lists)
  | .nil, _ => .ok ((), ())
  | .cons name _ rest, (values, columns) =>
    match values with
    | [] => .error (.within (fieldPlace record name) (.missingData .shortColumn))
    | value :: values =>
      match rest.takeRow record columns with
      | .error fault => .error fault
      | .ok (row, columns) => .ok ((value, row), (values, columns))

/-- Takes `n` rows. -/
def FieldTypes.takeRows (record : String) (fields : FieldTypes) : Nat → fields.Lists →
    Except Fault (List fields.Row)
  | 0, _ => .ok []
  | n + 1, columns =>
    match fields.takeRow record columns with
    | .error fault => .error fault
    | .ok (row, columns) => (fields.takeRows record n columns).map (row :: ·)

mutual

/-- The values of a chunk, one for each slot, or the first fault that is met: another datatype, data
that is missing, offsets out of bounds, or parts that do not fit, which breaks reading off. -/
def ValueType.read : (type : ValueType) → Chunk → Except Fault (List type.Datum)
  | .boolean, chunk =>
    match chunk with
    | .boolean values validity =>
      (Chunk.boolean values validity).requireNoNulls.map fun _ => values
    | chunk => .error (.typeMismatch .boolean chunk.dataType)
  | .number kind, chunk =>
    match chunk with
    | .number kind' values validity =>
      if same : kind' = kind then
        (Chunk.number kind' values validity).requireNoNulls.map fun _ => same ▸ values
      else .error (.typeMismatch (.number kind) (.number kind'))
    | chunk => .error (.typeMismatch (.number kind) chunk.dataType)
  | .text, chunk =>
    match chunk with
    | .utf8 offsets content validity =>
      (Chunk.utf8 offsets content validity).requireNoNulls.map fun _ =>
        (Chunk.contents offsets content).map Text.decode
    | chunk => .error (.typeMismatch .utf8 chunk.dataType)
  | .bytes, chunk =>
    match chunk with
    | .binary offsets content validity =>
      (Chunk.binary offsets content validity).requireNoNulls.map fun _ =>
        Chunk.contents offsets content
    | chunk => .error (.typeMismatch .binary chunk.dataType)
  | .option type, chunk => Chunk.readOptions type.read chunk
  | .collection type, chunk =>
    match chunk with
    | .list _ _ offsets child validity =>
      match type.read child with
      | .error fault => .error fault
      | .ok values => Chunk.cutLists values validity offsets 0
    | chunk => .error (.typeMismatch (ValueType.collection type).layout.toDataType chunk.dataType)
  | .record name fields, chunk =>
    match chunk with
    | .struct length columns validity =>
      match locatedAt name (Chunk.struct length columns validity).requireNoNulls with
      | .error fault => .error fault
      | .ok () =>
        match fields.read name columns with
        | .error fault => .error fault
        | .ok lists => fields.takeRows name length lists
    | chunk =>
      .error (.within name
        (.typeMismatch (ValueType.record name fields).layout.toDataType chunk.dataType))
  | .named _ type, chunk => type.read chunk

/-- The values of the columns of a record. -/
def FieldTypes.read (record : String) : (fields : FieldTypes) → Chunks →
    Except Fault fields.Lists
  | .nil, _ => .ok ()
  | .cons name type rest, columns =>
    match columns.find? name with
    | none => .error (.within (fieldPlace record name) (.missingData .noSuchColumn))
    | some column =>
      match locatedAt (fieldPlace record name) (type.read column) with
      | .error fault => .error fault
      | .ok values =>
        match rest.read record columns with
        | .error fault => .error fault
        | .ok lists => .ok (values, lists)

end

end Columnar
