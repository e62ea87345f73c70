import Columnar.Chunk.Sound
import Columnar.Value.Basic
import Columnar.Value.Read
/-!
# What reading looks at

`ValueType.meaning` is the value in a slot of a chunk, by recursion over the type: a null slot
is a missing value or a collection that is not set, and nothing at all to a type that knows
neither.  Only the slot itself is looked at, and what it refers to; what lies beneath nulls or
between slots plays no part.

Reading is less strict than the datatype of a type.  Records look their columns up by name, so
the order of columns and columns without a field make no difference; neither do the name and
the nullability of list items and fields.  `ValueType.accepts` are the datatypes that a type
can be read from, and `ValueType.Alike` relates chunks that differ in nothing that reading the
type looks at.

Choosing the values of an option that are there takes the length of a struct from its first
column, and loses it without columns.  `ValueType.Sturdy` are the chunks that nothing is lost
of.
-/

namespace Columnar

namespace Chunk

/-- The content of slot `i` of strings. -/
def stringAt (offsets : List Int) (content : List UInt8) (i : Nat) : List UInt8 :=
  (content.drop (offsets.getD i 0).toNat).take
    ((offsets.getD (i + 1) 0).toNat - (offsets.getD i 0).toNat)

/-- The places of the items of slot `i` of lists. -/
def itemsAt (offsets : List Int) (i : Nat) : List Nat :=
  List.range' (offsets.getD i 0).toNat
    ((offsets.getD (i + 1) 0).toNat - (offsets.getD i 0).toNat)

end Chunk

mutual

/-- The value in slot `i`, if it has one that the type knows. -/
def ValueType.meaning : (type : ValueType) → Chunk → Nat → Option type.Datum
  | .boolean, chunk, i =>
    match chunk with
    | .boolean values _ => if chunk.isNullAt i then none else values[i]?
    | _ => none
  | .number kind, chunk, i =>
    match chunk with
    | .number kind' values _ =>
      if same : kind' = kind then
        if chunk.isNullAt i then none else (same ▸ values : List kind.Carrier)[i]?
      else none
    | _ => none
  | .text, chunk, i =>
    match chunk with
    | .utf8 offsets content _ =>
      if chunk.isNullAt i then none else some (Text.decode (Chunk.stringAt offsets content i))
    | _ => none
  | .bytes, chunk, i =>
    match chunk with
    | .binary offsets content _ =>
      if chunk.isNullAt i then none else some (Chunk.stringAt offsets content i)
    | _ => none
  | .option type, chunk, i =>
    if chunk.isNullAt i then some (none : Option type.Datum)
    else (type.meaning chunk i).map some
  | .collection type, chunk, i =>
    match chunk with
    | .list _ _ offsets child _ =>
      if chunk.isNullAt i then some (.unset : Collection type.Datum)
      else ((Chunk.itemsAt offsets i).mapM (type.meaning child)).map Collection.ofList
    | _ => none
  | .record _ fields, chunk, i =>
    match chunk with
    | .struct _ columns _ => if chunk.isNullAt i then none else fields.meaning columns i
    | _ => none
  | .named _ type, chunk, i => type.meaning chunk i

/-- The record in row `i` of columns. -/
def FieldTypes.meaning : (fields : FieldTypes) → Chunks → Nat → Option fields.Row
  | .nil, _, _ => some ()
  | .cons name type rest, columns, i =>
    match columns.find? name with
    | none => none
    | some column =>
      match type.meaning column i, rest.meaning columns i with
      | some value, some row => some (value, row)
      | _, _ => none

end

/-- Whether the datatype was another or data was missing, at whatever place. -/
def Fault.isMisfit (fault : Fault) : Bool :=
  match fault.root with
  | .typeMismatch .. => true
  | .missingData _ => true
  | _ => false

/-- The datatype of the first field of a name. -/
def DataFields.find? (name : String) : DataFields → Option DataType
  | .nil => none
  | .cons n type _ rest => if n = name then some type else rest.find? name

mutual

/-- Whether values of the type can be read from arrays of a datatype. -/
def ValueType.accepts : ValueType → DataType → Bool
  | .boolean, type => decide (type = .boolean)
  | .number kind, type => decide (type = .number kind)
  | .text, type => decide (type = .utf8)
  | .bytes, type => decide (type = .binary)
  | .option item, type => item.accepts type
  | .collection item, type =>
    match type with
    | .list _ type _ => item.accepts type
    | _ => false
  | .record _ fields, type =>
    match type with
    | .struct columns => fields.accepts columns
    | _ => false
  | .named _ item, type => item.accepts type

/-- Whether every field finds a column that it can be read from. -/
def FieldTypes.accepts : FieldTypes → DataFields → Bool
  | .nil, _ => true
  | .cons name item rest, columns =>
    (columns.find? name).any item.accepts && rest.accepts columns

end

mutual

/-- The chunks agree in all that reading the type looks at. -/
def ValueType.Alike : ValueType → Chunk → Chunk → Prop
  | .option type, a, b => type.Alike a b
  | .named _ type, a, b => type.Alike a b
  | .collection type, a, b =>
    match a, b with
    | .list _ _ offsets child validity, .list _ _ offsets' child' validity' =>
      offsets = offsets' ∧ validity = validity' ∧ type.Alike child child'
    | _, _ => False
  | .record _ fields, a, b =>
    match a, b with
    | .struct length columns validity, .struct length' columns' validity' =>
      length = length' ∧ validity = validity' ∧ fields.Alike columns columns'
    | _, _ => False
  | .boolean, a, b => a = b
  | .number _, a, b => a = b
  | .text, a, b => a = b
  | .bytes, a, b => a = b

/-- The columns of every field agree. -/
def FieldTypes.Alike : FieldTypes → Chunks → Chunks → Prop
  | .nil, _, _ => True
  | .cons name type rest, a, b =>
    (match a.find? name, b.find? name with
      | some column, some column' => type.Alike column column'
      | _, _ => False) ∧ rest.Alike a b

end

/-- Some slots of the chunk are null and some are not, so that reading an option must choose among
them. -/
def Chunk.Mixed (chunk : Chunk) : Prop :=
  ∃ mask ∈ chunk.logicalValidity, true ∈ mask ∧ false ∈ mask

mutual

/-- Where some values of an option are missing and some are not, there is no struct
without columns. -/
def ValueType.Sturdy : ValueType → Chunk → Prop
  | .option type, chunk => (chunk.Mixed → chunk.hasEmptyStruct = false) ∧ type.Sturdy chunk
  | .named _ type, chunk => type.Sturdy chunk
  | .collection type, chunk =>
    match chunk with
    | .list _ _ _ child _ => type.Sturdy child
    | _ => True
  | .record _ fields, chunk =>
    match chunk with
    | .struct _ columns _ => fields.Sturdy columns
    | _ => True
  | _, _ => True

/-- The columns of all fields are sturdy. -/
def FieldTypes.Sturdy : FieldTypes → Chunks → Prop
  | .nil, _ => True
  | .cons name type rest, columns =>
    (∀ column ∈ columns.find? name, type.Sturdy column) ∧ rest.Sturdy columns

end

end Columnar
