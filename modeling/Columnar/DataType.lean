import Columnar.Text
/-!
# Datatypes of arrays

There are ten fixed width number types that a column can hold.  A value is kept as its bits,
floating point values included: columns carry bits around and never compute with them.  Two
questions look inside the bits: the little endian bytes of a value, and equality, which for
floating point values is the comparison of IEEE 754, where a NaN equals nothing and the two
zeros are equal.

The datatype of an array fixes its physical form.  The library writes and reads boolean,
number, text, binary, list and struct arrays.  The other kinds are known only to be turned
away, and to be named in messages; of most of them no more than that text is kept.

`DataType.render` is the text of a datatype in messages.  Two datatypes are equal when they
agree in every node, names and nullability included.
-/

namespace Columnar

/-- The fixed width number types that a column can hold: signed, unsigned and floating point. -/
inductive NumberType where
  | int8 | int16 | int32 | int64
  | uint8 | uint16 | uint32 | uint64
  | float32 | float64
deriving DecidableEq, Repr

namespace NumberType

/-- Bytes per value. -/
def width : NumberType → Nat
  | int8 | uint8 => 1
  | int16 | uint16 => 2
  | int32 | uint32 | float32 => 4
  | int64 | uint64 | float64 => 8

/-- A value is its bits. -/
abbrev Carrier (k : NumberType) : Type := BitVec (8 * k.width)

/-- The name of the type in datatypes and messages. -/
def name : NumberType → String
  | int8 => "Int8"
  | int16 => "Int16"
  | int32 => "Int32"
  | int64 => "Int64"
  | uint8 => "UInt8"
  | uint16 => "UInt16"
  | uint32 => "UInt32"
  | uint64 => "UInt64"
  | float32 => "Float32"
  | float64 => "Float64"

/-- All of them. -/
def all : List NumberType :=
  [int8, int16, int32, int64, uint8, uint16, uint32, uint64, float32, float64]

/-- The type of a name. -/
def ofName? (s : String) : Option NumberType := all.find? fun k => k.name == s

/-- Mantissa and exponent sizes of a floating point type. -/
def floatFormat? : NumberType → Option (Nat × Nat)
  | float32 => some (23, 8)
  | float64 => some (52, 11)
  | _ => none

/-- Whether the bits stand for no number: all exponent bits set and a mantissa
that is not zero. -/
def isNaN (mantissa exponent bits : Nat) : Bool :=
  (bits >>> mantissa) % (1 <<< exponent) == (1 <<< exponent) - 1 && bits % (1 <<< mantissa) != 0

/-- Whether the bits stand for a zero of either sign. -/
def isZero (mantissa exponent bits : Nat) : Bool :=
  bits % (1 <<< (mantissa + exponent)) == 0

/-- Equality of values.  Integers are equal when their bits are; floating point
values compare as IEEE 754 lays down. -/
def same (k : NumberType) (a b : k.Carrier) : Bool :=
  match k.floatFormat? with
  | none => a == b
  | some (mantissa, exponent) =>
    if isNaN mantissa exponent a.toNat || isNaN mantissa exponent b.toNat then false
    else a == b || (isZero mantissa exponent a.toNat && isZero mantissa exponent b.toNat)

/-- The bytes of a value, least significant first, which is how it lies in a buffer. -/
def toBytes (k : NumberType) (v : k.Carrier) : List UInt8 :=
  (List.range k.width).map fun i => UInt8.ofNat (v.toNat >>> (8 * i))

/-- The value whose bytes are given, least significant first. -/
def ofBytes (k : NumberType) (bytes : List UInt8) : k.Carrier :=
  BitVec.ofNat _ (bytes.foldr (fun b n => b.toNat + 256 * n) 0)

/-- The bytes read as consecutive values, when they are a whole number of them. -/
def words? (k : NumberType) (bytes : List UInt8) : Option (List k.Carrier) :=
  if bytes.length % k.width = 0 then
    some ((List.range (bytes.length / k.width)).map fun i =>
      k.ofBytes ((bytes.drop (i * k.width)).take k.width))
  else none

/-- No value is empty. -/
theorem width_pos (k : NumberType) : 0 < k.width := by
  cases k <;> decide

/-- A value takes exactly as many bytes as its type is wide. -/
theorem length_toBytes (k : NumberType) (v : k.Carrier) : (k.toBytes v).length = k.width := by
  simp [toBytes]

/-- The lowest bytes of a number make up the number, as far as they go. -/
private theorem foldr_bytes (width x : Nat) :
    BitVec.ofNat (8 * width) (((List.range width).map fun i => UInt8.ofNat (x >>> (8 * i))).foldr
      (fun b n => b.toNat + 256 * n) 0) = BitVec.ofNat (8 * width) x := by
  have hsum : ((List.range width).map fun i => UInt8.ofNat (x >>> (8 * i))).foldr
      (fun b n => b.toNat + 256 * n) 0 = x % 2 ^ (8 * width) := by
    induction width generalizing x with
    | zero => exact (Nat.mod_one x).symm
    | succ width ih =>
      have hshift : ∀ i, x >>> (8 * (i + 1)) = (x >>> 8) >>> (8 * i) := by
        intro i
        rw [← Nat.shiftRight_add, Nat.mul_succ, Nat.add_comm]
      rw [List.range_succ_eq_map, List.map_cons, List.map_map, List.foldr_cons]
      simp only [Function.comp_def, Nat.succ_eq_add_one, hshift, ih]
      rw [Nat.mul_succ, Nat.add_comm (8 * width), Nat.pow_add, Nat.mod_mul]
      simp [Nat.shiftRight_eq_div_pow]
  apply BitVec.eq_of_toNat_eq
  rw [hsum, BitVec.toNat_ofNat, BitVec.toNat_ofNat, Nat.mod_mod]

/-- A value is read back from the bytes that it is stored as. -/
theorem ofBytes_toBytes (k : NumberType) (v : k.Carrier) : k.ofBytes (k.toBytes v) = v := by
  rw [ofBytes, toBytes, foldr_bytes, BitVec.ofNat_toNat, BitVec.setWidth_eq]

/-- Values one after the other take their width each. -/
theorem length_flatMap_toBytes (k : NumberType) (values : List k.Carrier) :
    (values.flatMap k.toBytes).length = k.width * values.length := by
  simp [List.length_flatMap, length_toBytes, List.map_const', Nat.mul_comm]

/-- Values one after the other are read back as they are. -/
theorem words?_flatMap (k : NumberType) (values : List k.Carrier) :
    k.words? (values.flatMap k.toBytes) = some values := by
  have hread : ((List.range values.length).map fun i =>
      k.ofBytes (((values.flatMap k.toBytes).drop (i * k.width)).take k.width)) = values := by
    induction values with
    | nil => rfl
    | cons v values ih =>
      have hdrop : ∀ i, ((k.toBytes v ++ values.flatMap k.toBytes).drop ((i + 1) * k.width)) =
          (values.flatMap k.toBytes).drop (i * k.width) := by
        intro i
        rw [Nat.succ_mul, Nat.add_comm, ← List.drop_drop,
          List.drop_left' (k.length_toBytes v)]
      rw [List.length_cons, List.range_succ_eq_map, List.map_cons, List.map_map, List.flatMap_cons]
      simp only [Function.comp_def, Nat.succ_eq_add_one, hdrop, ih]
      rw [Nat.zero_mul, List.drop_zero, List.take_left' (k.length_toBytes v), ofBytes_toBytes]
  rw [words?, length_flatMap_toBytes, if_pos (Nat.mul_mod_right ..),
    Nat.mul_div_cancel_left _ k.width_pos, hread]

end NumberType

/-- Kinds of arrays that the library neither writes nor reads. -/
inductive ForeignType where
  | null | float16 | date32 | date64 | timestamp
  | largeBinary | binaryView | largeUtf8 | utf8View
  /-- Any kind besides: durations, decimals, unions, maps and whatever else there
  is, with all its parts. -/
  | other (text : String)
deriving DecidableEq, Repr

namespace ForeignType

def name : ForeignType → String
  | null => "Null"
  | float16 => "Float16"
  | date32 => "Date32"
  | date64 => "Date64"
  | timestamp => "Timestamp"
  | largeBinary => "LargeBinary"
  | binaryView => "BinaryView"
  | largeUtf8 => "LargeUtf8"
  | utf8View => "Utf8View"
  | other text => text

/-- Those that have a name and no parts. -/
def all : List ForeignType :=
  [null, float16, date32, date64, timestamp, largeBinary, binaryView, largeUtf8, utf8View]

/-- The kind of a name. -/
def ofName? (s : String) : Option ForeignType := all.find? fun k => k.name == s

/-- The text of a kind in messages.  Times are in microseconds and of no zone. -/
def render : ForeignType → String
  | timestamp => "Timestamp(Microsecond, None)"
  | kind => kind.name

end ForeignType

mutual

/-- The datatype of an array: a leaf, a list, a struct, or a kind that the library neither writes
nor reads. -/
inductive DataType where
  | boolean
  | number (kind : NumberType)
  | utf8
  | binary
  /-- Lists of any length; the field of the items has a name of its own. -/
  | list (item : String) (type : DataType) (nullable : Bool)
  | struct (fields : DataFields)
  | foreign (kind : ForeignType)
  | fixedSizeBinary (size : Int)
  | largeList (item : String) (type : DataType) (nullable : Bool)
  | fixedSizeList (item : String) (type : DataType) (nullable : Bool) (size : Int)
  | dictionary (keys values : DataType)
deriving DecidableEq, Repr

/-- The fields of a struct, in order. -/
inductive DataFields where
  | nil
  | cons (name : String) (type : DataType) (nullable : Bool) (rest : DataFields)
deriving DecidableEq, Repr

end

/-- The fields with the given names, datatypes and nullabilities. -/
def DataFields.ofList : List (String × DataType × Bool) → DataFields
  | [] => .nil
  | (name, type, nullable) :: rest => .cons name type nullable (ofList rest)

/-- The datatype of a name, among those that have no parts. -/
def DataType.ofName? (s : String) : Option DataType :=
  match s with
  | "Boolean" => some .boolean
  | "Utf8" => some .utf8
  | "Binary" => some .binary
  | s => ((NumberType.ofName? s).map .number).or ((ForeignType.ofName? s).map .foreign)

/-- Whether every slot holds one boolean or number. -/
def DataType.isScalar : DataType → Bool
  | .boolean => true
  | .number _ => true
  | _ => false

/-- Whether the library neither writes nor reads the arrays of the datatype. -/
def DataType.isForeign : DataType → Bool
  | .boolean => false
  | .number _ => false
  | .utf8 => false
  | .binary => false
  | .list .. => false
  | .struct _ => false
  | _ => true

/-- The text of a field whose datatype has the given text. -/
def DataType.renderField (name type : String) (nullable : Bool) : String :=
  "Field \x7b name: " ++ Text.quoted name ++ ", data_type: " ++ type ++ ", nullable: "
    ++ (if nullable then "true" else "false")
    ++ ", dict_id: 0, dict_is_ordered: false, metadata: \x7b\x7d \x7d"

mutual

/-- The text of a datatype in messages. -/
def DataType.render : DataType → String
  | .boolean => "Boolean"
  | .number kind => kind.name
  | .utf8 => "Utf8"
  | .binary => "Binary"
  | .list item type nullable => "List(" ++ DataType.renderField item type.render nullable ++ ")"
  | .struct fields => "Struct([" ++ ", ".intercalate fields.render ++ "])"
  | .foreign kind => kind.render
  | .fixedSizeBinary size => s!"FixedSizeBinary({size})"
  | .largeList item type nullable =>
    "LargeList(" ++ DataType.renderField item type.render nullable ++ ")"
  | .fixedSizeList item type nullable size =>
    "FixedSizeList(" ++ DataType.renderField item type.render nullable ++ s!", {size})"
  | .dictionary keys values => "Dictionary(" ++ keys.render ++ ", " ++ values.render ++ ")"

/-- The texts of the fields of a struct. -/
def DataFields.render : DataFields → List String
  | .nil => []
  | .cons name type nullable rest =>
    DataType.renderField name type.render nullable :: rest.render

end

end Columnar
