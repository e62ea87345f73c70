import Columnar.Layout.Basic
import Columnar.Ledger
/-!
# Types of values and their data

The values that columns hold are booleans, numbers, texts, byte strings, values that may be
missing, collections, and records of named fields, nested as one likes.  A type may be given
a name of its own; a named type has the data of the type it names and is stored the same way.

A collection may be left out altogether.  Leaving it out is not the same as giving no values:
a field that is not set makes no column, an empty one makes a column of length zero.

`ValueType.Datum` computes the data of a type from the type, so that whatever works on data
is a recursion over types.  A value that may be missing has no layout of its own: it makes
the list item or the struct field nullable that holds it.

Not every value comes back from a column as it went in.  The three ways to have no items
become one, and a value that is there but consists of nothing but a missing one comes back as
missing.  Everything else is kept, the bits of floating point numbers included:
`ValueType.normal` is the value that comes back.
-/

namespace Columnar

/-- A sequence of values that may be left out. -/
inductive Collection (α : Type) where
  | unset
  | empty
  | populated (items : List α)
deriving DecidableEq, Repr

namespace Collection

variable {α β : Type}

/-- The collection of the given values: empty when there are none. -/
def ofList : List α → Collection α
  | [] => empty
  | items => populated items

def isSet : Collection α → Bool
  | unset => false
  | _ => true

/-- The values, of which a collection that is not set has none. -/
def toList : Collection α → List α
  | populated items => items
  | _ => []

/-- The values of a collection that is set, of which there may be none. -/
def toList? : Collection α → Option (List α)
  | unset => none
  | c => some c.toList

def length (c : Collection α) : Nat := c.toList.length

def isEmpty (c : Collection α) : Bool := c.length == 0

def map (f : α → β) : Collection α → Collection β
  | unset => unset
  | empty => empty
  | populated items => populated (items.map f)

/-- Equality of collections, given an equality of values.  No two of the three
ways to have no values are equal. -/
def same (eq : α → α → Bool) : Collection α → Collection α → Bool
  | unset, unset => true
  | empty, empty => true
  | populated xs, populated ys =>
    xs.length == ys.length && (xs.zip ys).all fun (x, y) => eq x y
  | _, _ => false

/-- A collection made from values has those values. -/
theorem toList_ofList (items : List α) : (ofList items).toList = items := by
  cases items <;> rfl

/-- Some values are all there is to the collection made from them. -/
theorem ofList_of_ne_nil {items : List α} (h : items ≠ []) : ofList items = populated items := by
  cases items with
  | nil => exact absurd rfl h
  | cons item items => rfl

end Collection

mutual

/-- A type of values: leaves, values that may be missing, collections, records, and types under
names of their own. -/
inductive ValueType where
  | boolean
  | number (kind : NumberType)
  | text
  | bytes
  | option (type : ValueType)
  | collection (type : ValueType)
  | record (name : String) (fields : FieldTypes)
  /-- A name for a type. -/
  | named (name : String) (type : ValueType)
deriving DecidableEq, Repr

/-- The fields of a record, in order. -/
inductive FieldTypes where
  | nil
  | cons (name : String) (type : ValueType) (rest : FieldTypes)
deriving DecidableEq, Repr

end

/-- The fields with the given names and types. -/
def FieldTypes.ofList : List (String × ValueType) → FieldTypes
  | [] => .nil
  | (name, type) :: rest => .cons name type (ofList rest)

mutual

/-- The data of a type, computed from it, so that a function on values is a recursion over types. -/
def ValueType.Datum : ValueType → Type
  | .boolean => Bool
  | .number kind => kind.Carrier
  | .text => String
  | .bytes => List UInt8
  | .option type => Option type.Datum
  | .collection type => Collection type.Datum
  | .record _ fields => fields.Row
  | .named _ type => type.Datum

/-- The data of the fields of a record. -/
def FieldTypes.Row : FieldTypes → Type
  | .nil => Unit
  | .cons _ type rest => type.Datum × rest.Row

end

/-- Whether a value of the type may be missing. -/
def ValueType.isNullable : ValueType → Bool
  | .option _ => true
  | .named _ type => type.isNullable
  | _ => false

mutual

/-- The layout of a column of the type. A value that may be missing has none of its own, it makes
what holds it nullable. -/
def ValueType.layout : ValueType → Layout
  | .boolean => .boolean
  | .number kind => .number kind
  | .text => .utf8
  | .bytes => .binary
  | .option type => type.layout
  | .collection type => .list type.layout type.isNullable
  | .record _ fields => .struct fields.layoutFields
  | .named _ type => type.layout

/-- The fields of the layout of a record. -/
def FieldTypes.layoutFields : FieldTypes → LayoutFields
  | .nil => .nil
  | .cons name type rest => .cons name type.layout type.isNullable rest.layoutFields

end

/-- How many items a value puts into a column of lists. -/
def ValueType.itemCount : (type : ValueType) → type.Datum → Nat
  | .option type, value => value.elim 0 type.itemCount
  | .collection _, items => items.length
  | .named _ type, value => type.itemCount value
  | _, _ => 0

/-- How many items values put into a column of lists altogether. -/
def ValueType.itemTotal (type : ValueType) : List type.Datum → Nat
  | [] => 0
  | value :: rest => type.itemCount value + type.itemTotal rest

/-- The number of items altogether, as it is added up value by value: there is none once a
sum is no size. -/
def ValueType.itemSum? (type : ValueType) (values : List type.Datum) : Option Nat :=
  values.foldlM (fun total value => Size.add? total (type.itemCount value)) 0

/-- Adding the numbers of items up from a size on gives the size with all of them, unless
that is none. -/
theorem ValueType.foldlM_itemCount (type : ValueType) {values : List type.Datum} {total : Nat}
    (htotal : total ≤ Size.max) :
    values.foldlM (fun total value => Size.add? total (type.itemCount value)) total =
      Size.add? total (type.itemTotal values) := by
  induction values generalizing total with
  | nil =>
    rw [List.foldlM_nil, itemTotal, Size.add?, Nat.add_zero, if_pos htotal]
    rfl
  | cons value rest ih =>
    rw [List.foldlM_cons, itemTotal]
    by_cases hnext : total + type.itemCount value ≤ Size.max
    · rw [Size.add?_of_le hnext]
      refine (ih hnext).trans ?_
      rw [Size.add?, Size.add?, Nat.add_assoc]
    · have hsum : Size.add? total (type.itemCount value) = none := if_neg hnext
      rw [hsum, Size.add?, if_neg (by omega)]
      rfl

/-- The number of items altogether is added up to their total, as long as that is a size. -/
theorem ValueType.itemSum?_eq (type : ValueType) (values : List type.Datum) :
    type.itemSum? values =
      if type.itemTotal values ≤ Size.max then some (type.itemTotal values) else none := by
  rw [itemSum?, type.foldlM_itemCount (Nat.zero_le _), Size.add?, Nat.zero_add]

mutual

/-- Equality of values.  Floating point numbers compare as numbers, so a value
with a NaN in it differs from itself. -/
def ValueType.same : (type : ValueType) → type.Datum → type.Datum → Bool
  | .boolean, (a : Bool), (b : Bool) => a == b
  | .number kind, a, b => kind.same a b
  | .text, (a : String), (b : String) => a == b
  | .bytes, (a : List UInt8), (b : List UInt8) => a == b
  | .option type, a, b =>
    match a, b with
    | none, none => true
    | some a, some b => type.same a b
    | _, _ => false
  | .collection type, a, b => Collection.same type.same a b
  | .record _ fields, a, b => fields.same a b
  | .named _ type, a, b => type.same a b

/-- Equality of the fields of records. -/
def FieldTypes.same : (fields : FieldTypes) → fields.Row → fields.Row → Bool
  | .nil, _, _ => true
  | .cons _ type rest, (a, as), (b, bs) => type.same a b && rest.same as bs

end

/-- Equality of lists of values. -/
def ValueType.sameAll (type : ValueType) (as bs : List type.Datum) : Bool :=
  as.length == bs.length && (as.zip bs).all fun (a, b) => type.same a b

/-- Whether a value takes up a null slot: it is missing, or it is there but consists of nothing but
a missing one. -/
def ValueType.isNull : (type : ValueType) → type.Datum → Bool
  | .option type, value =>
    match value with
    | none => true
    | some value => type.isNull value
  | .named _ type, value => type.isNull value
  | _, _ => false

mutual

/-- The value that comes back from a column that it was written to. -/
def ValueType.normal : (type : ValueType) → type.Datum → type.Datum
  | .boolean, value => value
  | .number _, value => value
  | .text, value => value
  | .bytes, value => value
  | .option type, value =>
    match value with
    | none => (none : Option type.Datum)
    | some value =>
      if type.isNull value then (none : Option type.Datum) else some (type.normal value)
  | .collection type, items => Collection.ofList (items.toList.map type.normal)
  | .record _ fields, row => fields.normal row
  | .named _ type, value => type.normal value

/-- The record that comes back, field by field. -/
def FieldTypes.normal : (fields : FieldTypes) → fields.Row → fields.Row
  | .nil, _ => ()
  | .cons _ type rest, (value, row) => (type.normal value, rest.normal row)

end

end Columnar
