import Columnar.DataType
import Columnar.Text
/-!
# Chunks

A chunk is a finished array that nothing changes any more.  Its slots hold values or are
null; a chunk without a validity mask has no nulls.  Byte strings, texts and lists have one
offset more than they have slots: slot `i` reaches from offset `i` to offset `i + 1` of the
content or the child.  A struct has one column per field, with the slots side by side.  What
lies beneath a null does not count, but it is there.  Offsets need not start at zero, and need
not be in order when nobody checked them.

A chunk is put together from parts that have to fit: one validity bit per slot, columns of one
length, lists within their child, and no null where the datatype forbids one.  A part that
does not fit is a flaw.  Texts are assembled without a look at their mask: whoever writes them
vouches for it.

Other chunks are not written slot by slot but made from values that are already there.
Strings lie one after the other without gaps.  A dictionary is null where its key is, and
means null also where the key leads to a null.
-/

namespace Columnar

/-- A mask with one bit per slot, set where the slot holds a value. -/
abbrev Mask : Type := List Bool

/-- How many slots a validity mask marks as null, which are those whose bit is zero. -/
def Mask.nullCount (mask : Mask) : Nat := mask.count false

mutual

/-- A finished array of one of the datatypes that the library writes, or one of another kind, of
which only the datatype, the length and the nulls are kept. -/
inductive Chunk where
  | boolean (values : List Bool) (validity : Option Mask)
  | number (kind : NumberType) (values : List kind.Carrier) (validity : Option Mask)
  | utf8 (offsets : List Int) (content : List UInt8) (validity : Option Mask)
  | binary (offsets : List Int) (content : List UInt8) (validity : Option Mask)
  | list (item : String) (nullable : Bool) (offsets : List Int) (child : Chunk)
      (validity : Option Mask)
  | struct (length : Nat) (columns : Chunks) (validity : Option Mask)
  /-- An array that is only looked at from outside.  Its slots can be null by
  what they refer to, so the mask it has may differ from the mask it means. -/
  | foreign (type : DataType) (length : Nat) (validity logical : Option Mask)
deriving DecidableEq

/-- The columns of a struct in order, each with the name and the nullability of its field. -/
inductive Chunks where
  | nil
  | cons (name : String) (nullable : Bool) (column : Chunk) (rest : Chunks)
deriving DecidableEq

end

namespace Chunk

/-- How many slots a chunk has; strings and lists have one less than they have offsets. -/
def length : Chunk → Nat
  | boolean values _ => values.length
  | number _ values _ => values.length
  | utf8 offsets _ _ => offsets.length - 1
  | binary offsets _ _ => offsets.length - 1
  | list _ _ offsets _ _ => offsets.length - 1
  | struct length _ _ => length
  | foreign _ length _ _ => length

/-- The mask that the chunk has. -/
def validity : Chunk → Option Mask
  | boolean _ validity => validity
  | number _ _ validity => validity
  | utf8 _ _ validity => validity
  | binary _ _ validity => validity
  | list _ _ _ _ validity => validity
  | struct _ _ validity => validity
  | foreign _ _ validity _ => validity

/-- The mask that the chunk means. -/
def logicalValidity : Chunk → Option Mask
  | foreign _ _ _ logical => logical
  | chunk => chunk.validity

/-- How many slots the chunk's own mask marks as null. -/
def nullCount (chunk : Chunk) : Nat :=
  chunk.validity.elim 0 Mask.nullCount

end Chunk

mutual

/-- The datatype of a chunk, which it carries itself: by its kind, and for lists and structs by the
kinds of the parts. -/
def Chunk.dataType : Chunk → DataType
  | .boolean .. => .boolean
  | .number kind _ _ => .number kind
  | .utf8 .. => .utf8
  | .binary .. => .binary
  | .list item nullable _ child _ => .list item child.dataType nullable
  | .struct _ columns _ => .struct columns.dataFields
  | .foreign type _ _ _ => type

/-- The fields of the datatype of a struct. -/
def Chunks.dataFields : Chunks → DataFields
  | .nil => .nil
  | .cons name nullable column rest => .cons name column.dataType nullable rest.dataFields

end

namespace Chunks

/-- The columns with the given names, nullabilities and chunks. -/
def ofList : List (String × Bool × Chunk) → Chunks
  | [] => nil
  | (name, nullable, column) :: rest => cons name nullable column (ofList rest)

/-- The names, nullabilities and chunks of the columns. -/
def toList : Chunks → List (String × Bool × Chunk)
  | nil => []
  | cons name nullable column rest => (name, nullable, column) :: rest.toList

/-- The first column of a name, which is the one that reading a record looks at. -/
def find? (name : String) : Chunks → Option Chunk
  | nil => none
  | cons n _ column rest => if n = name then some column else rest.find? name

/-- The length of the first column, zero without columns. -/
def firstLength : Chunks → Nat
  | nil => 0
  | cons _ _ column _ => column.length

end Chunks

/-- Why parts do not make a chunk: something in them does not fit the rest, and putting them
together breaks off. -/
inductive Flaw where
  /-- The mask has not one bit per slot. -/
  | maskLength (slots bits : Nat)
  /-- The last list reaches past the child. -/
  | childTooShort (last : Int) (length : Nat)
  /-- An item of a list is null and must not be. -/
  | nullItem
  /-- A column of a struct has not the struct's length. -/
  | columnLength (name : String)
  /-- A column of a struct is null where the struct is not, and must not be. -/
  | nullField (name : String)
deriving DecidableEq, Repr

namespace Chunk

/-- Checks that a mask has one bit per slot. -/
def checkMask (slots : Nat) (validity : Option Mask) : Except Flaw Unit :=
  match validity with
  | none => .ok ()
  | some mask => if mask.length = slots then .ok () else .error (.maskLength slots mask.length)

def assembleBoolean (values : List Bool) (validity : Option Mask) : Except Flaw Chunk :=
  (checkMask values.length validity).map fun _ => .boolean values validity

def assembleNumber (kind : NumberType) (values : List kind.Carrier) (validity : Option Mask) :
    Except Flaw Chunk :=
  (checkMask values.length validity).map fun _ => .number kind values validity

def assembleBinary (offsets : List Int) (content : List UInt8) (validity : Option Mask) :
    Except Flaw Chunk :=
  (checkMask (offsets.length - 1) validity).map fun _ => .binary offsets content validity

/-- Lists over a child.  Items that must not be null are not. -/
def assembleList (item : String) (nullable : Bool) (offsets : List Int) (child : Chunk)
    (validity : Option Mask) : Except Flaw Chunk :=
  let last := offsets.getLast?.getD 0
  if child.length < last then .error (.childTooShort last child.length)
  else if nullable = false ∧ 0 < child.nullCount then .error .nullItem
  else
    (checkMask (offsets.length - 1) validity).map fun _ =>
      .list item nullable offsets child validity

/-- Whether every null of a column is a null of the struct too. -/
def masked (validity column : Option Mask) : Bool :=
  match column, validity with
  | none, _ => true
  | some own, none => own.nullCount == 0
  | some own, some rows => (own.zip rows).all fun (bit, row) => bit || !row

/-- Checks each column of a struct against its length and its mask. -/
def checkColumns (length : Nat) (validity : Option Mask) : Chunks → Except Flaw Unit
  | .nil => .ok ()
  | .cons name nullable column rest =>
    if column.length ≠ length then .error (.columnLength name)
    else if nullable = false ∧ masked validity column.logicalValidity = false then
      .error (.nullField name)
    else checkColumns length validity rest

/-- A mask, unless it marks no slot as null. -/
def keepIfNull (validity : Option Mask) : Option Mask :=
  validity.filter (0 < Mask.nullCount ·)

/-- A mask that marks a null is kept when a validity is finished. -/
theorem keepIfNull_of_mem {mask : Mask} (h : false ∈ mask) :
    keepIfNull (some mask) = some mask := by
  have hcount : 0 < Mask.nullCount mask := List.count_pos_iff.2 h
  rw [keepIfNull, Option.filter_some, if_pos (by simpa using hcount)]

/-- A mask that marks no null is dropped when a validity is finished, as if none had been made. -/
theorem keepIfNull_of_not_mem {mask : Mask} (h : false ∉ mask) :
    keepIfNull (some mask) = none := by
  have hcount : Mask.nullCount mask = 0 := List.count_eq_zero.2 h
  rw [keepIfNull, Option.filter_some, if_neg (by simp [hcount])]

/-- A struct over columns.  Without columns its length is the number of rows. -/
def assembleStruct (rows : Nat) (columns : Chunks) (validity : Option Mask) :
    Except Flaw Chunk :=
  let length := match columns with
    | .nil => rows
    | columns => columns.firstLength
  match checkMask length validity with
  | .error flaw => .error flaw
  | .ok () =>
    (checkColumns length validity columns).map fun _ => .struct length columns (keepIfNull validity)

end Chunk

/-- The mask of slots, if some slot is null. -/
def Mask.ofSlots {α : Type} (slots : List (Option α)) : Option Mask :=
  Chunk.keepIfNull (some (slots.map Option.isSome))

/-- A mask of slots has one bit per slot. -/
theorem Mask.length_of_mem_ofSlots {α : Type} {slots : List (Option α)} {mask : Mask}
    (h : mask ∈ Mask.ofSlots slots) : mask.length = slots.length := by
  unfold Mask.ofSlots Chunk.keepIfNull at h
  obtain ⟨hmask, -⟩ := Option.filter_eq_some_iff.1 h
  rw [← Option.some.inj hmask, List.length_map]

/-- A mask of slots always fits them. -/
theorem Chunk.checkMask_ofSlots {α : Type} (slots : List (Option α)) :
    Chunk.checkMask slots.length (Mask.ofSlots slots) = .ok () := by
  cases hmask : Mask.ofSlots slots with
  | none => rfl
  | some mask => simp [Chunk.checkMask, Mask.length_of_mem_ofSlots hmask]

/-- The lists in slots; a null slot has no items. -/
def slotLists {α : Type} (slots : List (Option (List α))) : List (List α) :=
  slots.map (·.getD [])

/-- A null slot adds no items. -/
theorem slotLists_append {α : Type} (slots : List (Option (List α))) (slot : Option (List α)) :
    slotLists (slots ++ [slot]) = slotLists slots ++ [slot.getD []] := by
  simp [slotLists]

namespace Chunk

/-- The offsets of slots of the given lengths, from a start. -/
def offsetsFrom (start : Int) : List Nat → List Int
  | [] => [start]
  | n :: rest => start :: offsetsFrom (start + n) rest

/-- There is one offset more than there are slots. -/
theorem length_offsetsFrom (start : Int) (lengths : List Nat) :
    (offsetsFrom start lengths).length = lengths.length + 1 := by
  induction lengths generalizing start with
  | nil => rfl
  | cons n rest ih => simp [offsetsFrom, ih]

/-- Byte strings. -/
def ofBytes (strings : List (List UInt8)) (validity : Option Mask) : Except Flaw Chunk :=
  assembleBinary (offsetsFrom 0 (strings.map List.length)) strings.flatten validity

/-- Texts. -/
def ofTexts (texts : List String) (validity : Option Mask) : Chunk :=
  let strings := texts.map Text.encode
  .utf8 (offsetsFrom 0 (strings.map List.length)) strings.flatten validity

/-- Nothing but nulls, which need no mask. -/
def ofNulls (length : Nat) : Chunk :=
  .foreign (.foreign .null) length none (some (List.replicate length false))

/-- Slots of a kind that is only looked at from outside. -/
def ofForeign (type : DataType) (validity : Mask) : Chunk :=
  .foreign type validity.length (keepIfNull (some validity)) (keepIfNull (some validity))

/-- Whether the slot that a key leads to holds a value. -/
def keyed (values : Chunk) (key : Option Nat) : Bool :=
  key.elim false fun i => (values.validity.getD []).getD i true

/-- Slots given by places among the values. -/
def ofKeys (keys : List (Option Nat)) (values : Chunk) : Chunk :=
  .foreign (.dictionary (.number .int8) values.dataType) keys.length
    (keepIfNull (some (keys.map Option.isSome))) (keepIfNull (some (keys.map (keyed values))))

end Chunk

end Columnar
