import Columnar.Buffer
import Columnar.Chunk.Basic
import Columnar.Validity
/-!
# Writers of leaves

The writers of booleans, numbers and byte strings, which hold their values
themselves.  Each adds the value first and its validity afterwards; a null
leaves the default value in its place: false, zero, or no bytes.  When the
second step is refused the first stays done, so a value may be there for which
there is no slot.
-/

namespace Columnar

structure BooleanWriter where
  values : Bitmap := {}
  validity : Validity
deriving DecidableEq

namespace BooleanWriter

/-- A writer is its values and its validity. -/
def split : Split Bitmap Validity BooleanWriter where
  whole := BooleanWriter.mk
  first := BooleanWriter.values
  second := BooleanWriter.validity
  whole_eq _ := rfl
  first_whole _ _ := rfl
  second_whole _ _ := rfl

def new (capacity : Nat) (m : Ledger) : Made BooleanWriter :=
  match Bitmap.new capacity m with
  | (.ok values, m) => (.ok { values, validity := .new capacity }, m)
  | (.error fault, m) => (.error fault, m)

/-- A new writer is a new bitmap. -/
theorem new_eq (capacity : Nat) (m : Ledger) :
    new capacity m =
      (Bitmap.new capacity m).map fun values => { values, validity := .new capacity } := by
  unfold new
  rcases Bitmap.new capacity m with ⟨_ | values, m'⟩ <;> rfl

def length (w : BooleanWriter) : Nat := w.validity.length

def byteLength (w : BooleanWriter) : Nat := w.validity.byteLength + w.values.byteLength

def room (w : BooleanWriter) : Nat := w.validity.room + w.values.room

/-- Adds a slot with the given bit beneath it. -/
def add (w : BooleanWriter) (value valid : Bool) (m : Ledger) : Outcome BooleanWriter :=
  ((w.values.append value m).map fun values => { w with values }).andThen fun w m =>
    (w.validity.append valid m).map fun validity => { w with validity }

/-- Adds a value or a null. -/
def append (w : BooleanWriter) (value : Option Bool) (m : Ledger) : Outcome BooleanWriter :=
  w.add (value.getD false) value.isSome m

def reserve (w : BooleanWriter) (n : Nat) (m : Ledger) : Outcome BooleanWriter :=
  ((w.validity.reserve n m).map fun validity => { w with validity }).andThen fun w m =>
    (w.values.reserve n m).map fun values => { w with values }

def finish (w : BooleanWriter) : Except Flaw Chunk :=
  Chunk.assembleBoolean w.values.bits w.validity.finish

end BooleanWriter

structure NumberWriter (kind : NumberType) where
  values : Buffer kind.Carrier kind.width := {}
  validity : Validity
deriving DecidableEq

namespace NumberWriter

variable {kind : NumberType}

/-- A writer is its values and its validity. -/
def split : Split (Buffer kind.Carrier kind.width) Validity (NumberWriter kind) where
  whole := NumberWriter.mk
  first := NumberWriter.values
  second := NumberWriter.validity
  whole_eq _ := rfl
  first_whole _ _ := rfl
  second_whole _ _ := rfl

def new (kind : NumberType) (capacity : Nat) (m : Ledger) : Made (NumberWriter kind) :=
  match Buffer.new (kind.width * capacity) m with
  | (.ok values, m) => (.ok { values, validity := .new capacity }, m)
  | (.error fault, m) => (.error fault, m)

/-- A new writer is a new buffer. -/
theorem new_eq (kind : NumberType) (capacity : Nat) (m : Ledger) :
    new kind capacity m =
      (Buffer.new (kind.width * capacity) m).map fun values =>
        { values, validity := .new capacity } := by
  unfold new
  rcases Buffer.new (kind.width * capacity) m with ⟨_ | values, m'⟩ <;> rfl

def length (w : NumberWriter kind) : Nat := w.validity.length

def byteLength (w : NumberWriter kind) : Nat := w.validity.byteLength + w.values.byteLength

def room (w : NumberWriter kind) : Nat := w.validity.room + w.values.room

/-- Adds a slot with the given value beneath it. -/
def add (w : NumberWriter kind) (value : kind.Carrier) (valid : Bool) (m : Ledger) :
    Outcome (NumberWriter kind) :=
  ((w.values.push value m).map fun values => { w with values }).andThen fun w m =>
    (w.validity.append valid m).map fun validity => { w with validity }

/-- Adds a value or a null. -/
def append (w : NumberWriter kind) (value : Option kind.Carrier) (m : Ledger) :
    Outcome (NumberWriter kind) :=
  w.add (value.getD 0) value.isSome m

/-- Adds values at one go. -/
def appendAll (w : NumberWriter kind) (values : List kind.Carrier) (m : Ledger) :
    Outcome (NumberWriter kind) :=
  ((w.values.append values m).map fun values => { w with values }).andThen fun w m =>
    (w.validity.appendMany true values.length m).map fun validity => { w with validity }

def reserve (w : NumberWriter kind) (n : Nat) (m : Ledger) : Outcome (NumberWriter kind) :=
  ((w.validity.reserve n m).map fun validity => { w with validity }).andThen fun w m =>
    match Size.mul? n kind.width with
    | none => .stopped w m (.outOfMemory .overflow)
    | some bytes => (w.values.reserve bytes m).map fun values => { w with values }

def finish (w : NumberWriter kind) : Except Flaw Chunk :=
  Chunk.assembleNumber kind w.values.items w.validity.finish

end NumberWriter

/-- Ends of slots with their validity, over a store that someone else keeps. -/
structure Slots where
  validity : Validity
  offsets : Offsets := {}
deriving DecidableEq

namespace Slots

/-- Slots are their validity and their offsets. -/
def split : Split Validity Offsets Slots where
  whole := Slots.mk
  first := Slots.validity
  second := Slots.offsets
  whole_eq _ := rfl
  first_whole _ _ := rfl
  second_whole _ _ := rfl

def new (capacity : Nat) (m : Ledger) : Made Slots :=
  match Offsets.new capacity m with
  | (.ok offsets, m) => (.ok { offsets, validity := .new capacity }, m)
  | (.error fault, m) => (.error fault, m)

/-- New slots are new offsets. -/
theorem new_eq (capacity : Nat) (m : Ledger) :
    new capacity m =
      (Offsets.new capacity m).map fun offsets => { offsets, validity := .new capacity } := by
  unfold new
  rcases Offsets.new capacity m with ⟨_ | offsets, m'⟩ <;> rfl

def length (s : Slots) : Nat := s.validity.length

def byteLength (s : Slots) : Nat := s.validity.byteLength + s.offsets.byteLength

def room (s : Slots) : Nat := s.validity.room + s.offsets.room

/-- Ends a slot at `stop`: everything since the last end belongs to it. -/
def close (s : Slots) (stop : Nat) (valid : Bool) (m : Ledger) : Outcome Slots :=
  ((s.offsets.append stop m).map fun offsets => { s with offsets }).andThen fun s m =>
    (s.validity.append valid m).map fun validity => { s with validity }

/-- Ends a slot where it started: nothing belongs to it. -/
def closeEmpty (s : Slots) (valid : Bool) (m : Ledger) : Outcome Slots :=
  ((s.offsets.appendLength 0 m).map fun offsets => { s with offsets }).andThen fun s m =>
    (s.validity.append valid m).map fun validity => { s with validity }

def reserve (s : Slots) (n : Nat) (m : Ledger) : Outcome Slots :=
  ((s.validity.reserve n m).map fun validity => { s with validity }).andThen fun s m =>
    (s.offsets.reserve n m).map fun offsets => { s with offsets }

end Slots

structure BytesWriter where
  slots : Slots
  content : Buffer UInt8 1 := {}
deriving DecidableEq

namespace BytesWriter

/-- A writer is its slots and its content. -/
def split : Split Slots (Buffer UInt8 1) BytesWriter where
  whole := BytesWriter.mk
  first := BytesWriter.slots
  second := BytesWriter.content
  whole_eq _ := rfl
  first_whole _ _ := rfl
  second_whole _ _ := rfl

/-- An empty writer with room for some strings of some bytes altogether. -/
def new (capacity bytes : Nat) (m : Ledger) : Made BytesWriter :=
  match Slots.new capacity m with
  | (.error fault, m) => (.error fault, m)
  | (.ok slots, m) =>
    match Buffer.new bytes m with
    | (.error fault, m) => (.error fault, m.giveBack slots.room)
    | (.ok content, m) => (.ok { slots, content }, m)

/-- A new writer is new slots and, next to them, a new buffer. -/
theorem new_eq (capacity bytes : Nat) (m : Ledger) :
    new capacity bytes m = (Slots.new capacity m).chain 0 fun slots m =>
      (Buffer.new bytes m).chain slots.room fun content m => (.ok { slots, content }, m) := by
  rcases hslots : Slots.new capacity m with ⟨_ | slots, m'⟩
  · simp only [new, hslots, Made.chain, Made.elim, Ledger.giveBack_zero]
  · rcases hcontent : (Buffer.new bytes m' : Made (Buffer UInt8 1)) with ⟨_ | content, m''⟩ <;>
      simp only [new, hslots, hcontent, Made.chain, Made.elim]

def length (w : BytesWriter) : Nat := w.slots.length

def byteLength (w : BytesWriter) : Nat := w.slots.byteLength + w.content.byteLength

def room (w : BytesWriter) : Nat := w.slots.room + w.content.room

/-- Ends a string with the content written so far. -/
def close (w : BytesWriter) (valid : Bool) (m : Ledger) : Outcome BytesWriter :=
  (w.slots.close w.content.byteLength valid m).map fun slots => { w with slots }

/-- Adds a string or a null. -/
def append (w : BytesWriter) (value : Option (List UInt8)) (m : Ledger) : Outcome BytesWriter :=
  match value with
  | none => w.close false m
  | some bytes =>
    ((w.content.append bytes m).map fun content => { w with content }).andThen fun w m =>
      w.close true m

def reserve (w : BytesWriter) (n : Nat) (m : Ledger) : Outcome BytesWriter :=
  (w.slots.reserve n m).map fun slots => { w with slots }

/-- Makes room for `n` more bytes of content. -/
def reserveContent (w : BytesWriter) (n : Nat) (m : Ledger) : Outcome BytesWriter :=
  (w.content.reserve n m).map fun content => { w with content }

def finishBinary (w : BytesWriter) : Except Flaw Chunk :=
  Chunk.assembleBinary w.slots.offsets.ends.items w.content.items w.slots.validity.finish

/-- Texts vouch for their parts, so nothing is checked. -/
def finishText (w : BytesWriter) : Chunk :=
  .utf8 w.slots.offsets.ends.items w.content.items w.slots.validity.finish

end BytesWriter

end Columnar
