import Columnar.Buffer
/-!
# Bitmaps and validity

A bitmap packs bits into bytes, the first bit lowest.  `Bitmap.bits` is what a bitmap stands
for, bit by bit; the bytes beneath are what takes memory.  A single bit is set in a byte that
was added as zeros, so it counts on the bits past the end being zero.  A run of ones fills the
bits past the end of the last byte first and clears them again at the new end.

A validity tells which slots of a column hold a value and which are null.  As long as no slot
is null there is nothing to remember but how many slots there are, and how many are planned.
The first null makes the mask: one bit for every slot so far, all set, with room for all that
was planned.  Each operation on the mask that is refused leaves the slots as they were, except
for what `Bitmap.appendMany` says of a refused run of ones.
-/

namespace Columnar

/-- Bits packed into bytes, lowest first: the bytes, and how many bits they stand for. -/
structure Bitmap where
  bytes : Buffer UInt8 1 := {}
  /-- How many bits there are. -/
  length : Nat := 0
deriving DecidableEq

namespace Bitmap

/-- How many bytes hold `n` bits. -/
def bytesFor (n : Nat) : Nat := (n + 7) / 8

/-- The byte whose lowest `n` bits are set. -/
def lowBits (n : Nat) : UInt8 := (1 <<< UInt8.ofNat n) - 1

/-- Bit `i` of packed bytes; past the last byte there are only zeros. -/
def bitAt (bytes : List UInt8) (i : Nat) : Bool :=
  (bytes.getD (i / 8) 0).toNat.testBit (i % 8)

/-- The bits of the bitmap, in order. -/
def bits (b : Bitmap) : List Bool :=
  (List.range b.length).map (bitAt b.bytes.items)

/-- Bytes that the bits take. -/
def byteLength (b : Bitmap) : Nat := bytesFor b.length

/-- Bytes that were granted. -/
def room (b : Bitmap) : Nat := b.bytes.room

/-- An empty bitmap with room for a number of bits. -/
def new (capacity : Nat) (m : Ledger) : Made Bitmap :=
  match Buffer.new (bytesFor capacity) m with
  | (.ok bytes, m) => (.ok { bytes }, m)
  | (.error fault, m) => (.error fault, m)

/-- A new bitmap is a new buffer. -/
theorem new_eq (capacity : Nat) (m : Ledger) :
    new capacity m = (Buffer.new (bytesFor capacity) m).map fun bytes => { bytes } := by
  unfold new
  rcases Buffer.new (bytesFor capacity) m with ⟨_ | bytes, m'⟩ <;> rfl

/-- Makes room for `n` more bits, without adding any. -/
def reserve (b : Bitmap) (n : Nat) (m : Ledger) : Outcome Bitmap :=
  match Size.add? b.length n with
  | none => .stopped b m (.outOfMemory .overflow)
  | some length =>
    (b.bytes.reserve (bytesFor length - b.bytes.items.length) m).map fun bytes => { b with bytes }

/-- Sets bit `i` of packed bytes. -/
def setBit (bytes : Buffer UInt8 1) (i : Nat) : Buffer UInt8 1 :=
  bytes.modify (i / 8) (· ||| (1 <<< UInt8.ofNat (i % 8)))

/-- Adds one bit at the end. If a byte more is needed it is added as zeros first; refused, it
changes nothing. -/
def append (b : Bitmap) (bit : Bool) (m : Ledger) : Outcome Bitmap :=
  match Size.add? b.length 1 with
  | none => .stopped b m (.outOfMemory .overflow)
  | some length =>
    ((b.bytes.resize (bytesFor length) 0 m).map fun bytes => { b with bytes }).andThen fun b m =>
      .done { bytes := if bit then setBit b.bytes b.length else b.bytes, length } m

/-- The bytes with the bits past the end of the last one set, and none to spare. -/
def padded (b : Bitmap) : Buffer UInt8 1 :=
  let filled :=
    if b.length % 8 = 0 then b.bytes
    else b.bytes.modifyLast (· ||| ~~~ lowBits (b.length % 8))
  filled.truncate (bytesFor b.length)

/-- The bytes with the bits of the last one from number `n % 8` on cleared. -/
def clearedPast (bytes : Buffer UInt8 1) (n : Nat) : Buffer UInt8 1 :=
  if n % 8 = 0 then bytes else bytes.modifyLast (· &&& lowBits (n % 8))

/-- Adds `n` equal bits at the end. A run of ones fills the last byte up before it asks for more
bytes, and when these are refused the filled bits stay. -/
def appendMany (b : Bitmap) (bit : Bool) (n : Nat) (m : Ledger) : Outcome Bitmap :=
  match Size.add? b.length n with
  | none => .stopped b m (.outOfMemory .overflow)
  | some length =>
    if bit then
      ((b.padded.resize (bytesFor length) 0xff m).map fun bytes => { b with bytes }).andThen
        fun b m => .done { bytes := clearedPast b.bytes length, length } m
    else if bytesFor length ≤ b.bytes.items.length then .done { b with length } m
    else
      ((b.bytes.resize (bytesFor length) 0 m).map fun bytes => { b with bytes }).andThen
        fun b m => .done { b with length } m

end Bitmap

/-- Which slots of a column are valid: only their number as long as none is null, and a mask from
the first null on. -/
inductive Validity where
  /-- Every slot is valid; room for `planned` slots is asked for with the mask. -/
  | allValid (slots planned : Nat)
  /-- One bit per slot, set where the slot is valid. -/
  | mask (bits : Bitmap)
deriving DecidableEq

namespace Validity

/-- No slots yet, with a plan for some.  Nothing is asked of the ledger. -/
def new (capacity : Nat) : Validity := .allValid 0 capacity

/-- How many slots there are. -/
def length : Validity → Nat
  | allValid slots _ => slots
  | mask bits => bits.length

/-- One bit per slot, set where the slot is valid. -/
def bits : Validity → List Bool
  | allValid slots _ => List.replicate slots true
  | mask bits => bits.bits

/-- Whether a null was ever added. -/
def hasNulls : Validity → Bool
  | allValid .. => false
  | mask _ => true

/-- Bytes that the mask takes. -/
def byteLength : Validity → Nat
  | allValid .. => 0
  | mask bits => bits.byteLength

/-- Bytes that were granted. -/
def room : Validity → Nat
  | allValid .. => 0
  | mask bits => bits.room

/-- Plans for `n` more slots; an existing mask gets room for them. -/
def reserve (v : Validity) (n : Nat) (m : Ledger) : Outcome Validity :=
  match Size.add? v.length n with
  | none => .stopped v m (.outOfMemory .overflow)
  | some total =>
    match v with
    | allValid slots planned => .done (.allValid slots (max planned total)) m
    | mask bits => (bits.reserve n m).map .mask

/-- Makes the mask and adds `n` nulls to it.  When it is refused there is no
mask, and whatever was granted for it goes back. -/
def firstNulls (slots planned n : Nat) (m : Ledger) : Outcome Validity :=
  match Size.add? slots n with
  | none => .stopped (.allValid slots planned) m (.outOfMemory .overflow)
  | some total =>
    let made := ((Bitmap.reserve {} (max planned total) m).andThen fun bits m =>
      bits.appendMany true slots m).andThen fun bits m => bits.appendMany false n m
    match made.fault with
    | none => made.map .mask
    | some fault =>
      .stopped (.allValid slots planned) (made.ledger.giveBack made.value.room) fault

/-- The mask is made of a bitmap that starts with nothing. -/
theorem firstNulls_eq {slots n total : Nat} (h : Size.add? slots n = some total) (planned : Nat)
    (m : Ledger) :
    firstNulls slots planned n m =
      (((Bitmap.reserve {} (max planned total) m).andThen fun bits m =>
        bits.appendMany true slots m).andThen fun bits m => bits.appendMany false n m).elim
        (fun bits m => .done (.mask bits) m)
        fun bits m => .stopped (.allValid slots planned) (m.giveBack bits.room) := by
  simp only [firstNulls, h]
  rcases ((Bitmap.reserve {} (max planned total) m).andThen fun bits m =>
    bits.appendMany true slots m).andThen fun bits m => bits.appendMany false n m
    with ⟨bits, m', _ | fault⟩ <;> rfl

/-- Adds one slot.  A mask checks that the count of its bits stays a size.  Without a mask
the slots are only counted, and that count is added up unchecked. -/
def append (v : Validity) (valid : Bool) (m : Ledger) : Outcome Validity :=
  match v, valid with
  | mask bits, valid => (bits.append valid m).map .mask
  | allValid slots planned, true =>
    match Size.add? slots 1 with
    | none => .stopped v m (.brokenOff .sumTooLarge)
    | some total => .done (.allValid total planned) m
  | allValid slots planned, false => firstNulls slots planned 1 m

/-- Adds `n` slots that are all valid or all null; the first null makes the mask. -/
def appendMany (v : Validity) (valid : Bool) (n : Nat) (m : Ledger) : Outcome Validity :=
  if n = 0 then .done v m
  else
    match v, valid with
    | mask bits, valid => (bits.appendMany valid n m).map .mask
    | allValid slots planned, true =>
      match Size.add? slots n with
      | none => .stopped v m (.outOfMemory .overflow)
      | some total => .done (.allValid total planned) m
    | allValid slots planned, false => firstNulls slots planned n m

/-- The finished mask: none without nulls, else one bit per slot. -/
def finish : Validity → Option (List Bool)
  | allValid .. => none
  | mask bits => some bits.bits

end Validity

end Columnar
