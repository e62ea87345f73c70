import Columnar.Bank
import Columnar.Outcome
import Columnar.Value.Read
/-!
# Buffers and offsets in words

Sizes are 64 bit words, and whatever a buffer computes on the way to its room is computed in
words.  Only some sums are checked: that of the content and what is to be added, and the
rounding up to whole steps.  `BufferOp.runWords?` does the same as `BufferOp.run` with all of
this arithmetic made in sight.  It has no answer once a difference that nobody checks is below
zero, or a sum or a product is no size.  `BufferOp.edit` says what an operation is to make of
the bytes, and `BufferOp.editAll` what all those are to make of them that come to their end.
Items of any kind are stored as their bytes, one after the other: `Buffer.bytesOf`.

Offsets are stored as signed words of 32 bits in a buffer of bytes, and the last one is kept
as such a word next to it.  The end of a slot is a size, a word of 64 bits without sign.  So
every end is narrowed before it is stored, and the last word is widened again to tell where
the next slot starts.  `OffsetsOp.runWords?` does on `OffsetWords` what `OffsetsOp.run` does
on offsets, with each of these conversions in sight.  `Offsets.stored` tells how offsets are
stored, and `OffsetsOp.edit` what an operation is to make of the ends of slots.
-/

namespace Columnar

/-- The difference of two sizes, when it is a size. -/
def Size.sub? (m n : Nat) : Option Nat :=
  if n ≤ m then some (m - n) else none

/-- Asks for more memory on top of a loan, whose new size nobody checks. -/
def Loan.growWords? (loan : Loan) (n : Nat) (m : Ledger) : Option (Outcome Loan) :=
  if n = 0 then some (.done loan m)
  else
    match m.ask n with
    | (none, m) => (Size.add? loan.size n).map fun size => .done ⟨size⟩ m
    | (some refusal, m) => some (.stopped loan m (.outOfMemory refusal))

namespace Buffer

/-- The next whole step from `n` bytes on, if it is a size and a buffer can have that
much room. -/
def roomForWords? (n : Nat) : Option Nat :=
  (if n % step = 0 then some n else Size.add? n (step - n % step)).filter (· ≤ maxRoom)

/-- An empty buffer with room for a number of bytes. -/
def newWords? (bytes : Nat) (m : Ledger) : Option (Made (Buffer UInt8 1)) :=
  match roomForWords? bytes with
  | none => some (.error (.outOfMemory .overflow), m)
  | some room =>
    (Loan.growWords? {} room m).map fun o =>
      o.elim (fun loan m => (.ok { loan }, m)) fun _ m fault => (.error fault, m)

/-- Raises the granted room to `room`.  Both what is lacking and what the storage needs
beyond the content are differences that nobody checks. -/
def growToWords? (b : Buffer UInt8 1) (room : Nat) (m : Ledger) :
    Option (Outcome (Buffer UInt8 1)) :=
  (Size.sub? room b.room).bind fun lacking =>
    (b.loan.growWords? lacking m).bind fun grown =>
      match grown.fault with
      | none => (Size.sub? room b.byteLength).map fun _ => grown.map fun loan => { b with loan }
      | some _ => some (grown.map fun loan => { b with loan })

/-- Makes room for `bytes` more bytes, and no more than that. -/
def reserveWords? (b : Buffer UInt8 1) (bytes : Nat) (m : Ledger) :
    Option (Outcome (Buffer UInt8 1)) :=
  match Size.add? b.byteLength bytes with
  | none => some (.stopped b m (.outOfMemory .overflow))
  | some required =>
    if required ≤ b.room then some (.done b m)
    else
      match roomForWords? required with
      | none => some (.stopped b m (.outOfMemory .overflow))
      | some room => b.growToWords? room m

/-- Makes room for `bytes` bytes that are about to be added.  The doubled room is a
product that nobody checks. -/
def ensureWords? (b : Buffer UInt8 1) (bytes : Nat) (m : Ledger) :
    Option (Outcome (Buffer UInt8 1)) :=
  match Size.add? b.byteLength bytes with
  | none => some (.stopped b m (.outOfMemory .overflow))
  | some required =>
    if required ≤ b.room then some (.done b m)
    else
      match roomForWords? required with
      | none => some (.stopped b m (.outOfMemory .overflow))
      | some room =>
        (Size.mul? b.room 2).bind fun double => b.growToWords? (max room (min double maxRoom)) m

/-- Adds bytes at the end. -/
def appendWords? (b : Buffer UInt8 1) (bytes : List UInt8) (m : Ledger) :
    Option (Outcome (Buffer UInt8 1)) :=
  (b.ensureWords? bytes.length m).map fun o => o.andThen fun b m =>
    .done { b with items := b.items ++ bytes } m

/-- Makes the buffer `n` bytes long.  How many are lacking is a difference that nobody
checks. -/
def resizeWords? (b : Buffer UInt8 1) (n : Nat) (byte : UInt8) (m : Ledger) :
    Option (Outcome (Buffer UInt8 1)) :=
  if n ≤ b.items.length then some (.done (b.truncate n) m)
  else
    (Size.sub? n b.items.length).bind fun more =>
      b.appendWords? (List.replicate more byte) m

/-- The buffer of the bytes that the items are stored as. -/
def bytesOf {α : Type} {width : Nat} (encode : α → List UInt8) (b : Buffer α width) :
    Buffer UInt8 1 where
  items := b.items.flatMap encode
  loan := b.loan

end Buffer

namespace BufferOp

/-- Runs the operation, as long as all sizes are words. -/
def runWords? : BufferOp → Buffer UInt8 1 → Ledger → Option (Outcome (Buffer UInt8 1))
  | reserve n, b, m => b.reserveWords? n m
  | append bytes, b, m => b.appendWords? bytes m
  | resize n byte, b, m => b.resizeWords? n byte m
  | truncate n, b, m => some (.done (b.truncate n) m)
  | overwrite place byte, b, m => some (.done (b.modify place fun _ => byte) m)

/-- Whether the operation may add bytes. -/
def adds : BufferOp → Bool
  | append _ | resize _ _ => true
  | reserve _ | truncate _ | overwrite _ _ => false

/-- What the operation is to make of the bytes. -/
def edit : BufferOp → List UInt8 → List UInt8
  | reserve _, content => content
  | append bytes, content => content ++ bytes
  | resize n byte, content => (content ++ List.replicate n byte).take n
  | truncate n, content => content.take n
  | overwrite place byte, content => content.set place byte

/-- The bytes after the operations that came to their end, in order. -/
def editAll (steps : List (Step BufferOp (Buffer UInt8 1))) (content : List UInt8) : List UInt8 :=
  (steps.filter fun s => (s.outcome run).succeeded).foldl (fun content s => s.op.edit content)
    content

/-- The bytes that the ledger granted in the steps. -/
def granted : List (Step BufferOp (Buffer UInt8 1)) → Nat
  | [] => 0
  | s :: steps => (s.outcome run).ledger.lent - s.ledger.lent + granted steps

end BufferOp

/-- Offsets as they are stored: their bytes in a buffer, and the last one once more as a word. -/
structure OffsetWords where
  bytes : Buffer UInt8 1 := {}
  /-- The last word once more. -/
  last : NumberType.int32.Carrier := 0

namespace OffsetWords

/-- How many slots there are, one less than there are words.  Nobody checks that there is
a word. -/
def length? (w : OffsetWords) : Option Nat := Size.sub? (w.bytes.items.length / 4) 1

/-- Where the next slot starts. -/
def lastEnd (w : OffsetWords) : Nat := Chunk.wordSize w.last

/-- The offsets that the bytes are taken for when the words are finished, if the bytes
are whole words. -/
def finish? (w : OffsetWords) : Option (List Int) :=
  (NumberType.int32.words? w.bytes.items).map (·.map BitVec.toInt)

/-- The word zero, with room for `capacity` slots. -/
def new? (capacity : Nat) (m : Ledger) : Option (Made OffsetWords) :=
  match (Size.add? capacity 1).bind (Size.mul? · 4) with
  | none => some (.error (.outOfMemory .overflow), m)
  | some size =>
    (Buffer.newWords? size m).bind fun
      | (.error fault, m) => some (.error fault, m)
      | (.ok bytes, m) =>
        (bytes.appendWords? (NumberType.int32.toBytes 0) m).map fun o =>
          o.make Buffer.room fun bytes m => (.ok { bytes }, m)

/-- Makes room for `n` more slots. -/
def reserve? (w : OffsetWords) (n : Nat) (m : Ledger) : Option (Outcome OffsetWords) :=
  match Size.mul? n 4 with
  | none => some (.stopped w m (.outOfMemory .overflow))
  | some size => (w.bytes.reserveWords? size m).map fun o => o.map fun bytes => { w with bytes }

/-- Ends the current slot at `stop`, which is compared as a signed word. -/
def append? (w : OffsetWords) (stop : Nat) (m : Ledger) : Option (Outcome OffsetWords) :=
  if Offsets.maxOffset < stop then
    some (.stopped w m (.invalidArgument (.offsetTooLarge stop)))
  else
    let word : NumberType.int32.Carrier := BitVec.ofNat 32 stop
    if word.toInt < w.last.toInt then
      some (.stopped w m (.invalidState (.offsetDescends word.toInt w.last.toInt)))
    else
      (w.bytes.appendWords? (NumberType.int32.toBytes word) m).map fun o =>
        (o.map fun bytes => { w with bytes }).andThen fun w m => .done { w with last := word } m

/-- Ends the current slot `n` items after its start.  Nobody checks that the sum is a
size. -/
def appendLength? (w : OffsetWords) (n : Nat) (m : Ledger) : Option (Outcome OffsetWords) :=
  (Size.add? w.lastEnd n).bind fun stop => w.append? stop m

end OffsetWords

/-- An offset as a signed word. -/
def Offsets.word (offset : Int) : NumberType.int32.Carrier := BitVec.ofInt 32 offset

/-- The bytes of an offset. -/
def Offsets.encode (offset : Int) : List UInt8 := NumberType.int32.toBytes (word offset)

/-- The words that offsets are stored as: each narrowed to 32 bits and laid down as its bytes. -/
def Offsets.stored (o : Offsets) : OffsetWords where
  bytes := o.ends.bytesOf Offsets.encode
  last := Offsets.word o.last

namespace OffsetsOp

/-- Runs the operation on words, as long as all sizes are words. -/
def runWords? : OffsetsOp → OffsetWords → Ledger → Option (Outcome OffsetWords)
  | reserve n, w, m => w.reserve? n m
  | append stop, w, m => w.append? stop m
  | appendLength n, w, m => w.appendLength? n m

/-- Where a slot is to end, if the operation ends one. -/
def stop? (o : Offsets) : OffsetsOp → Option Nat
  | reserve _ => none
  | append stop => some stop
  | appendLength n => some (o.lastEnd + n)

/-- An end that is given by a length is a size. -/
def Countable (o : Offsets) : OffsetsOp → Prop
  | appendLength n => o.lastEnd + n ≤ Size.max
  | reserve _ | append _ => True

instance (o : Offsets) : (op : OffsetsOp) → Decidable (op.Countable o)
  | appendLength _ => inferInstanceAs (Decidable (_ ≤ _))
  | reserve _ | append _ => .isTrue trivial

/-- What the operation is to make of the ends of slots.  A slot starts where the one
before ends, and the first one at zero. -/
def edit : OffsetsOp → List Nat → List Nat
  | reserve _, stops => stops
  | append stop, stops => stops ++ [stop]
  | appendLength n, stops => stops ++ [stops.getLast?.getD 0 + n]

end OffsetsOp

end Columnar
