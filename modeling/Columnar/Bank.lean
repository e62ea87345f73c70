import Columnar.Operations
/-!
# Borrowers on one ledger

Several borrowers may use one ledger at the same time: bare loans, buffers and the builders on
top of them, writers and columns.  A bank is the ledger with the borrowers that are there.
Commands make borrowers, operate them, finish them or drop them, in any order.  A column that
is finished stays there without memory; every other borrower is used up when it is finished.
Whatever is dropped or used up gives back what it holds.

In a session one piece of storage is called, and in between others borrow and give back.  All
that can be learned about it on the way are the replies: how each move ended, and what could
be seen of the storage then.  Bits are stored in two ways that can be used alike, as a bitmap
and as the validity of slots.

Reserving is a list of demands, met one after the other until one cannot be.  Most only demand
that something can be counted at all.  The others demand room in a buffer, which the ledger is
asked for.  Whatever is sized now makes demands of its own.  The mask of a validity without
nulls is not sized yet, and the content of strings and the items of lists are not, unless the
number of items is told or guessed.
-/

namespace Columnar

/-- An operation on a buffer of bytes, as a value: it makes room, adds bytes, changes the length or
writes over a byte. -/
inductive BufferOp where
  | reserve (n : Nat)
  | append (bytes : List UInt8)
  | resize (n : Nat) (byte : UInt8)
  | truncate (n : Nat)
  /-- Writes over a byte, if there is one at the place. -/
  | overwrite (place : Nat) (byte : UInt8)

def BufferOp.run : BufferOp → Buffer UInt8 1 → Ledger → Outcome (Buffer UInt8 1)
  | reserve n, b, m => b.reserve n m
  | append bytes, b, m => b.append bytes m
  | resize n byte, b, m => b.resize n byte m
  | truncate n, b, m => .done (b.truncate n) m
  | overwrite place byte, b, m => .done (b.modify place fun _ => byte) m

/-- An operation on bits: of a bitmap, or of the validity of slots. -/
inductive BitsOp where
  | reserve (n : Nat)
  | append (bit : Bool)
  | appendMany (bit : Bool) (n : Nat)

def BitsOp.runBitmap : BitsOp → Bitmap → Ledger → Outcome Bitmap
  | reserve n, b, m => b.reserve n m
  | append bit, b, m => b.append bit m
  | appendMany bit n, b, m => b.appendMany bit n m

def BitsOp.runValidity : BitsOp → Validity → Ledger → Outcome Validity
  | reserve n, v, m => v.reserve n m
  | append bit, v, m => v.append bit m
  | appendMany bit n, v, m => v.appendMany bit n m

inductive OffsetsOp where
  | reserve (n : Nat)
  | append (stop : Nat)
  | appendLength (n : Nat)

def OffsetsOp.run : OffsetsOp → Offsets → Ledger → Outcome Offsets
  | reserve n, o, m => o.reserve n m
  | append stop, o, m => o.append stop m
  | appendLength n, o, m => o.appendLength n m

/-- An operation on a writer of any kind: it makes room, adds a null or a value, or ends a list or a
row whose parts were added before. -/
inductive WriterOp where
  | reserve (n : Nat)
  | reserveBytes (n : Nat)
  | reserveText (n : Nat)
  | appendNull
  | appendBoolean (value : Option Bool)
  | appendNumber (kind : NumberType) (value : Option kind.Carrier)
  | appendNumbers (kind : NumberType) (values : List kind.Carrier)
  | appendBytes (value : Option (List UInt8))
  | appendText (value : Option String)
  | append (type : ValueType) (value : type.Datum)
  | appendAbsent
  | closeList
  | appendList (type : ValueType) (items : List type.Datum)
  | closeRow

def WriterOp.run : WriterOp → Writer → Ledger → Outcome Writer
  | reserve n => Writer.reserve n
  | reserveBytes n => Writer.reserveBytes n
  | reserveText n => Writer.reserveText n
  | appendNull => Writer.appendNull
  | appendBoolean value => Writer.appendBoolean value
  | appendNumber kind value => Writer.appendNumber kind value
  | appendNumbers kind values => Writer.appendNumbers kind values
  | appendBytes value => Writer.appendBytes value
  | appendText value => Writer.appendText value
  | append type value => type.write value
  | appendAbsent => Writer.appendAbsent
  | closeList => Writer.closeList
  | appendList type items => Writer.appendList (items.map fun item => type.write item)
  | closeRow => Writer.closeRow

/-- Whoever may hold memory of the ledger: a bare loan, a buffer, one of the builders on top of
buffers, a whole writer, or a column. -/
inductive Borrower where
  | loan (loan : Loan)
  | buffer (buffer : Buffer UInt8 1)
  | bitmap (bits : Bitmap)
  | validity (validity : Validity)
  | offsets (offsets : Offsets)
  | writer (writer : Writer)
  | column (column : Column)

namespace Borrower

/-- Bytes that the ledger granted to the borrower and that it has not given back; for writers and
columns this is the sum over all their buffers. -/
def room : Borrower → Nat
  | loan own => own.size
  | buffer b => b.room
  | bitmap bits => bits.room
  | validity v => v.room
  | offsets o => o.room
  | writer w => w.room
  | column c => c.room

/-- Bytes that the content of the borrower takes, in all buffers it has. -/
def byteLength : Borrower → Nat
  | loan _ => 0
  | buffer b => b.byteLength
  | bitmap bits => bits.byteLength
  | validity v => v.byteLength
  | offsets o => o.byteLength
  | writer w => w.byteLength
  | column c => c.byteLength

/-- Bytes that were granted to all borrowers of a list together. -/
def totalRoom : List Borrower → Nat
  | [] => 0
  | b :: rest => b.room + totalRoom rest

end Borrower

/-- What is needed to make a borrower: its kind, the capacity to make it for and, for writers and
columns, the layout. -/
inductive Blueprint where
  | loan
  | buffer (bytes : Nat)
  | bitmap (capacity : Nat)
  | validity (capacity : Nat)
  | offsets (capacity : Nat)
  /-- A writer with room for some slots and, in strings, for some bytes. -/
  | writer (layout : Layout) (capacity content : Nat)
  | column (layout : Layout)

def Blueprint.make : Blueprint → Ledger → Made Borrower
  | loan, m => (.ok (.loan {}), m)
  | buffer bytes, m => (Buffer.new bytes m).map .buffer
  | bitmap capacity, m => (Bitmap.new capacity m).map .bitmap
  | validity capacity, m => (.ok (.validity (.new capacity)), m)
  | offsets capacity, m => (Offsets.new capacity m).map .offsets
  | writer layout capacity content, m => (Writer.newWith capacity content layout m).map .writer
  | column layout, m => (Column.new layout m).map .column

/-- An operation on a borrower, which is for borrowers of one kind. -/
inductive Operation where
  /-- Asks for more memory on top of a loan. -/
  | grow (n : Nat)
  | buffer (op : BufferOp)
  | bitmap (op : BitsOp)
  | validity (op : BitsOp)
  | offsets (op : OffsetsOp)
  /-- An operation on a writer, or on one inside it. -/
  | writer (way : List Inward) (op : WriterOp)
  | column (op : ColumnOp)
  /-- Sets the guess of items per list of a column. -/
  | hint (n : Nat)

/-- Runs the operation.  Nothing happens to a borrower of another kind. -/
def Operation.run : Operation → Borrower → Ledger → Outcome Borrower
  | grow n, .loan loan, m => (loan.grow n m).map .loan
  | buffer op, .buffer b, m => (op.run b m).map .buffer
  | bitmap op, .bitmap bits, m => (op.runBitmap bits m).map .bitmap
  | validity op, .validity v, m => (op.runValidity v m).map .validity
  | offsets op, .offsets o, m => (op.run o m).map .offsets
  | writer way op, .writer w, m => (Writer.inside op.run way w m).map .writer
  | column op, .column c, m => (op.run c m).map .column
  | hint n, .column c, m => .done (.column (c.withHint n)) m
  | _, b, m => .done b m

/-- A ledger with the borrowers that are there, in the order in which they were made. -/
structure Bank where
  ledger : Ledger
  borrowers : List Borrower := []

inductive Command where
  | make (blueprint : Blueprint)
  /-- Runs an operation on the borrower at a place. -/
  | operate (place : Nat) (op : Operation)
  /-- Makes a list writer around the writer at a place. -/
  | wrap (place capacity : Nat) (nullable : Bool)
  | finish (place : Nat)
  | drop (place : Nat)

namespace Bank

/-- The bank before any command: a ledger with a limit on what may be lent at one time, and no
borrowers. -/
def opened (limit : Nat) : Bank := { ledger := { limit := some limit } }

/-- Bytes that are granted to all borrowers of the bank together. -/
def room (bank : Bank) : Nat := Borrower.totalRoom bank.borrowers

/-- The bank with another borrower in a place, as an operation on the one there leaves it, and with
the ledger after it. -/
def put (bank : Bank) (place : Nat) (b : Borrower) (m : Ledger) : Bank :=
  ⟨m, bank.borrowers.set place b⟩

/-- The bank without the borrower at a place; those behind it move up by one place. -/
def remove (bank : Bank) (place : Nat) (m : Ledger) : Bank :=
  ⟨m, bank.borrowers.eraseIdx place⟩

/-- Runs a command, which may end with a fault.  Nothing happens at a place
where there is no borrower that the command is for. -/
def run (bank : Bank) : Command → Option Fault × Bank
  | .make blueprint =>
    match blueprint.make bank.ledger with
    | (.ok b, m) => (none, ⟨m, bank.borrowers ++ [b]⟩)
    | (.error fault, m) => (some fault, { bank with ledger := m })
  | .operate place op =>
    match bank.borrowers[place]? with
    | some b =>
      let o := op.run b bank.ledger
      (o.fault, bank.put place o.value o.ledger)
    | none => (none, bank)
  | .wrap place capacity nullable =>
    match bank.borrowers[place]? with
    | some (.writer child) =>
      match Writer.newList capacity child nullable bank.ledger with
      | (.ok w, m) => (none, bank.put place (.writer w) m)
      | (.error fault, m) => (some fault, bank.remove place m)
    | _ => (none, bank)
  | .finish place =>
    match bank.borrowers[place]? with
    | some (.column c) =>
      match c.finish bank.ledger with
      | (.error (.fault fault), c, m) => (some fault, bank.put place (.column c) m)
      | (_, c, m) => (none, bank.put place (.column c) m)
    | some b => (none, bank.remove place (bank.ledger.giveBack b.room))
    | none => (none, bank)
  | .drop place =>
    match bank.borrowers[place]? with
    | some b => (none, bank.remove place (bank.ledger.giveBack b.room))
    | none => (none, bank)

/-- Runs commands one after the other, whatever they end with. -/
def after (bank : Bank) (history : List Command) : Bank :=
  history.foldl (fun bank command => (bank.run command).2) bank

end Bank

/-- What happens next on a ledger that a piece of storage shares with others. -/
inductive Move (Op : Type) where
  | call (op : Op)
  /-- Others ask for some bytes. -/
  | lend (n : Nat)
  /-- Others give some bytes back. -/
  | takeBack (n : Nat)

/-- Only a call changes the storage. -/
def Move.run {Op σ : Type} (run : Op → σ → Ledger → Outcome σ) : Move Op → σ → Ledger → Outcome σ
  | call op, a, m => run op a m
  | lend n, a, m => (Loan.grow {} n m).map fun _ => a
  | takeBack n, a, m => .done a (m.giveBack n)

/-- What a sequence of moves comes to: the replies to its calls, and the storage and the ledger at
its end. -/
structure Session (σ α : Type) where
  /-- How each move ended, with what could be seen of the storage then. -/
  replies : List (Option Fault × α)
  value : σ
  ledger : Ledger

/-- Makes one move after the other, whatever they end with. -/
def play {Op σ α : Type} (run : Op → σ → Ledger → Outcome σ) (look : σ → α) :
    List (Move Op) → σ → Ledger → Session σ α
  | [], a, m => ⟨[], a, m⟩
  | move :: moves, a, m =>
    let o := move.run run a m
    let rest := play run look moves o.value o.ledger
    { rest with replies := (o.fault, look o.value) :: rest.replies }

/-- What can be seen of bits under construction: how many there are, whether some is zero, and how
many bytes they take. -/
structure BitsView where
  length : Nat
  byteLength : Nat
  room : Nat
  hasMask : Bool
deriving DecidableEq

/-- Storage for bits, as its users know it. -/
class BitStore (σ : Type) where
  run : BitsOp → σ → Ledger → Outcome σ
  view : σ → BitsView
  /-- The bits so far. -/
  bits : σ → List Bool
  /-- The finished bits, if they are kept. -/
  finish : σ → Option (List Bool)

instance : BitStore Bitmap where
  run := BitsOp.runBitmap
  view b := ⟨b.length, b.byteLength, b.room, true⟩
  bits := Bitmap.bits
  finish b := some b.bits

instance : BitStore Validity where
  run := BitsOp.runValidity
  view v := ⟨v.length, v.byteLength, v.room, v.hasNulls⟩
  bits := Validity.bits
  finish := Validity.finish

/-- The replies to moves. -/
def BitStore.replies {σ : Type} [BitStore σ] (moves : List (Move BitsOp)) (a : σ) (m : Ledger) :
    List (Option Fault × BitsView) :=
  (play run view moves a m).replies

/-- The bits that are finished after moves. -/
def BitStore.finishAfter {σ : Type} [BitStore σ] (moves : List (Move BitsOp)) (a : σ)
    (m : Ledger) : Option (List Bool) :=
  finish (play run view moves a m).value

/-- What reserving demands at one place inside a writer: that a count is a size, or that a buffer
gets room for so many bytes. -/
inductive Demand where
  /-- As many slots as there are and some more can be counted. -/
  | count (length more : Nat)
  /-- Items of some width can be counted in bytes, or lists of some length in items. -/
  | product (n width : Nat)
  /-- A buffer that holds some bytes, with the room that was granted, has room for more. -/
  | bytes (held room more : Nat)
deriving DecidableEq, Repr

namespace Demand

/-- The least room for some bytes, in whole steps. -/
def padded (bytes : Nat) : Nat := (bytes + (Buffer.step - 1)) / Buffer.step * Buffer.step

/-- What is demanded can be a size, and the whole of a buffer can be its room. -/
def Fits : Demand → Prop
  | count length more => length + more ≤ Size.max
  | product n width => n * width ≤ Size.max
  | bytes held _ more => padded (held + more) ≤ Buffer.maxRoom

instance : (d : Demand) → Decidable d.Fits
  | count .. | product .. | bytes .. => Nat.decLe _ _

/-- Bytes that the ledger is asked for. -/
def lacking : Demand → Nat
  | count .. | product .. => 0
  | bytes held room more => if held + more ≤ room then 0 else padded (held + more) - room

/-- Where a buffer is to grow it gets larger than its content and its room, and what it
was granted stays a size. -/
def Safe : Demand → Prop
  | count .. | product .. => True
  | bytes held room more => room < held + more → padded (held + more) ≤ Buffer.maxRoom →
    held ≤ padded (held + more) ∧ room ≤ padded (held + more) ∧
      room + (padded (held + more) - room) ≤ Size.max

/-- Asks for what is lacking, unless no memory can have the size. -/
def meet (d : Demand) (m : Ledger) : Outcome Unit :=
  if d.Fits then (Loan.grow {} d.lacking m).map fun _ => ()
  else .stopped () m (.outOfMemory .overflow)

/-- Meets the demands one after the other, until one cannot be met. -/
def meetAll : List Demand → Ledger → Outcome Unit
  | [], m => .done () m
  | d :: ds, m => (d.meet m).andThen fun _ => meetAll ds

end Demand

/-- The demands of room for `n` more items in a buffer. -/
def Buffer.demands {α : Type} {width : Nat} (b : Buffer α width) (n : Nat) : List Demand :=
  [.product n width, .bytes b.byteLength b.room (n * width)]

def Bitmap.demands (b : Bitmap) (n : Nat) : List Demand :=
  [.count b.length n,
    .bytes b.bytes.byteLength b.room (bytesFor (b.length + n) - b.bytes.items.length)]

/-- A mask that is still to be made is not sized. -/
def Validity.demands (v : Validity) (n : Nat) : List Demand :=
  .count v.length n ::
    match v with
    | .allValid .. => []
    | .mask bits => bits.demands n

def BooleanWriter.demands (w : BooleanWriter) (n : Nat) : List Demand :=
  w.validity.demands n ++ w.values.demands n

def NumberWriter.demands {kind : NumberType} (w : NumberWriter kind) (n : Nat) : List Demand :=
  w.validity.demands n ++ w.values.demands n

def Slots.demands (s : Slots) (n : Nat) : List Demand :=
  s.validity.demands n ++ s.offsets.ends.demands n

mutual

/-- The demands of reserving room for `n` more slots in a writer, part by part in the order in which
they are met. -/
def Writer.demands (n : Nat) : Writer → List Demand
  | .boolean leaf => leaf.demands n
  | .number _ leaf => leaf.demands n
  | .binary leaf => leaf.slots.demands n
  | .utf8 leaf => leaf.slots.demands n
  | .list slots _ _ => slots.demands n
  | .struct validity columns => validity.demands n ++ columns.demands n

/-- The demands of room for `n` more slots in every column. -/
def Writers.demands (n : Nat) : Writers → List Demand
  | .nil => []
  | .cons _ _ column rest => column.demands n ++ rest.demands n

end

/-- The demands of room for `n` more items of lists. -/
def Writer.itemDemands (n : Nat) : Writer → List Demand
  | .list _ _ child => child.demands n
  | _ => []

/-- The demands of room for the items of `n` more lists, as many as are guessed. -/
def Writer.guessDemands (n hint : Nat) : Writer → List Demand
  | .list _ _ child => .product n hint :: child.demands (n * hint)
  | _ => []

end Columnar
