import Columnar.Outcome
/-!
# Buffers and offsets

A buffer holds items of one width and the memory that was granted for them.  It never holds
more than it was granted: whoever adds items first asks the ledger for room.  Room is granted
in steps of 64 bytes.  Reserving asks for just the room that is needed; adding at least
doubles the room, so that a long run of additions asks rarely.  A refused request leaves the
items and the granted room as they were.

Slots of varying length lie one after the other in a common store.  Offsets tell where each
slot ends: they start with 0, and each further one is the end of a slot and the start of the
next.  An offset is a signed 32 bit word, and offsets never descend.  A slot whose end does
not fit, lies before the last one, or finds no memory is not added, and nothing changes.
-/

namespace Columnar

/-- Memory that the ledger has lent to one holder. -/
structure Loan where
  size : Nat := 0
deriving DecidableEq, Repr

/-- Asks for more memory on top of a loan.  Nothing is asked for nothing. -/
def Loan.grow (loan : Loan) (n : Nat) (m : Ledger) : Outcome Loan :=
  if n = 0 then .done loan m
  else
    match m.ask n with
    | (none, m) => .done ⟨loan.size + n⟩ m
    | (some refusal, m) => .stopped loan m (.outOfMemory refusal)

/-- Room is granted in multiples of this many bytes. -/
def Buffer.step : Nat := 64

/-- The most room that a buffer can have: a signed 64 bit size in whole steps. -/
def Buffer.maxRoom : Nat := 0x7fffffffffffffff / Buffer.step * Buffer.step

/-- The least room for `n` bytes, if a buffer can have that much. -/
def Buffer.roomFor? (n : Nat) : Option Nat :=
  let room := (n + (step - 1)) / step * step
  if room ≤ maxRoom then some room else none

/-- A loan that is granted more is larger by just what it asked for. -/
theorem Loan.value_grow {loan : Loan} {n : Nat} {m : Ledger} (h : (loan.grow n m).fault = none) :
    (loan.grow n m).value = ⟨loan.size + n⟩ := by
  unfold Loan.grow at h ⊢
  split
  · simp_all
  · cases hasked : m.ask n with
    | mk refusal m' => cases refusal <;> simp_all [Outcome.stopped, Outcome.done]

/-- A loan that is refused more stays as large as it was. -/
theorem Loan.value_grow_of_fault {loan : Loan} {n : Nat} {m : Ledger} {f : Fault}
    (h : (loan.grow n m).fault = some f) : (loan.grow n m).value = loan := by
  unfold Loan.grow at h ⊢
  split
  · simp
  · cases hasked : m.ask n with
    | mk refusal m' => cases refusal <;> simp_all [Outcome.stopped, Outcome.done]

/-- A ledger without limit grants whatever is asked for, and stays without. -/
theorem Loan.grow_of_unlimited (loan : Loan) (n : Nat) {m : Ledger} (h : m.limit = none) :
    (loan.grow n m).fault = none ∧ (loan.grow n m).ledger.limit = none := by
  have hasked : m.ask n = (none, { m with requests := n :: m.requests, lent := m.lent + n }) := by
    simp [Ledger.ask, Ledger.admits, h]
  unfold Loan.grow
  split
  · exact ⟨rfl, h⟩
  · rw [hasked]
    exact ⟨rfl, h⟩

/-- Room suffices for what it was computed for, in whole steps. -/
theorem Buffer.roomFor?_spec {n room : Nat} (h : Buffer.roomFor? n = some room) :
    n ≤ room ∧ room < n + Buffer.step ∧ room % Buffer.step = 0 ∧ room ≤ Buffer.maxRoom := by
  simp only [Buffer.roomFor?, Option.ite_none_right_eq_some, Option.some.injEq] at h
  obtain ⟨hle, rfl⟩ := h
  simp only [Buffer.step] at hle ⊢
  omega

/-- Items of a fixed width in bytes, with the memory granted for them. -/
structure Buffer (α : Type) (width : Nat) where
  items : List α := []
  loan : Loan := {}
deriving DecidableEq

namespace Buffer

variable {α : Type} {width : Nat}

/-- Bytes that the items of the buffer take. -/
def byteLength (b : Buffer α width) : Nat := width * b.items.length

/-- Bytes that were granted. -/
def room (b : Buffer α width) : Nat := b.loan.size

/-- An empty buffer with room for a number of bytes. -/
def new (bytes : Nat) (m : Ledger) : Made (Buffer α width) :=
  match roomFor? bytes with
  | none => (.error (.outOfMemory .overflow), m)
  | some room =>
    let o := Loan.grow {} room m
    match o.fault with
    | none => (.ok { loan := o.value }, o.ledger)
    | some fault => (.error fault, o.ledger)

/-- A new buffer is a new loan of its room. -/
theorem new_eq {bytes room : Nat} (h : roomFor? bytes = some room) (m : Ledger) :
    (new bytes m : Made (Buffer α width)) =
      (Loan.grow {} room m).elim (fun loan m => (.ok { loan }, m))
        fun _ m fault => (.error fault, m) := by
  simp only [new, h]
  rcases Loan.grow {} room m with ⟨loan, m', _ | fault⟩ <;> rfl

/-- Raises the granted room to `room` by one request for the difference; refused, it changes
nothing. -/
def growTo (b : Buffer α width) (room : Nat) (m : Ledger) : Outcome (Buffer α width) :=
  (b.loan.grow (room - b.room) m).map fun loan => { b with loan }

/-- Makes room for `bytes` more bytes, and no more than that. -/
def reserve (b : Buffer α width) (bytes : Nat) (m : Ledger) : Outcome (Buffer α width) :=
  if b.byteLength + bytes ≤ b.room then .done b m
  else
    match roomFor? (b.byteLength + bytes) with
    | none => .stopped b m (.outOfMemory .overflow)
    | some room => b.growTo room m

/-- Makes room for `bytes` bytes that are about to be added. -/
def ensure (b : Buffer α width) (bytes : Nat) (m : Ledger) : Outcome (Buffer α width) :=
  if b.byteLength + bytes ≤ b.room then .done b m
  else
    match roomFor? (b.byteLength + bytes) with
    | none => .stopped b m (.outOfMemory .overflow)
    | some room => b.growTo (max room (min (2 * b.room) maxRoom)) m

/-- Adds items at the end, after making room for them; if the ledger refuses the room, none is
added. -/
def append (b : Buffer α width) (items : List α) (m : Ledger) : Outcome (Buffer α width) :=
  (b.ensure (width * items.length) m).andThen fun b m =>
    .done { b with items := b.items ++ items } m

/-- Adds one item at the end. -/
def push (b : Buffer α width) (item : α) (m : Ledger) : Outcome (Buffer α width) :=
  b.append [item] m

/-- Drops the items from number `n` on.  The granted room stays. -/
def truncate (b : Buffer α width) (n : Nat) : Buffer α width :=
  { b with items := b.items.take n }

/-- Makes the buffer `n` items long: drops items, or adds copies of `item`. -/
def resize (b : Buffer α width) (n : Nat) (item : α) (m : Ledger) : Outcome (Buffer α width) :=
  if n ≤ b.items.length then .done (b.truncate n) m
  else
    let more := n - b.items.length
    (b.ensure (width * more) m).andThen fun b m =>
      .done { b with items := b.items ++ List.replicate more item } m

/-- Changes the item at a place, if there is one. -/
def modify (b : Buffer α width) (i : Nat) (change : α → α) : Buffer α width :=
  { b with items := b.items.modify i change }

/-- Changes the last item, if there is one. -/
def modifyLast (b : Buffer α width) (change : α → α) : Buffer α width :=
  b.modify (b.items.length - 1) change

/-- Writes over the item at a place; there is none past the end. -/
def set? (b : Buffer α width) (i : Nat) (item : α) : Option (Buffer α width) :=
  if i < b.items.length then some (b.modify i fun _ => item) else none

/-- Asking for more room leaves the items of a buffer alone, whatever the ledger answers. -/
theorem items_growTo (b : Buffer α width) (room : Nat) (m : Ledger) :
    (b.growTo room m).value.items = b.items := rfl

/-- Making room for an addition leaves the items of a buffer alone, whatever the ledger answers. -/
theorem items_ensure (b : Buffer α width) (bytes : Nat) (m : Ledger) :
    (b.ensure bytes m).value.items = b.items := by
  unfold ensure
  split
  · rfl
  · split <;> simp [items_growTo]

/-- Reserving leaves the items of a buffer alone, whatever the ledger answers. -/
theorem items_reserve (b : Buffer α width) (bytes : Nat) (m : Ledger) :
    (b.reserve bytes m).value.items = b.items := by
  unfold reserve
  split
  · rfl
  · split <;> simp [items_growTo]

/-- An addition that is granted its room leaves the items of the buffer followed by the new ones. -/
theorem items_append {b : Buffer α width} {items : List α} {m : Ledger}
    (h : (b.append items m).fault = none) :
    (b.append items m).value.items = b.items ++ items := by
  unfold append at h ⊢
  obtain ⟨hroom, -⟩ := Outcome.fault_andThen_eq_none_iff.1 h
  rw [Outcome.andThen_of_none hroom]
  simp [items_ensure]

/-- A refused addition changes nothing but the ledger's list of requests. -/
theorem items_append_of_fault {b : Buffer α width} {items : List α} {m : Ledger} {f : Fault}
    (h : (b.append items m).fault = some f) : (b.append items m).value.items = b.items := by
  unfold append at h ⊢
  cases hroom : (b.ensure (width * items.length) m).fault with
  | none => rw [Outcome.andThen_of_none hroom] at h; simp at h
  | some g => rw [Outcome.andThen_of_some hroom, items_ensure]

end Buffer

/-- Ends of slots, one after the other behind a leading zero, with the last of them kept next to
them for comparisons. -/
structure Offsets where
  ends : Buffer Int 4 := {}
  /-- The end of the last slot. -/
  last : Int := 0
deriving DecidableEq

namespace Offsets

/-- The largest offset. -/
def maxOffset : Nat := 0x7fffffff

/-- The offset zero, with room for `capacity` slots. -/
def new (capacity : Nat) (m : Ledger) : Made Offsets :=
  match Buffer.new (4 * (capacity + 1)) m with
  | (.error fault, m) => (.error fault, m)
  | (.ok ends, m) =>
    let o := ends.push 0 m
    match o.fault with
    | none => (.ok { ends := o.value }, o.ledger)
    | some fault => (.error fault, o.ledger.giveBack o.value.room)

/-- New offsets are a new buffer with the offset zero in it. -/
theorem new_eq (capacity : Nat) (m : Ledger) :
    new capacity m = (Buffer.new (4 * (capacity + 1)) m).chain 0 fun ends m =>
      (ends.push 0 m).make Buffer.room fun ends m => (.ok { ends }, m) := by
  rcases hends : Buffer.new (4 * (capacity + 1)) m with ⟨_ | ends, m'⟩
  · simp only [new, hends, Made.chain, Made.elim, Ledger.giveBack_zero]
  · rcases hpush : ends.push 0 m' with ⟨pushed, m'', _ | fault⟩ <;>
      simp only [new, hends, Made.chain, Made.elim, hpush, Outcome.make, Outcome.elim]

/-- How many slots there are. -/
def length (o : Offsets) : Nat := o.ends.items.length - 1

/-- Where the next slot starts, which is where the last one ends, as a size. -/
def lastEnd (o : Offsets) : Nat := o.last.toNat

/-- Bytes that the offsets take. -/
def byteLength (o : Offsets) : Nat := o.ends.byteLength

/-- Bytes that were granted. -/
def room (o : Offsets) : Nat := o.ends.room

/-- Makes room for the ends of `n` more slots, without ending any. -/
def reserve (o : Offsets) (n : Nat) (m : Ledger) : Outcome Offsets :=
  match Size.mul? n 4 with
  | none => .stopped o m (.outOfMemory .overflow)
  | some bytes => (o.ends.reserve bytes m).map fun ends => { o with ends }

/-- Ends the current slot at `stop`. An end beyond 32 bits or before the last one is refused, and so
is one without memory for it; then nothing changes. -/
def append (o : Offsets) (stop : Nat) (m : Ledger) : Outcome Offsets :=
  if maxOffset < stop then .stopped o m (.invalidArgument (.offsetTooLarge stop))
  else if (stop : Int) < o.last then .stopped o m (.invalidState (.offsetDescends stop o.last))
  else
    ((o.ends.push stop m).map fun ends => { o with ends }).andThen fun o m =>
      .done { o with last := stop } m

/-- Ends the current slot `n` items after its start.  Where the slot ends is added up
unchecked, before anything is looked at. -/
def appendLength (o : Offsets) (n : Nat) (m : Ledger) : Outcome Offsets :=
  match Size.add? o.lastEnd n with
  | none => .stopped o m (.brokenOff .sumTooLarge)
  | some stop => o.append stop m

/-- As long as the end is a size, the slot ends there. -/
theorem appendLength_eq {o : Offsets} {n : Nat} (hsize : o.lastEnd + n ≤ Size.max) (m : Ledger) :
    o.appendLength n m = o.append (o.lastEnd + n) m := by
  rw [appendLength, Size.add?_of_le hsize]

end Offsets

end Columnar
