import Mathlib.Data.List.Basic
import Columnar.Proofs.Conservation
import Columnar.Words
/-!
# Buffers grow by what they are granted

Whatever is done to a buffer, whatever sizes are asked for and wherever the ledger
refuses: the room is in whole steps, holds the content, never shrinks, and is just what
was granted.  An operation that fails leaves no trace.  All sizes on the way are words,
though most of the arithmetic is not checked.

The invariant is `Buffer.Bounded`.  `Buffer.Makes` is what an operation does to the room,
with one rule for each way to build one.
-/

namespace Columnar

/-- A difference that is a size is found. -/
theorem Size.sub?_of_le {a b : Nat} (h : b ≤ a) : Size.sub? a b = some (a - b) :=
  if_pos h

/-- A loan whose new size is a word is computed in words. -/
theorem Loan.growWords?_eq {loan : Loan} {n : Nat} (h : loan.size + n ≤ Size.max) (m : Ledger) :
    loan.growWords? n m = some (loan.grow n m) := by
  unfold growWords? grow
  split
  · rfl
  · rw [Size.add?_of_le h]
    rcases m.ask n with ⟨_ | refusal, m'⟩ <;> rfl

namespace Buffer

/-- Computed in words, the room for a number of bytes is the same as in numbers. -/
theorem roomForWords?_eq (n : Nat) : roomForWords? n = roomFor? n := by
  have hmax := maxRoom_spec.2
  by_cases hn : n % step = 0
  · have hrounded : (n + (step - 1)) / step * step = n := by
      simp only [step] at hn ⊢
      omega
    rw [roomForWords?, roomFor?, if_pos hn, hrounded]
    by_cases hle : n ≤ maxRoom <;> simp [Option.filter, hle]
  · have hrounded : (n + (step - 1)) / step * step = n + (step - n % step) := by
      simp only [step] at hn ⊢
      omega
    rw [roomForWords?, roomFor?, if_neg hn, hrounded, Size.add?]
    -- A sum that is no size is more room than a buffer can have as well.
    by_cases hsize : n + (step - n % step) ≤ Size.max
    · rw [if_pos hsize]
      by_cases hle : n + (step - n % step) ≤ maxRoom <;> simp [Option.filter, hle]
    · rw [if_neg hsize, if_neg (by omega), Option.filter_none]

variable {b : Buffer UInt8 1}

/-- What is lacking can be computed in words where the room is to become larger than
the room and the content. -/
theorem Bounded.growToWords?_eq (h : b.Bounded) {room : Nat} (hge : b.room ≤ room)
    (hle : room ≤ maxRoom) (m : Ledger) : b.growToWords? room m = some (b.growTo room m) := by
  have hmax := maxRoom_spec
  have hloan : b.loan.size + (room - b.room) ≤ Size.max := by
    rw [show b.loan.size = b.room from rfl]
    omega
  rw [growToWords?, Size.sub?_of_le hge, Option.bind_some, Loan.growWords?_eq hloan,
    Option.bind_some, Size.sub?_of_le (Nat.le_trans h.fits hge)]
  unfold Buffer.growTo
  rcases b.loan.grow (room - b.room) m with ⟨loan, m', _ | fault⟩ <;> rfl

/-- No more is needed than was computed for a buffer that is not large enough. -/
private theorem Bounded.add?_eq (h : b.Bounded) (bytes : Nat) :
    Size.add? b.byteLength bytes = some (b.byteLength + bytes) ∨
      Size.add? b.byteLength bytes = none ∧ b.room < b.byteLength + bytes ∧
        roomFor? (b.byteLength + bytes) = none := by
  have hmax := maxRoom_spec
  have hroom := h.room_le
  by_cases hfits : b.byteLength + bytes ≤ Size.max
  · exact .inl (Size.add?_of_le hfits)
  · refine .inr ⟨if_neg hfits, by omega, roomFor?_eq_none_iff.2 (by omega)⟩

/-- Reserving bytes in a bounded buffer can be computed in words, and comes to the same. -/
theorem Bounded.reserveWords?_eq (h : b.Bounded) (bytes : Nat) (m : Ledger) :
    b.reserveWords? bytes m = some (b.reserve bytes m) := by
  unfold reserveWords? Buffer.reserve
  rcases h.add?_eq bytes with hsum | ⟨hsum, hfull, hnone⟩
  · rw [hsum]
    dsimp only
    by_cases hfits : b.byteLength + bytes ≤ b.room
    · rw [if_pos hfits, if_pos hfits]
    · rw [if_neg hfits, if_neg hfits, roomForWords?_eq]
      cases hroom : roomFor? (b.byteLength + bytes) with
      | none => rfl
      | some room =>
        obtain ⟨hge, -, -, hle⟩ := roomFor?_spec hroom
        exact h.growToWords?_eq (by omega) hle m
  · rw [hsum, if_neg (Nat.not_le.2 hfull), hnone]

/-- Making room for an addition to a bounded buffer can be computed in words, and comes to the same.
-/
theorem Bounded.ensureWords?_eq (h : b.Bounded) (bytes : Nat) (m : Ledger) :
    b.ensureWords? bytes m = some (b.ensure bytes m) := by
  have hmax := maxRoom_spec
  have hle := h.room_le
  unfold ensureWords? Buffer.ensure
  rcases h.add?_eq bytes with hsum | ⟨hsum, hfull, hnone⟩
  · rw [hsum]
    dsimp only
    by_cases hfits : b.byteLength + bytes ≤ b.room
    · rw [if_pos hfits, if_pos hfits]
    · rw [if_neg hfits, if_neg hfits, roomForWords?_eq]
      cases hroom : roomFor? (b.byteLength + bytes) with
      | none => rfl
      | some room =>
        obtain ⟨hge, -, -, hle'⟩ := roomFor?_spec hroom
        have hdouble : Size.mul? b.room 2 = some (2 * b.room) := by
          rw [Size.mul?, if_pos (by omega), Nat.mul_comm]
        dsimp only
        rw [hdouble]
        exact h.growToWords?_eq (by omega) (by omega) m
  · rw [hsum, if_neg (Nat.not_le.2 hfull), hnone]

/-- Adding bytes to a bounded buffer can be computed in words, and comes to the same. -/
theorem Bounded.appendWords?_eq (h : b.Bounded) (bytes : List UInt8) (m : Ledger) :
    b.appendWords? bytes m = some (b.append bytes m) := by
  rw [appendWords?, h.ensureWords?_eq, Buffer.append, Nat.one_mul]
  rfl

/-- Changing the length of a bounded buffer can be computed in words, and comes to the same. -/
theorem Bounded.resizeWords?_eq (h : b.Bounded) (n : Nat) (byte : UInt8) (m : Ledger) :
    b.resizeWords? n byte m = some (b.resize n byte m) := by
  unfold resizeWords? Buffer.resize
  split
  · rfl
  · rename_i hlt
    rw [Size.sub?_of_le (by omega), Option.bind_some, h.appendWords?_eq, Buffer.append,
      List.length_replicate]

/-- Making a buffer can be computed in words, for any capacity, and comes to the same. -/
theorem newWords?_eq (bytes : Nat) (m : Ledger) : newWords? bytes m = some (new bytes m) := by
  have hmax := maxRoom_spec
  rw [newWords?, roomForWords?_eq]
  cases hroom : roomFor? bytes with
  | none => rw [new, hroom]
  | some room =>
    obtain ⟨-, -, -, hle⟩ := roomFor?_spec hroom
    have hloan : ({} : Loan).size + room ≤ Size.max := by
      show 0 + room ≤ Size.max
      omega
    dsimp only
    rw [new_eq hroom, Loan.growWords?_eq hloan, Option.map_some]

end Buffer

/-- A loan grows by what is lent for it. -/
theorem Loan.lent_grow (loan : Loan) (n : Nat) (m : Ledger) :
    (loan.grow n m).ledger.lent + loan.size = m.lent + (loan.grow n m).value.size := by
  unfold grow
  by_cases hn : n = 0
  · rw [if_pos hn]
    rfl
  · rw [if_neg hn]
    rcases hasked : m.ask n with ⟨_ | refusal, m'⟩
    · have hlent := Ledger.lent_ask_of_none (congrArg Prod.fst hasked)
      rw [hasked] at hlent
      show m'.lent + loan.size = m.lent + (loan.size + n)
      dsimp only at hlent
      omega
    · have hlent := Ledger.lent_ask_of_some (congrArg Prod.fst hasked)
      rw [hasked] at hlent
      exact congrArg (· + loan.size) hlent

namespace Buffer

variable {α : Type} {width : Nat} {b : Buffer α width} {m : Ledger}

/-- The room does not shrink, and the ledger lends what is added to it. -/
structure Makes (b : Buffer α width) (m : Ledger) (o : Outcome (Buffer α width)) : Prop where
  grows : b.room ≤ o.value.room
  charged : o.ledger.lent + b.room = m.lent + o.value.room

/-- Nothing is lent for the room that there is. -/
theorem makes_done (b b' : Buffer α width) (h : b'.room = b.room) (m : Ledger) :
    Makes b m (.done b' m) :=
  ⟨Nat.le_of_eq h.symm, congrArg (m.lent + ·) h.symm⟩

/-- Whoever stops at once leaves the room as it is. -/
theorem makes_stopped (b : Buffer α width) (m : Ledger) (fault : Fault) :
    Makes b m (.stopped b m fault) :=
  ⟨Nat.le_refl _, rfl⟩

/-- The room grows up to the room that is asked for, or not at all. -/
theorem makes_growTo (b : Buffer α width) (room : Nat) (m : Ledger) :
    Makes b m (b.growTo room m) := by
  refine ⟨?_, b.loan.lent_grow (room - b.room) m⟩
  cases hfault : (b.loan.grow (room - b.room) m).fault with
  | none =>
    rw [growTo, Outcome.value_map, Loan.value_grow hfault]
    exact Nat.le_add_right ..
  | some fault =>
    have hsame : (b.growTo room m).value = b := by
      rw [growTo, Outcome.value_map, Loan.value_grow_of_fault hfault]
    exact Nat.le_of_eq (congrArg Buffer.room hsame).symm

theorem makes_reserve (b : Buffer α width) (bytes : Nat) (m : Ledger) :
    Makes b m (b.reserve bytes m) := by
  unfold reserve
  split
  · exact makes_done b b rfl m
  · split
    · exact makes_stopped b m _
    · exact makes_growTo b _ m

theorem makes_ensure (b : Buffer α width) (bytes : Nat) (m : Ledger) :
    Makes b m (b.ensure bytes m) := by
  unfold ensure
  split
  · exact makes_done b b rfl m
  · split
    · exact makes_stopped b m _
    · exact makes_growTo b _ m

/-- Where room for an addition is made at all, there is twice as much as before, as far
as a buffer can have that. -/
theorem doubled_ensure (b : Buffer α width) (bytes : Nat) (m : Ledger) :
    (b.ensure bytes m).value.room = b.room ∨
      min (2 * b.room) maxRoom ≤ (b.ensure bytes m).value.room := by
  unfold ensure
  split
  · exact .inl rfl
  · split
    · exact .inl rfl
    · rename_i room hroom
      obtain ⟨hge, -⟩ := roomFor?_spec hroom
      cases hfault : (b.loan.grow (max room (min (2 * b.room) maxRoom) - b.room) m).fault with
      | some fault =>
        left
        rw [growTo, Outcome.value_map, Loan.value_grow_of_fault hfault]
      | none =>
        right
        rw [growTo, Outcome.value_map, Loan.value_grow hfault]
        show _ ≤ b.room + (max room (min (2 * b.room) maxRoom) - b.room)
        omega

/-- Adding deals with the ledger only when it makes room. -/
theorem append_eq_ensure (b : Buffer α width) (items : List α) (m : Ledger) :
    (b.append items m).value.room = (b.ensure (width * items.length) m).value.room ∧
      (b.append items m).ledger = (b.ensure (width * items.length) m).ledger := by
  unfold append
  cases hfault : (b.ensure (width * items.length) m).fault with
  | none =>
    rw [Outcome.andThen_of_none hfault]
    exact ⟨rfl, rfl⟩
  | some fault =>
    rw [Outcome.andThen_of_some hfault]
    exact ⟨rfl, rfl⟩

theorem makes_append (b : Buffer α width) (items : List α) (m : Ledger) :
    Makes b m (b.append items m) := by
  obtain ⟨hroom, hledger⟩ := b.append_eq_ensure items m
  obtain ⟨hgrows, hcharged⟩ := b.makes_ensure (width * items.length) m
  exact ⟨by rwa [hroom], by rwa [hroom, hledger]⟩

/-- A buffer is made longer by adding copies of the item. -/
theorem resize_of_lt {n : Nat} (h : b.items.length < n) (item : α) (m : Ledger) :
    b.resize n item m = b.append (List.replicate (n - b.items.length) item) m := by
  rw [resize, if_neg (Nat.not_le.2 h), append, List.length_replicate]

end Buffer

namespace BufferOp

variable {b : Buffer UInt8 1}

theorem makes_run (op : BufferOp) (b : Buffer UInt8 1) (m : Ledger) :
    Buffer.Makes b m (op.run b m) := by
  cases op with
  | reserve n => exact b.makes_reserve n m
  | append bytes => exact b.makes_append bytes m
  | resize n byte =>
    rw [run]
    rcases Nat.lt_or_ge b.items.length n with hlt | hle
    · rw [Buffer.resize_of_lt hlt]
      exact b.makes_append _ m
    · rw [Buffer.resize, if_pos hle]
      exact Buffer.makes_done b (b.truncate n) rfl m
  | truncate n => exact Buffer.makes_done b (b.truncate n) rfl m
  | overwrite place byte =>
    exact Buffer.makes_done b (b.modify place fun _ => byte) rfl m

theorem doubled_run {op : BufferOp} (hop : op.adds = true) (b : Buffer UInt8 1) (m : Ledger) :
    (op.run b m).value.room = b.room ∨
      min (2 * b.room) Buffer.maxRoom ≤ (op.run b m).value.room := by
  have happend : ∀ bytes, (b.append bytes m).value.room = b.room ∨
      min (2 * b.room) Buffer.maxRoom ≤ (b.append bytes m).value.room := by
    intro bytes
    rw [(b.append_eq_ensure bytes m).1]
    exact b.doubled_ensure _ m
  cases op with
  | append bytes => exact happend bytes
  | resize n byte =>
    rw [run]
    rcases Nat.lt_or_ge b.items.length n with hlt | hle
    · rw [Buffer.resize_of_lt hlt]
      exact happend _
    · rw [Buffer.resize, if_pos hle]
      exact .inl rfl
  | reserve n => exact nomatch hop
  | truncate n => exact nomatch hop
  | overwrite place byte => exact nomatch hop

theorem runWords?_eq (op : BufferOp) (h : b.Bounded) (m : Ledger) :
    op.runWords? b m = some (op.run b m) := by
  cases op with
  | reserve n => exact h.reserveWords?_eq n m
  | append bytes => exact h.appendWords?_eq bytes m
  | resize n byte => exact h.resizeWords?_eq n byte m
  | truncate n => rfl
  | overwrite place byte => rfl

/-- A buffer that is made longer is filled up, one that is made shorter is cut off. -/
theorem items_resize (h : b.Bounded) (n : Nat) (byte : UInt8) (m : Ledger) :
    (b.resize n byte m).Ensures fun b' => b'.items = (resize n byte).edit b.items := by
  rw [edit, List.take_append, List.take_replicate]
  by_cases hle : n ≤ b.items.length
  · have hmore : n - b.items.length = 0 := by omega
    rw [Buffer.resize, if_pos hle, hmore, Nat.zero_min, List.replicate_zero, List.append_nil]
    exact Outcome.ensures_done rfl
  · rw [List.take_of_length_le (by omega), Nat.min_eq_left (Nat.sub_le ..)]
    exact (h.resize (by omega) byte m).imp fun _ hb' => hb'.2

/-- An operation that comes to its end does to the bytes what it is meant to do. -/
theorem ensures_edit (op : BufferOp) (h : b.Bounded) (m : Ledger) :
    (op.run b m).Ensures fun b' => b'.items = op.edit b.items := by
  cases op with
  | reserve n => exact fun _ => b.items_reserve n m
  | append bytes => exact fun hok => Buffer.items_append hok
  | resize n byte => exact items_resize h n byte m
  | truncate n => exact Outcome.ensures_done rfl
  | overwrite place byte => exact Outcome.ensures_done (List.set_eq_modify byte place b.items).symm

/-- What one operation on a buffer comes to: it makes of the bytes what it is meant to, or changes
nothing and is lent nothing. -/
structure Behaves (op : BufferOp) (b : Buffer UInt8 1) (m : Ledger) : Prop where
  /-- All sizes on the way are words. -/
  words : op.runWords? b m = some (op.run b m)
  /-- The room of a buffer does not shrink in any step, done or not. -/
  grows : b.room ≤ (op.run b m).value.room
  /-- The ledger lends just what is added to the room. -/
  charged : (op.run b m).ledger.lent = m.lent + ((op.run b m).value.room - b.room)
  /-- An addition that makes room at least doubles it, as far as a buffer can have that. -/
  doubled : op.adds = true → (op.run b m).value.room ≠ b.room →
    min (2 * b.room) Buffer.maxRoom ≤ (op.run b m).value.room
  /-- After success the bytes are what the operation is to make of them. -/
  edited : (op.run b m).fault = none → (op.run b m).value.items = op.edit b.items
  /-- After a fault all is as it was, and nothing was lent. -/
  traceless (fault : Fault) : (op.run b m).fault = some fault →
    (op.run b m).value = b ∧ (op.run b m).ledger.lent = m.lent

theorem behaves (op : BufferOp) (h : b.Bounded) (m : Ledger) : op.Behaves b m := by
  obtain ⟨hgrows, hcharged⟩ := op.makes_run b m
  constructor
  · exact op.runWords?_eq h m
  · exact hgrows
  · omega
  · exact fun hop hroom => (doubled_run hop b m).resolve_left hroom
  · exact op.ensures_edit h m
  · intro fault hfault
    have hvalue := (deal_run h op).failure hfault
    rw [hvalue] at hcharged
    exact ⟨hvalue, by omega⟩

/-- A buffer whose bytes fit their room stays like that. -/
theorem bounded_run (op : BufferOp) (h : b.Bounded) (m : Ledger) : (op.run b m).value.Bounded :=
  ((op.deals_run b h).trail 0 m).1

/-- The last step grants last. -/
theorem granted_append (steps : List (Step BufferOp (Buffer UInt8 1)))
    (s : Step BufferOp (Buffer UInt8 1)) :
    granted (steps ++ [s]) =
      granted steps + ((s.outcome run).ledger.lent - s.ledger.lent) := by
  induction steps with
  | nil => exact Nat.add_comm ..
  | cons first steps ih =>
    rw [List.cons_append, granted, granted, ih]
    omega

/-- A last step that comes to its end edits last. -/
theorem editAll_append_of_none (steps : List (Step BufferOp (Buffer UInt8 1)))
    {s : Step BufferOp (Buffer UInt8 1)} (h : (s.outcome run).fault = none)
    (content : List UInt8) :
    editAll (steps ++ [s]) content = s.op.edit (editAll steps content) :=
  effectOf_append_of_none steps content h

/-- A last step that fails edits nothing. -/
theorem editAll_append_of_some (steps : List (Step BufferOp (Buffer UInt8 1)))
    {s : Step BufferOp (Buffer UInt8 1)} {fault : Fault} (h : (s.outcome run).fault = some fault)
    (content : List UInt8) : editAll (steps ++ [s]) content = editAll steps content :=
  effectOf_append_of_some steps content h

end BufferOp

namespace Buffer

/-- What a buffer has come to after steps, when so many bytes were granted to make it. -/
structure Grown (first : Nat) (steps : List (Step BufferOp (Buffer UInt8 1)))
    (b : Buffer UInt8 1) : Prop where
  /-- The room is in whole steps and no more than a buffer can have, and holds the
  bytes. -/
  bounded : b.Bounded
  /-- The room of the buffer is just what was granted to it, from its making on. -/
  room_eq : b.room = first + BufferOp.granted steps
  /-- The bytes are what the operations that came to their end are to make of none. -/
  items_eq : b.items = BufferOp.editAll steps []
  /-- In each step the operation came to what it is meant to come to. -/
  behaves : ∀ s ∈ steps, s.op.Behaves s.before s.ledger

/-- A buffer that has grown is grown after one more step. -/
theorem Grown.step {first : Nat} {steps : List (Step BufferOp (Buffer UInt8 1))}
    {b : Buffer UInt8 1} (h : b.Grown first steps) (op : BufferOp) (m : Ledger) :
    (op.run b m).value.Grown first (steps ++ [⟨op, b, m⟩]) := by
  have hop := op.behaves h.bounded m
  constructor
  · exact op.bounded_run h.bounded m
  · have hgrows := hop.grows
    have hlent : (Step.outcome BufferOp.run ⟨op, b, m⟩).ledger.lent - m.lent =
        (op.run b m).value.room - b.room := by
      rw [Step.outcome, hop.charged, Nat.add_sub_cancel_left]
    rw [BufferOp.granted_append, hlent, ← Nat.add_assoc, ← h.room_eq]
    omega
  · cases hfault : (op.run b m).fault with
    | none =>
      rw [BufferOp.editAll_append_of_none steps (s := ⟨op, b, m⟩) hfault, ← h.items_eq]
      exact hop.edited hfault
    | some fault =>
      rw [BufferOp.editAll_append_of_some steps (s := ⟨op, b, m⟩) hfault, ← h.items_eq,
        (hop.traceless fault hfault).1]
  · exact List.forall_mem_append.2 ⟨h.behaves, List.forall_mem_singleton.2 hop⟩

/-- Any history of operations keeps a buffer grown by what it is granted. -/
theorem Grown.of_history {first : Nat} {start b : Buffer UInt8 1}
    {steps : List (Step BufferOp (Buffer UInt8 1))} (hstart : start.Grown first [])
    (h : History BufferOp.run start steps b) : b.Grown first steps := by
  induction h with
  | here => exact hstart
  | step op m _ ih => exact ih.step op m

/-- Making a buffer lends the room that it has then. -/
theorem lent_new (bytes : Nat) (m : Ledger) :
    (new bytes m : Made (Buffer UInt8 1)).2.lent =
      m.lent + Yield.room (new bytes m : Made (Buffer UInt8 1)).1 :=
  ((deal_new bytes).lent_add (Nat.zero_le m.lent)).1

/-- A new buffer has grown by what was lent for it. -/
theorem grown_new {bytes : Nat} {m m' : Ledger} {b : Buffer UInt8 1}
    (h : new bytes m = (.ok b, m')) : b.Grown (m'.lent - m.lent) [] := by
  obtain ⟨hbounded, hitems⟩ := bounded_new h
  refine ⟨hbounded, ?_, hitems, nofun⟩
  have hlent := lent_new bytes m
  rw [h] at hlent
  have hroom : m'.lent = m.lent + b.room := hlent
  rw [BufferOp.granted]
  omega

/-- **A buffer grows by what it is granted.**  Making one is computed in words, and a
buffer that is refused is lent nothing.  Whatever is done to one that is made, in words
of any size, and wherever the ledger refuses: its room is in whole steps, holds the
bytes, stays within what a buffer can have and is just what was granted for it.  Its
bytes are what the operations that came to their end make of none, one after the other.
No operation shrinks the room or computes a size that is no word, additions that make
room double it at least, and an operation that fails changes nothing and is lent
nothing. -/
theorem grown_of_history :
    (∀ (bytes : Nat) (m : Ledger), newWords? bytes m = some (new bytes m) ∧
      ∀ fault m', (new bytes m : Made (Buffer UInt8 1)) = (.error fault, m') →
        m'.lent = m.lent) ∧
    ∀ {bytes : Nat} {m m' : Ledger} {start b : Buffer UInt8 1}
      {steps : List (Step BufferOp (Buffer UInt8 1))}, new bytes m = (.ok start, m') →
      History BufferOp.run start steps b → b.Grown (m'.lent - m.lent) steps := by
  refine ⟨fun bytes m => ⟨newWords?_eq bytes m, fun fault m' h => ?_⟩, ?_⟩
  · have hlent := lent_new bytes m
    rw [h] at hlent
    exact hlent
  · intro bytes m m' start b steps hnew hhistory
    exact (grown_new hnew).of_history hhistory

/-- A byte is added.  Then 64 more find no memory, and no memory can have as many as
there are sizes.  At last the buffer is filled up to three bytes, the first is written
over and the last is dropped. -/
private def refusedCalls : List (BufferOp × Ledger) :=
  [(.append [1], {}), (.append (List.replicate 64 2), { limit := some 100, lent := 64 }),
    (.reserve Size.max, {}), (.resize 3 7, { limit := some 0 }), (.overwrite 0 9, {}),
    (.truncate 2, {})]

/-- Of six calls on a new buffer the second finds no memory, and the third asks for more than any
memory has. At the end two bytes are left, in the first step of room. -/
theorem grown_of_refused :
    ∃ m', new 0 {} = (.ok ({} : Buffer UInt8 1), m') ∧
      (leftBy BufferOp.run {} refusedCalls).Grown (m'.lent - ({} : Ledger).lent)
        (stepsOf BufferOp.run {} refusedCalls) ∧
      (leftBy BufferOp.run ({} : Buffer UInt8 1) refusedCalls).items = [9, 7] ∧
      (leftBy BufferOp.run ({} : Buffer UInt8 1) refusedCalls).room = 64 ∧
      (stepsOf BufferOp.run ({} : Buffer UInt8 1) refusedCalls).map
        (fun s => (s.outcome BufferOp.run).succeeded) = [true, false, false, true, true, true] := by
  have hnew : new 0 {} = (.ok ({} : Buffer UInt8 1), (new 0 {} : Made (Buffer UInt8 1)).2) := rfl
  exact ⟨_, hnew, grown_of_history.2 hnew (history_of_calls _ _), by decide +kernel,
    by decide +kernel, by decide +kernel⟩

end Buffer

end Columnar
