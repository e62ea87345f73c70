import Columnar.Buffer
import Columnar.Chunk.Basic
/-!
# Buffers and offsets hold what was added

`Buffer.Bounded` says that the items of a buffer fit into the room that was granted for them,
and that this room is one that a buffer can have.  A new buffer is bounded, and every operation
keeps it so, whether the ledger grants or refuses.  After success, adding items adds just these
items, and there are never more of them than the largest room holds.

`Offsets.Holds` ties offsets to the lists that lie in the slots: the offsets are the sums of
the lengths, from zero on, and the last of them is remembered.  Ending a slot where its list
ends keeps that up, and a slot that ends where it started holds the empty list.  A slot is only
ended at an offset that is a signed 32 bit word and does not lie before the last one.
-/

namespace Columnar

namespace Buffer

variable {α : Type} {width : Nat}

/-- The items fit into the granted room, which is in whole steps and no more
than a buffer can have. -/
structure Bounded (b : Buffer α width) : Prop where
  fits : b.byteLength ≤ b.room
  room_le : b.room ≤ maxRoom
  steps : b.room % step = 0

/-- The largest room is in whole steps and within 63 bits. -/
theorem maxRoom_spec : maxRoom % step = 0 ∧ maxRoom ≤ Size.max / 2 := by
  decide

/-- A buffer can have room for no more bytes than the largest room. -/
theorem roomFor?_eq_none_iff {n : Nat} : roomFor? n = none ↔ maxRoom < n := by
  have hmax := maxRoom_spec.1
  unfold roomFor?
  dsimp only
  split
  · rename_i hle
    refine iff_of_false nofun ?_
    simp only [step] at hle
    omega
  · rename_i hgt
    refine iff_of_true rfl ?_
    simp only [step] at hgt hmax
    omega

/-- The items of a bounded buffer take no more bytes than the largest room has. -/
theorem Bounded.byteLength_le {b : Buffer α width} (h : b.Bounded) :
    width * b.items.length ≤ maxRoom :=
  Nat.le_trans h.fits h.room_le

/-- A bounded buffer that loses items and keeps its room is bounded. -/
theorem Bounded.shrink {b : Buffer α width} (h : b.Bounded) {items : List α}
    (hle : items.length ≤ b.items.length) : ({ b with items } : Buffer α width).Bounded := by
  refine ⟨?_, h.room_le, h.steps⟩
  exact Nat.le_trans (Nat.mul_le_mul_left width hle) h.fits

/-- Growing keeps the room within bounds, and gets all the room after success. -/
theorem Bounded.growTo {b : Buffer α width} (h : b.Bounded) {room : Nat} (m : Ledger)
    (hge : b.room ≤ room) (hle : room ≤ maxRoom) (hsteps : room % step = 0) :
    (b.growTo room m).value.Bounded ∧
      (b.growTo room m).Ensures fun b' => b'.room = room := by
  cases hfault : (b.loan.grow (room - b.room) m).fault with
  | none =>
    have hvalue : (b.growTo room m).value = { b with loan := ⟨room⟩ } := by
      have hsum : b.loan.size + (room - b.room) = room := Nat.add_sub_cancel' hge
      simp [Buffer.growTo, Loan.value_grow hfault, hsum]
    rw [hvalue, Outcome.Ensures, hvalue]
    exact ⟨⟨Nat.le_trans h.fits hge, hle, hsteps⟩, fun _ => rfl⟩
  | some fault =>
    have hvalue : (b.growTo room m).value = b := by
      simp [Buffer.growTo, Loan.value_grow_of_fault hfault]
    refine ⟨by rw [hvalue]; exact h, ?_⟩
    intro hok
    simp [Buffer.growTo, hfault] at hok

/-- Reserving keeps a buffer bounded, whether the ledger grants the room or refuses it. -/
theorem Bounded.reserve {b : Buffer α width} (h : b.Bounded) (bytes : Nat) (m : Ledger) :
    (b.reserve bytes m).value.Bounded := by
  unfold Buffer.reserve
  split
  · exact h
  · rename_i hfull
    split
    · exact h
    · rename_i room hroom
      obtain ⟨hge, -, hsteps, hle⟩ := roomFor?_spec hroom
      exact (h.growTo m (by omega) hle hsteps).1

/-- Twice the room, within the largest, is in whole steps again. -/
theorem Bounded.doubled {b : Buffer α width} (h : b.Bounded) {room : Nat}
    (hsteps : room % step = 0) : (max room (min (2 * b.room) maxRoom)) % step = 0 := by
  have hmax := maxRoom_spec.1
  have hroom := h.steps
  simp only [step] at *
  omega

/-- Making room keeps a buffer bounded, and the bytes fit after success. -/
theorem Bounded.ensure {b : Buffer α width} (h : b.Bounded) (bytes : Nat) (m : Ledger) :
    (b.ensure bytes m).value.Bounded ∧
      (b.ensure bytes m).Ensures fun b' => b.byteLength + bytes ≤ b'.room := by
  unfold Buffer.ensure
  split
  · rename_i hfits
    exact ⟨h, Outcome.ensures_done hfits⟩
  · rename_i hfull
    split
    · exact ⟨h, Outcome.ensures_stopped⟩
    · rename_i room hroom
      obtain ⟨hge, -, hsteps, hle⟩ := roomFor?_spec hroom
      have hgrow : b.room ≤ max room (min (2 * b.room) maxRoom) := by omega
      obtain ⟨hbounded, hgrown⟩ := h.growTo m hgrow (by omega) (h.doubled hsteps)
      exact ⟨hbounded, hgrown.imp fun b' hb' => by omega⟩

/-- A buffer with room for more items holds them. -/
theorem Bounded.extend {b : Buffer α width} (h : b.Bounded) {items : List α}
    (hroom : width * b.items.length + width * items.length ≤ b.room) :
    ({ b with items := b.items ++ items } : Buffer α width).Bounded := by
  refine ⟨?_, h.room_le, h.steps⟩
  have hlength : width * (b.items ++ items).length =
      width * b.items.length + width * items.length := by
    rw [List.length_append, Nat.mul_add]
  exact Nat.le_trans (Nat.le_of_eq hlength) hroom

/-- Adding items after making room for them adds them all and keeps the buffer bounded. -/
private theorem Bounded.ensure_extend {b : Buffer α width} (h : b.Bounded) (items : List α)
    (m : Ledger) :
    ((b.ensure (width * items.length) m).andThen fun b m =>
      .done { b with items := b.items ++ items } m).Ensures
        fun b' => b'.Bounded ∧ b'.items = b.items ++ items := by
  obtain ⟨hbounded, hroom⟩ := h.ensure (width * items.length) m
  have hready : (b.ensure (width * items.length) m).Ensures fun b' =>
      b'.Bounded ∧ b'.items = b.items ∧ b.byteLength + width * items.length ≤ b'.room :=
    fun hok => ⟨hbounded, items_ensure b _ m, hroom hok⟩
  refine hready.andThen ?_
  rintro b' m' ⟨hb', hitems, hfits⟩
  have hroom' : width * b'.items.length + width * items.length ≤ b'.room := by
    rw [hitems]
    exact hfits
  exact Outcome.ensures_done ⟨hb'.extend hroom', by rw [hitems]⟩

/-- Items are added at the end, within the room. -/
theorem Bounded.append {b : Buffer α width} (h : b.Bounded) (items : List α) (m : Ledger) :
    (b.append items m).Ensures fun b' => b'.Bounded ∧ b'.items = b.items ++ items :=
  h.ensure_extend items m

/-- One item is added at the end, within the room. -/
theorem Bounded.push {b : Buffer α width} (h : b.Bounded) (item : α) (m : Ledger) :
    (b.push item m).Ensures fun b' => b'.Bounded ∧ b'.items = b.items ++ [item] :=
  h.append [item] m

/-- A buffer that gets longer is filled up with copies of the item. -/
theorem Bounded.resize {b : Buffer α width} (h : b.Bounded) {n : Nat} (hn : b.items.length ≤ n)
    (item : α) (m : Ledger) :
    (b.resize n item m).Ensures fun b' =>
      b'.Bounded ∧ b'.items = b.items ++ List.replicate (n - b.items.length) item := by
  unfold Buffer.resize
  split
  · rename_i hle
    apply Outcome.ensures_done
    have hn : n - b.items.length = 0 := by omega
    rw [hn, List.replicate_zero, List.append_nil]
    exact ⟨h.shrink (List.length_take_le' n b.items), List.take_of_length_le (by omega)⟩
  · have hlength : (List.replicate (n - b.items.length) item).length = n - b.items.length :=
      List.length_replicate
    have hextend := h.ensure_extend (List.replicate (n - b.items.length) item) m
    rwa [hlength] at hextend

/-- A new buffer that the ledger grants is empty and bounded. -/
theorem bounded_new {bytes : Nat} {m m' : Ledger} {b : Buffer α width}
    (h : Buffer.new bytes m = (.ok b, m')) : b.Bounded ∧ b.items = [] := by
  unfold Buffer.new at h
  split at h
  · simp at h
  · rename_i room hroom
    obtain ⟨-, -, hsteps, hle⟩ := roomFor?_spec hroom
    dsimp only at h
    split at h
    · rename_i hfault
      simp only [Prod.mk.injEq, Except.ok.injEq] at h
      obtain ⟨rfl, -⟩ := h
      rw [Loan.value_grow hfault]
      refine ⟨⟨Nat.zero_le _, ?_, ?_⟩, rfl⟩
      · simpa [Buffer.room] using hle
      · simpa [Buffer.room] using hsteps
    · simp at h

end Buffer

/-- The offsets of lists followed by one more are the same offsets with the end of that list behind
them. -/
theorem Chunk.offsetsFrom_append {α : Type} (start : Int) (lists : List (List α))
    (list : List α) :
    offsetsFrom start ((lists ++ [list]).map List.length) =
      offsetsFrom start (lists.map List.length) ++
        [start + ((lists ++ [list]).flatten.length : Nat)] := by
  induction lists generalizing start with
  | nil => simp [offsetsFrom]
  | cons first lists ih =>
    simp only [List.cons_append, List.map_cons, offsetsFrom, ih (start + first.length),
      List.flatten_cons, List.length_append, Int.natCast_add]
    rw [Int.add_assoc start]

namespace Offsets

/-- The offsets of the lists in the slots, with their memory. -/
structure Holds {α : Type} (o : Offsets) (lists : List (List α)) : Prop where
  items : o.ends.items = Chunk.offsetsFrom 0 (lists.map List.length)
  last : o.last = (lists.flatten.length : Nat)
  last_le : lists.flatten.length ≤ maxOffset
  bounded : o.ends.Bounded

/-- Offsets take memory, so there are fewer slots than sizes. -/
theorem Holds.length_lt {α : Type} {o : Offsets} {lists : List (List α)} (h : o.Holds lists) :
    lists.length < Size.max := by
  have hbytes := h.bounded.byteLength_le
  have hroom := Buffer.maxRoom_spec.2
  rw [h.items, Chunk.length_offsetsFrom, List.length_map] at hbytes
  simp only [Size.max] at hroom ⊢
  omega

/-- The next slot starts where the lists in the slots so far end. -/
theorem Holds.lastEnd_eq {α : Type} {o : Offsets} {lists : List (List α)} (h : o.Holds lists) :
    o.lastEnd = lists.flatten.length := by
  rw [lastEnd, h.last, Int.toNat_natCast]

/-- New offsets have the leading zero only, so they hold no slots. -/
theorem holds_new {α : Type} {capacity : Nat} {m m' : Ledger} {o : Offsets}
    (h : Offsets.new capacity m = (.ok o, m')) : o.Holds ([] : List (List α)) := by
  rw [new_eq] at h
  obtain ⟨ends, m₁, hnew, hpush⟩ := Made.eq_ok_of_chain h
  obtain ⟨hok, hmade⟩ := Outcome.eq_ok_of_make hpush
  obtain ⟨hbounded, hitems⟩ := Buffer.bounded_new hnew
  obtain ⟨hbounded', hitems'⟩ := hbounded.push 0 m₁ hok
  obtain rfl := Made.ok_inj hmade
  refine ⟨?_, rfl, Nat.zero_le _, hbounded'⟩
  rw [hitems', hitems]
  rfl

/-- Reserving leaves the offsets alone, even where it fails. -/
theorem Holds.reserve {α : Type} {o : Offsets} {lists : List (List α)} (h : o.Holds lists)
    (n : Nat) (m : Ledger) : (o.reserve n m).value.Holds lists := by
  unfold Offsets.reserve
  split
  · exact h
  · rename_i bytes hbytes
    refine ⟨?_, h.last, h.last_le, h.bounded.reserve bytes m⟩
    simpa [Buffer.items_reserve] using h.items

/-- A slot that ends where its list ends holds the list. -/
theorem Holds.append {α : Type} {o : Offsets} {lists : List (List α)} (h : o.Holds lists)
    {stop : Nat} (list : List α) (hstop : stop = lists.flatten.length + list.length) (m : Ledger) :
    (o.append stop m).Ensures fun o' => o'.Holds (lists ++ [list]) := by
  unfold Offsets.append
  split
  · exact Outcome.ensures_stopped
  rename_i hrange
  split
  · exact Outcome.ensures_stopped
  · have hlength : (lists ++ [list]).flatten.length = stop := by
      simp [hstop]
    refine (Outcome.ensures_map (P := fun o' : Offsets => o'.ends.Bounded ∧
      o'.ends.items = o.ends.items ++ [(stop : Int)]) ?_).andThen ?_
    · exact h.bounded.push _ m
    · rintro o' m' ⟨hbounded, hitems⟩
      refine Outcome.ensures_done ⟨?_, ?_, ?_, hbounded⟩
      · rw [Chunk.offsetsFrom_append, ← h.items, hlength, Int.zero_add]
        exact hitems
      · rw [hlength]
      · rw [hlength]
        exact Nat.le_of_not_lt hrange

/-- A slot that ends where it started is ended by its length zero. -/
theorem Holds.appendLength_zero {α : Type} {o : Offsets} {lists : List (List α)}
    (h : o.Holds lists) (m : Ledger) :
    o.appendLength 0 m = o.append lists.flatten.length m := by
  have hle : maxOffset ≤ Size.max := by decide
  have hsize : o.lastEnd + 0 ≤ Size.max := by
    rw [h.lastEnd_eq]
    exact Nat.le_trans h.last_le hle
  rw [appendLength_eq hsize, h.lastEnd_eq, Nat.add_zero]

end Offsets

end Columnar
