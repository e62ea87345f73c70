import Columnar.Proofs.Bitmap
import Columnar.Proofs.Buffer
import Columnar.Writer.Leaf
/-!
# Leaves hold their slots

What the writers of booleans, numbers and byte strings stand for: one slot for
each addition, a value or a null.  Each writer keeps several parts, and
`Holds` says how every part follows from the slots.  Adding a slot keeps the
parts in step, reserving leaves them alone, and the finished chunk is made of
what the slots say.
-/

namespace Columnar

namespace BooleanWriter

/-- The parts of a writer whose slots are given. -/
structure Holds (w : BooleanWriter) (slots : List (Option Bool)) : Prop where
  tidy : w.values.Tidy
  values : w.values.bits = slots.map (·.getD false)
  validity : w.validity.Shows (slots.map Option.isSome)

/-- A new writer of leaves that was granted its memory holds no slots. -/
theorem holds_new {capacity : Nat} {m m' : Ledger} {w : BooleanWriter}
    (h : BooleanWriter.new capacity m = (.ok w, m')) : w.Holds [] := by
  rw [new_eq] at h
  obtain ⟨values, hnew, rfl⟩ := Made.eq_ok_of_map h
  obtain ⟨htidy, hbits⟩ := Bitmap.tidy_new hnew
  exact ⟨htidy, hbits, Validity.shows_new capacity⟩

/-- Reserving leaves the slots alone, even where it fails. -/
theorem Holds.reserve {w : BooleanWriter} {slots : List (Option Bool)} (h : w.Holds slots)
    (n : Nat) (m : Ledger) : (w.reserve n m).value.Holds slots := by
  have hvalidity := h.validity.reserve n m
  unfold BooleanWriter.reserve
  cases hok : (w.validity.reserve n m).fault with
  | none =>
    rw [Outcome.andThen_of_none (by simpa using hok)]
    obtain ⟨htidy, hbits⟩ := h.tidy.reserve n (w.validity.reserve n m).ledger
    exact ⟨htidy, hbits.trans h.values, hvalidity⟩
  | some fault =>
    rw [Outcome.andThen_of_some (by simpa using hok)]
    exact ⟨h.tidy, h.values, hvalidity⟩

/-- A value or a null is the last slot. -/
theorem Holds.append {w : BooleanWriter} {slots : List (Option Bool)} (h : w.Holds slots)
    (value : Option Bool) (m : Ledger) :
    (w.append value m).Ensures fun w' => w'.Holds (slots ++ [value]) := by
  unfold BooleanWriter.append BooleanWriter.add
  refine (Outcome.ensures_map (P := fun w' : BooleanWriter => w'.validity = w.validity ∧
    w'.values.Tidy ∧ w'.values.bits = w.values.bits ++ [value.getD false]) ?_).andThen ?_
  · exact (h.tidy.append (value.getD false) m).imp fun values hv => ⟨rfl, hv⟩
  · rintro w₁ m₁ ⟨hsame, htidy, hbits⟩
    have hshown := h.validity
    rw [← hsame] at hshown
    refine Outcome.ensures_map ((hshown.append value.isSome m₁).imp ?_)
    intro validity hshows
    refine ⟨htidy, ?_, by rw [List.map_append]; exact hshows⟩
    rw [List.map_append, ← h.values]
    exact hbits

/-- The finished chunk has a false bit beneath every null. -/
theorem Holds.finish_eq {w : BooleanWriter} {slots : List (Option Bool)} (h : w.Holds slots) :
    w.finish = .ok (.boolean (slots.map (·.getD false)) (Mask.ofSlots slots)) := by
  have hmask := Chunk.checkMask_ofSlots slots
  rw [BooleanWriter.finish, h.values, h.validity.finish_eq, Chunk.assembleBoolean, List.length_map]
  simp only [Mask.ofSlots] at hmask ⊢
  rw [hmask]
  rfl

end BooleanWriter

namespace NumberWriter

variable {kind : NumberType}

/-- The parts of a writer whose slots are given. -/
structure Holds (w : NumberWriter kind) (slots : List (Option kind.Carrier)) : Prop where
  bounded : w.values.Bounded
  values : w.values.items = slots.map (·.getD 0)
  validity : w.validity.Shows (slots.map Option.isSome)

/-- A new writer of leaves that was granted its memory holds no slots. -/
theorem holds_new {capacity : Nat} {m m' : Ledger} {w : NumberWriter kind}
    (h : NumberWriter.new kind capacity m = (.ok w, m')) : w.Holds [] := by
  rw [new_eq] at h
  obtain ⟨values, hnew, rfl⟩ := Made.eq_ok_of_map h
  obtain ⟨hbounded, hitems⟩ := Buffer.bounded_new hnew
  exact ⟨hbounded, hitems, Validity.shows_new capacity⟩

/-- Reserving leaves the slots alone, even where it fails. -/
theorem Holds.reserve {w : NumberWriter kind} {slots : List (Option kind.Carrier)}
    (h : w.Holds slots) (n : Nat) (m : Ledger) : (w.reserve n m).value.Holds slots := by
  have hvalidity := h.validity.reserve n m
  unfold NumberWriter.reserve
  cases hok : (w.validity.reserve n m).fault with
  | none =>
    rw [Outcome.andThen_of_none (by simpa using hok)]
    split
    · exact ⟨h.bounded, h.values, hvalidity⟩
    · rename_i bytes hbytes
      refine ⟨h.bounded.reserve bytes _, ?_, hvalidity⟩
      rw [← h.values]
      exact Buffer.items_reserve w.values bytes _
  | some fault =>
    rw [Outcome.andThen_of_some (by simpa using hok)]
    exact ⟨h.bounded, h.values, hvalidity⟩

/-- A value or a null is the last slot. -/
theorem Holds.append {w : NumberWriter kind} {slots : List (Option kind.Carrier)}
    (h : w.Holds slots) (value : Option kind.Carrier) (m : Ledger) :
    (w.append value m).Ensures fun w' => w'.Holds (slots ++ [value]) := by
  unfold NumberWriter.append NumberWriter.add
  refine (Outcome.ensures_map (P := fun w' : NumberWriter kind => w'.validity = w.validity ∧
    w'.values.Bounded ∧ w'.values.items = w.values.items ++ [value.getD 0]) ?_).andThen ?_
  · exact (h.bounded.push (value.getD 0) m).imp fun values hv => ⟨rfl, hv⟩
  · rintro w₁ m₁ ⟨hsame, hbounded, hitems⟩
    have hshown := h.validity
    rw [← hsame] at hshown
    refine Outcome.ensures_map ((hshown.append value.isSome m₁).imp ?_)
    intro validity hshows
    refine ⟨hbounded, ?_, by rw [List.map_append]; exact hshows⟩
    rw [List.map_append, ← h.values]
    exact hitems

/-- The finished chunk has a zero beneath every null. -/
theorem Holds.finish_eq {w : NumberWriter kind} {slots : List (Option kind.Carrier)}
    (h : w.Holds slots) :
    w.finish = .ok (.number kind (slots.map (·.getD 0)) (Mask.ofSlots slots)) := by
  have hmask := Chunk.checkMask_ofSlots slots
  rw [NumberWriter.finish, h.values, h.validity.finish_eq, Chunk.assembleNumber, List.length_map]
  simp only [Mask.ofSlots] at hmask ⊢
  rw [hmask]
  rfl

end NumberWriter

namespace Slots

variable {α : Type}

/-- The offsets and flags of slots that are given. -/
structure Holds (s : Slots) (slots : List (Option (List α))) : Prop where
  offsets : s.offsets.Holds (slotLists slots)
  validity : s.validity.Shows (slots.map Option.isSome)

/-- New slots that were granted their memory are none. -/
theorem holds_new {capacity : Nat} {m m' : Ledger} {s : Slots}
    (h : Slots.new capacity m = (.ok s, m')) : s.Holds ([] : List (Option (List α))) := by
  rw [new_eq] at h
  obtain ⟨offsets, hnew, rfl⟩ := Made.eq_ok_of_map h
  exact ⟨Offsets.holds_new hnew, Validity.shows_new capacity⟩

/-- Reserving leaves the slots alone, even where it fails. -/
theorem Holds.reserve {s : Slots} {slots : List (Option (List α))} (h : s.Holds slots) (n : Nat)
    (m : Ledger) : (s.reserve n m).value.Holds slots := by
  have hvalidity := h.validity.reserve n m
  unfold Slots.reserve
  cases hok : (s.validity.reserve n m).fault with
  | none =>
    rw [Outcome.andThen_of_none (by simpa using hok)]
    exact ⟨h.offsets.reserve n _, hvalidity⟩
  | some fault =>
    rw [Outcome.andThen_of_some (by simpa using hok)]
    exact ⟨h.offsets, hvalidity⟩

/-- Offsets take memory, so there are fewer slots than sizes. -/
theorem Holds.length_lt {s : Slots} {slots : List (Option (List α))} (h : s.Holds slots) :
    slots.length < Size.max := by
  have hlt := h.offsets.length_lt
  rwa [slotLists, List.length_map] at hlt

/-- The items in slots followed by one more are the items in those and then those in that one. -/
theorem flatten_slotLists_append (slots : List (Option (List α))) (slot : Option (List α)) :
    (slotLists (slots ++ [slot])).flatten = (slotLists slots).flatten ++ slot.getD [] := by
  rw [slotLists_append, List.flatten_append, List.flatten_singleton]

/-- A slot that ends where its list ends is the last one. -/
theorem Holds.close {s : Slots} {slots : List (Option (List α))} (h : s.Holds slots)
    (slot : Option (List α)) {stop : Nat}
    (hstop : stop = (slotLists slots).flatten.length + (slot.getD []).length) (m : Ledger) :
    (s.close stop slot.isSome m).Ensures fun s' => s'.Holds (slots ++ [slot]) := by
  unfold Slots.close
  refine (Outcome.ensures_map (P := fun s' : Slots => s'.validity = s.validity ∧
    s'.offsets.Holds (slotLists slots ++ [slot.getD []])) ?_).andThen ?_
  · exact (h.offsets.append (slot.getD []) hstop m).imp fun offsets ho => ⟨rfl, ho⟩
  · rintro s₁ m₁ ⟨hsame, hoffsets⟩
    have hshown := h.validity
    rw [← hsame] at hshown
    refine Outcome.ensures_map ((hshown.append slot.isSome m₁).imp ?_)
    intro validity hshows
    refine ⟨?_, by rw [List.map_append]; exact hshows⟩
    rw [slotLists_append]
    exact hoffsets

/-- Ending a slot where it starts is the same as ending it at the end of the items so far. -/
theorem Holds.closeEmpty_eq {s : Slots} {slots : List (Option (List α))} (h : s.Holds slots)
    (valid : Bool) (m : Ledger) :
    s.closeEmpty valid m = s.close (slotLists slots).flatten.length valid m := by
  rw [Slots.closeEmpty, Slots.close, h.offsets.appendLength_zero]

/-- A slot that is ended where it starts is the last one, without items or null. -/
theorem Holds.closeEmpty {s : Slots} {slots : List (Option (List α))} (h : s.Holds slots)
    (slot : Option (List α)) (hempty : slot.getD [] = []) (m : Ledger) :
    (s.closeEmpty slot.isSome m).Ensures fun s' => s'.Holds (slots ++ [slot]) := by
  rw [h.closeEmpty_eq]
  exact h.close slot (by rw [hempty]; rfl) m

end Slots

namespace BytesWriter

/-- The parts of a writer whose strings are given. -/
structure Holds (w : BytesWriter) (strings : List (Option (List UInt8))) : Prop where
  ends : w.slots.Holds strings
  bounded : w.content.Bounded
  content : w.content.items = (slotLists strings).flatten

/-- A new writer of strings that was granted its memory holds no slots. -/
theorem holds_new {capacity bytes : Nat} {m m' : Ledger} {w : BytesWriter}
    (h : BytesWriter.new capacity bytes m = (.ok w, m')) : w.Holds [] := by
  rw [new_eq] at h
  obtain ⟨slots, _, hslots, hrest⟩ := Made.eq_ok_of_chain h
  obtain ⟨content, _, hcontent, hmade⟩ := Made.eq_ok_of_chain hrest
  obtain rfl := Made.ok_inj hmade
  obtain ⟨hbounded, hitems⟩ := Buffer.bounded_new hcontent
  exact ⟨Slots.holds_new hslots, hbounded, hitems⟩

/-- Reserving leaves the strings alone, even where it fails. -/
theorem Holds.reserve {w : BytesWriter} {strings : List (Option (List UInt8))}
    (h : w.Holds strings) (n : Nat) (m : Ledger) : (w.reserve n m).value.Holds strings :=
  ⟨h.ends.reserve n m, h.bounded, h.content⟩

/-- A string is closed once its content is there. -/
theorem Holds.close {w w' : BytesWriter} {strings : List (Option (List UInt8))}
    (h : w.Holds strings) (string : Option (List UInt8)) (hslots : w'.slots = w.slots)
    (hbounded : w'.content.Bounded)
    (hcontent : w'.content.items = w.content.items ++ string.getD []) (m : Ledger) :
    (w'.close string.isSome m).Ensures fun w'' => w''.Holds (strings ++ [string]) := by
  have hstop : w'.content.byteLength =
      (slotLists strings).flatten.length + (string.getD []).length := by
    rw [Buffer.byteLength, hcontent, h.content, List.length_append, Nat.one_mul]
  have hends := h.ends
  rw [← hslots] at hends
  refine Outcome.ensures_map ?_
  intro hok
  have hclosed := hends.close string hstop m hok
  refine ⟨hclosed, hbounded, ?_⟩
  rw [Slots.flatten_slotLists_append, ← h.content]
  exact hcontent

/-- A string or a null is the last slot. -/
theorem Holds.append {w : BytesWriter} {strings : List (Option (List UInt8))}
    (h : w.Holds strings) (string : Option (List UInt8)) (m : Ledger) :
    (w.append string m).Ensures fun w' => w'.Holds (strings ++ [string]) := by
  cases string with
  | none => exact h.close none rfl h.bounded (List.append_nil _).symm m
  | some bytes =>
    unfold BytesWriter.append
    refine (Outcome.ensures_map (P := fun w' : BytesWriter => w'.slots = w.slots ∧
      w'.content.Bounded ∧ w'.content.items = w.content.items ++ bytes) ?_).andThen ?_
    · exact (h.bounded.append bytes m).imp fun content hc => ⟨rfl, hc⟩
    · rintro w₁ m₁ ⟨hslots, hbounded, hitems⟩
      exact h.close (some bytes) hslots hbounded hitems m₁

/-- The finished offsets, content and mask follow from the strings. -/
theorem Holds.finishText_eq {w : BytesWriter} {strings : List (Option (List UInt8))}
    (h : w.Holds strings) :
    w.finishText = .utf8 (Chunk.offsetsFrom 0 ((slotLists strings).map List.length))
      (slotLists strings).flatten (Mask.ofSlots strings) := by
  rw [BytesWriter.finishText, h.ends.offsets.items, h.content, h.ends.validity.finish_eq]
  rfl

/-- The finished offsets, content and mask of byte strings. -/
theorem Holds.finishBinary_eq {w : BytesWriter} {strings : List (Option (List UInt8))}
    (h : w.Holds strings) :
    w.finishBinary = .ok (.binary (Chunk.offsetsFrom 0 ((slotLists strings).map List.length))
      (slotLists strings).flatten (Mask.ofSlots strings)) := by
  have hmask := Chunk.checkMask_ofSlots strings
  have hlength : (Chunk.offsetsFrom 0 ((slotLists strings).map List.length)).length - 1 =
      strings.length := by
    rw [Chunk.length_offsetsFrom, List.length_map, slotLists, List.length_map, Nat.add_sub_cancel]
  rw [BytesWriter.finishBinary, h.ends.offsets.items, h.content, h.ends.validity.finish_eq,
    Chunk.assembleBinary, hlength]
  simp only [Mask.ofSlots] at hmask ⊢
  rw [hmask]
  rfl

end BytesWriter

end Columnar
