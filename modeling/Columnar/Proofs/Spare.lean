import Columnar.Proofs.Frugality
import Columnar.Writer.Leaf
/-!
# Room to spare

`Spare n` says that the next `n` additions need no room: the bytes they will take are
granted already, counted in items, in bits or in offsets.  For a validity without a
mask it says that the mask, when it is made, will be made for that many slots.

Reserving makes room to spare, and takes none away that was there; an addition
takes up the room of one.  It never asks the ledger, except for a mask with the
first null.
-/

namespace Columnar

open Maskable

variable {n k : Nat} {m : Ledger} {free : Prop} {lax : Fault → Prop}

/-- A loan that is to grow by some bytes makes one request for them, and is as large as before when
that is refused. -/
theorem Loan.grow_eq (loan : Loan) {n : Nat} (hn : n ≠ 0) (m : Ledger) :
    loan.grow n m = .done ⟨loan.size + n⟩ (m.askAll [n]) ∨
      ∃ refusal, loan.grow n m = .stopped loan (m.askAll [n]) (.outOfMemory refusal) := by
  have hledger : m.askAll [n] = (m.ask n).2 := rfl
  rw [hledger, grow, if_neg hn]
  rcases m.ask n with ⟨_ | refusal, m'⟩
  · exact .inl rfl
  · exact .inr ⟨refusal, rfl⟩

namespace Buffer

variable {α : Type} {width : Nat} {b : Buffer α width}

/-- There is room for `n` more items in the bytes that were granted already. -/
def Spare (n : Nat) (b : Buffer α width) : Prop := width * (b.items.length + n) ≤ b.room

/-- Raising the room of a buffer loses none that was granted before, whatever the ledger answers. -/
theorem room_le_growTo (b : Buffer α width) (room : Nat) (m : Ledger) :
    b.room ≤ (b.growTo room m).value.room := by
  show b.loan.size ≤ (b.loan.grow (room - b.room) m).value.size
  cases hfault : (b.loan.grow (room - b.room) m).fault with
  | none =>
    rw [Loan.value_grow hfault]
    exact Nat.le_add_right _ _
  | some fault =>
    exact Nat.le_of_eq (congrArg Loan.size (Loan.value_grow_of_fault hfault)).symm

/-- Reserving loses no room, even where it is refused. -/
theorem room_le_reserve (b : Buffer α width) (bytes : Nat) (m : Ledger) :
    b.room ≤ (b.reserve bytes m).value.room := by
  unfold reserve
  split
  · exact Nat.le_refl _
  · split
    · exact Nat.le_refl _
    · exact b.room_le_growTo _ m

/-- After reserving some bytes in a buffer the room for them is there. -/
theorem ensures_room_reserve (b : Buffer α width) (bytes : Nat) (m : Ledger) :
    (b.reserve bytes m).Ensures fun b' => b.byteLength + bytes ≤ b'.room := by
  unfold reserve
  split
  · exact Outcome.ensures_done ‹_›
  · split
    · exact Outcome.ensures_stopped
    · rename_i room hroom
      obtain ⟨hge, -⟩ := roomFor?_spec hroom
      intro hok
      show b.byteLength + bytes ≤ (b.loan.grow (room - b.room) m).value.size
      rw [Loan.value_grow hok]
      show b.byteLength + bytes ≤ b.room + (room - b.room)
      omega

/-- Reserving the bytes of `n` items makes room for them, and takes none away. -/
theorem Spare.reserve (h : b.Spare k) (n : Nat) (m : Ledger) :
    (b.reserve (width * n) m).Ensures (Spare (max k n)) := by
  intro hok
  rw [Spare, items_reserve]
  rcases Nat.le_total k n with hle | hle
  · rw [Nat.max_eq_right hle, Nat.mul_add]
    exact b.ensures_room_reserve _ m hok
  · rw [Nat.max_eq_left hle]
    exact Nat.le_trans h (b.room_le_reserve _ m)

/-- Making room for an addition asks for nothing where there is room for it. -/
theorem ensure_of_room {bytes : Nat} (h : b.byteLength + bytes ≤ b.room) (m : Ledger) :
    b.ensure bytes m = .done b m :=
  if_pos h

/-- Adding an item where there is room for `n + 1` asks for nothing and leaves room for `n`. -/
theorem Spare.push (h : b.Spare (n + 1)) (item : α) (m : Ledger) :
    ∃ b', b.push item m = .done b' m ∧ b'.Spare n := by
  refine ⟨{ b with items := b.items ++ [item] }, ?_, ?_⟩
  · have hroom : b.byteLength + width * [item].length ≤ b.room := by
      refine Nat.le_trans ?_ h
      rw [byteLength, ← Nat.mul_add]
      exact Nat.mul_le_mul_left width (by simp)
    rw [Buffer.push, append, ensure_of_room hroom]
    rfl
  · have hlength : (b.items ++ [item]).length + n = b.items.length + (n + 1) := by
      rw [List.length_append, List.length_singleton]
      omega
    rw [Spare, hlength]
    exact h

/-- A buffer gets as long as its room without asking. -/
theorem resize_of_room {length : Nat} (h : width * length ≤ b.room) (item : α) (m : Ledger) :
    ∃ b', b.resize length item m = .done b' m ∧ b'.room = b.room := by
  unfold resize
  split
  · exact ⟨_, rfl, rfl⟩
  · have hroom : b.byteLength + width * (length - b.items.length) ≤ b.room := by
      rw [byteLength, ← Nat.mul_add]
      exact Nat.le_trans (Nat.mul_le_mul_left width (by omega)) h
    dsimp only
    rw [ensure_of_room hroom]
    exact ⟨_, rfl, rfl⟩

variable (α width) in
/-- The first bytes of all are asked for at once.  If they are refused there is no
room. -/
theorem reserve_empty {bytes : Nat} (h : 0 < bytes) (m : Ledger) :
    (∃ size b, ({} : Buffer α width).reserve bytes m = .done b (m.askAll [size])) ∨
      ∃ sizes refusal, sizes.length ≤ 1 ∧ ({} : Buffer α width).reserve bytes m =
        .stopped {} (m.askAll sizes) (.outOfMemory refusal) := by
  have hfull : ¬ ({} : Buffer α width).byteLength + bytes ≤ ({} : Buffer α width).room := by
    show ¬ width * 0 + bytes ≤ 0
    omega
  unfold reserve
  rw [if_neg hfull]
  split
  · exact .inr ⟨[], .overflow, Nat.zero_le _, rfl⟩
  · rename_i room hroom
    obtain ⟨hge, -⟩ := roomFor?_spec hroom
    have hmore : room - ({} : Buffer α width).room ≠ 0 := by
      show room - 0 ≠ 0
      omega
    unfold growTo
    obtain hgranted | ⟨refusal, hrefused⟩ := ({} : Loan).grow_eq hmore m
    · rw [hgranted]
      exact .inl ⟨_, _, rfl⟩
    · rw [hrefused]
      exact .inr ⟨[_], refusal, Nat.le_refl _, rfl⟩

end Buffer

namespace Bitmap

variable {b : Bitmap}

/-- There is room for `n` more bits in the bytes that were granted already. -/
structure Spare (n : Nat) (b : Bitmap) : Prop where
  length_le : b.length + n ≤ Size.max
  room : bytesFor (b.length + n) ≤ b.room

/-- The number of bytes that bits need does not fall when there are more bits. -/
theorem bytesFor_mono {i j : Nat} (h : i ≤ j) : bytesFor i ≤ bytesFor j :=
  Nat.div_le_div_right (Nat.add_le_add_right h 7)

/-- Room to spare for a number of additions is room to spare for any smaller number. -/
theorem Spare.mono (h : b.Spare k) (hle : n ≤ k) : b.Spare n :=
  ⟨Nat.le_trans (Nat.add_le_add_left hle _) h.length_le,
    Nat.le_trans (bytesFor_mono (Nat.add_le_add_left hle _)) h.room⟩

/-- Reserving bits makes room for them, and takes none away. -/
theorem Spare.reserve (h : b.Spare k) (n : Nat) (m : Ledger) :
    (b.reserve n m).Ensures fun b' => b'.length = b.length ∧ b'.Spare (max k n) := by
  unfold Bitmap.reserve
  split
  · exact Outcome.ensures_stopped
  · rename_i length hlength
    obtain ⟨rfl, hmax⟩ := Size.add?_eq_some hlength
    intro hok
    have hroom := b.bytes.ensures_room_reserve _ m hok
    have hle := b.bytes.room_le_reserve (bytesFor (b.length + n) - b.bytes.items.length) m
    rw [Buffer.byteLength, Nat.one_mul] at hroom
    refine ⟨rfl, ⟨?_, ?_⟩⟩
    · show b.length + max k n ≤ Size.max
      have hbefore := h.length_le
      omega
    · show bytesFor (b.length + max k n) ≤ _
      have hbefore : bytesFor (b.length + k) ≤ b.bytes.room := h.room
      rcases Nat.le_total k n with hkn | hkn
      · rw [Nat.max_eq_right hkn]
        exact Nat.le_trans (by omega) hroom
      · rw [Nat.max_eq_left hkn]
        exact Nat.le_trans hbefore hle

/-- The first bits of all are asked for at once.  If they are refused there is no
room. -/
theorem reserve_empty (h : 0 < n) (m : Ledger) :
    (∃ size b, Bitmap.reserve {} n m = .done b (m.askAll [size]) ∧ b.length = 0 ∧ b.Spare n) ∨
      ∃ sizes refusal, sizes.length ≤ 1 ∧
        Bitmap.reserve {} n m = .stopped {} (m.askAll sizes) (.outOfMemory refusal) := by
  have hempty : Spare 0 {} := ⟨Nat.zero_le _, Nat.zero_le _⟩
  have hspare := hempty.reserve n m
  rw [Nat.zero_max] at hspare
  by_cases hmax : 0 + n ≤ Size.max
  · have hreserve : Bitmap.reserve {} n m =
        (Buffer.reserve {} (bytesFor (0 + n) - 0) m).map fun bytes => { bytes } := by
      have hword : Size.add? ({} : Bitmap).length n = some (0 + n) := if_pos hmax
      rw [Bitmap.reserve, hword]
      rfl
    have hbytes : 0 < bytesFor (0 + n) - 0 := by
      rw [bytesFor]
      omega
    rw [hreserve] at hspare ⊢
    obtain ⟨size, bytes, hgranted⟩ | ⟨sizes, refusal, hle, hrefused⟩ :=
      Buffer.reserve_empty UInt8 1 hbytes m
    · rw [hgranted] at hspare ⊢
      obtain ⟨hlength, hroomy⟩ := hspare rfl
      exact .inl ⟨size, _, rfl, hlength, hroomy⟩
    · rw [hrefused]
      exact .inr ⟨sizes, refusal, hle, rfl⟩
  · have hword : Size.add? ({} : Bitmap).length n = none := if_neg hmax
    rw [Bitmap.reserve, hword]
    exact .inr ⟨[], .overflow, Nat.zero_le _, rfl⟩

/-- Adding a bit where there is room for `n + 1` asks for nothing and leaves room for `n`. -/
theorem Spare.append (h : b.Spare (n + 1)) (bit : Bool) (m : Ledger) :
    ∃ b', b.append bit m = .done b' m ∧ b'.Spare n ∧ b'.length = b.length + 1 := by
  have hmax : b.length + 1 ≤ Size.max := Nat.le_trans (by omega) h.length_le
  have hbytes : 1 * bytesFor (b.length + 1) ≤ b.bytes.room := by
    rw [Nat.one_mul]
    exact Nat.le_trans (bytesFor_mono (by omega)) h.room
  obtain ⟨bytes, hresize, hroom⟩ := Buffer.resize_of_room hbytes 0 m
  simp only [Bitmap.append, Size.add?, if_pos hmax, hresize]
  refine ⟨_, rfl, ⟨?_, ?_⟩, rfl⟩
  · show b.length + 1 + n ≤ Size.max
    have hle := h.length_le
    omega
  · show bytesFor (b.length + 1 + n) ≤ (if bit then setBit bytes b.length else bytes).room
    have hsame : (if bit then setBit bytes b.length else bytes).room = b.room := by
      cases bit <;> exact hroom
    rw [hsame, Nat.add_assoc, Nat.add_comm 1]
    exact h.room

/-- A run of bits takes up the room of as many. -/
theorem Spare.appendMany {count : Nat} (h : b.Spare (count + n)) (bit : Bool) (m : Ledger) :
    ∃ b', b.appendMany bit count m = .done b' m ∧ b'.Spare n ∧ b'.length = b.length + count := by
  have hmax : b.length + count ≤ Size.max := Nat.le_trans (by omega) h.length_le
  have hbytes : 1 * bytesFor (b.length + count) ≤ b.bytes.room := by
    rw [Nat.one_mul]
    exact Nat.le_trans (bytesFor_mono (by omega)) h.room
  have hspare : ∀ bytes : Buffer UInt8 1, bytes.room = b.bytes.room →
      Spare n ⟨bytes, b.length + count⟩ := by
    intro bytes hroom
    refine ⟨?_, ?_⟩
    · rw [Nat.add_assoc]
      exact h.length_le
    · show bytesFor (b.length + count + n) ≤ bytes.room
      rw [hroom, Nat.add_assoc]
      exact h.room
  simp only [Bitmap.appendMany, Size.add?, if_pos hmax]
  cases bit with
  | true =>
    have hpadded : b.padded.room = b.bytes.room := by
      unfold padded
      split <;> rfl
    obtain ⟨bytes, hresize, hroom⟩ := Buffer.resize_of_room (hpadded ▸ hbytes) 0xff m
    rw [if_pos rfl, hresize]
    refine ⟨_, rfl, hspare _ ?_, rfl⟩
    rw [← hpadded, ← hroom]
    unfold clearedPast
    split <;> rfl
  | false =>
    rw [if_neg Bool.false_ne_true]
    split
    · exact ⟨_, rfl, hspare _ rfl, rfl⟩
    · obtain ⟨bytes, hresize, hroom⟩ := Buffer.resize_of_room hbytes 0 m
      rw [hresize]
      exact ⟨_, rfl, hspare _ hroom, rfl⟩

end Bitmap

namespace Validity

/-- Only without a mask is there one to be made. -/
instance : Maskable Validity where
  unmasked
    | allValid .. => 1
    | mask _ => 0

/-- There is room for `n` more slots in the mask, now or when it is made. -/
def Spare (n : Nat) : Validity → Prop
  | allValid slots planned => slots + n ≤ max slots planned ∧ slots + n ≤ Size.max
  | mask bits => bits.Spare n

variable {v : Validity}

/-- Slots that there is room for can be counted. -/
theorem Spare.length_le (h : v.Spare n) : v.length + n ≤ Size.max := by
  cases v with
  | allValid slots planned => exact h.2
  | mask bits => exact Bitmap.Spare.length_le h

/-- Reserving slots makes room for them, or plans it, and takes none away. -/
theorem Spare.reserve (h : v.Spare k) (n : Nat) (m : Ledger) :
    (v.reserve n m).Ensures fun v' => v'.length = v.length ∧ v'.Spare (max k n) := by
  unfold Validity.reserve
  split
  · exact Outcome.ensures_stopped
  · rename_i total htotal
    obtain ⟨rfl, hmax⟩ := Size.add?_eq_some htotal
    cases v with
    | allValid slots planned =>
      obtain ⟨hplanned, hbefore⟩ := h
      have hslots : slots + n ≤ Size.max := hmax
      refine Outcome.ensures_done ⟨rfl, ?_, ?_⟩
      · show slots + max k n ≤ max slots (max planned (slots + n))
        omega
      · omega
    | mask bits => exact Outcome.ensures_map (Bitmap.Spare.reserve h n m)

/-- The mask is asked for once, and for all the slots that are planned.  Once that is
granted all the rest finds its room; if it is refused there is nothing to give back. -/
theorem firstNulls_cases {slots n : Nat} (hmax : slots + n ≤ Size.max) (hn : 0 < n) (planned : Nat)
    (m : Ledger) :
    (∃ size bits, firstNulls slots planned n m = .done (.mask bits) (m.askAll [size]) ∧
        bits.length = slots + n ∧ bits.Spare (planned - (slots + n))) ∨
      ∃ sizes refusal, sizes.length ≤ 1 ∧ firstNulls slots planned n m =
        .stopped (.allValid slots planned) (m.askAll sizes) (.outOfMemory refusal) := by
  have hword : Size.add? slots n = some (slots + n) := if_pos hmax
  have hmost : max planned (slots + n) = slots + (n + (planned - (slots + n))) := by omega
  rw [firstNulls_eq hword, hmost]
  obtain ⟨size, bits, hgranted, hnone, hspare⟩ | ⟨sizes, refusal, hle, hrefused⟩ :=
    Bitmap.reserve_empty (n := slots + (n + (planned - (slots + n)))) (by omega) m
  · obtain ⟨bits₁, hvalid, hspare₁, hlength₁⟩ := hspare.appendMany true (m.askAll [size])
    obtain ⟨bits₂, hnull, hspare₂, hlength₂⟩ := hspare₁.appendMany false (m.askAll [size])
    have hmade : ((Outcome.done bits (m.askAll [size])).andThen fun bits m =>
        bits.appendMany true slots m).andThen (fun bits m => bits.appendMany false n m) =
          .done bits₂ (m.askAll [size]) := by
      rw [← hnull]
      have hfirst : ((Outcome.done bits (m.askAll [size])).andThen fun bits m =>
          bits.appendMany true slots m) = .done bits₁ (m.askAll [size]) := hvalid
      rw [hfirst]
      rfl
    rw [hgranted, hmade]
    exact .inl ⟨size, bits₂, rfl, by omega, hspare₂⟩
  · rw [hrefused]
    exact .inr ⟨sizes, refusal, hle, rfl⟩

/-- A first null finds room for the slots that were planned. -/
theorem frugal_firstNulls {slots planned : Nat} (hplanned : slots + (n + 1) ≤ planned)
    (hmax : slots + (n + 1) ≤ Size.max) (hfree : ¬ free) :
    (firstNulls slots planned 1 m).Frugal m 1 free lax fun v =>
      v.Spare n ∧ v.length = slots + 1 := by
  obtain ⟨size, bits, hdone, hlength, hspare⟩ | ⟨sizes, refusal, hle, hstopped⟩ :=
    firstNulls_cases (show slots + 1 ≤ Size.max by omega) Nat.one_pos planned m
  · rw [hdone]
    refine ⟨⟨[size], rfl, Nat.le_refl _, fun h => absurd h hfree, fun _ => rfl⟩, nofun, fun _ => ?_⟩
    exact ⟨hspare.mono (by omega), hlength⟩
  · rw [hstopped]
    exact ⟨⟨sizes, rfl, hle, fun h => absurd h hfree, nofun⟩,
      fun fault hfault => .inr ⟨hfree, refusal, (Option.some.inj hfault).symm⟩, nofun⟩

/-- A slot takes up the room of one.  The first null makes the mask. -/
theorem frugal_append (h : v.Spare (n + 1)) {valid : Bool} (hfree : free → valid = true) :
    (v.append valid m).Frugal m (unmasked v) free lax fun v' =>
      v'.Spare n ∧ v'.length = v.length + 1 := by
  cases v with
  | mask bits =>
    obtain ⟨bits', happend, hspare, hlength⟩ := Bitmap.Spare.append h valid m
    have hdone : (mask bits).append valid m = .done (.mask bits') m := by
      rw [Validity.append, happend]
      rfl
    rw [hdone]
    exact Outcome.frugal_done rfl ⟨hspare, hlength⟩
  | allValid slots planned =>
    obtain ⟨hplanned, hmax⟩ := h
    cases valid with
    | true =>
      have hcount : Size.add? slots 1 = some (slots + 1) := Size.add?_of_le (by omega)
      have hdone : (allValid slots planned).append true m =
          .done (.allValid (slots + 1) planned) m := by
        rw [Validity.append, hcount]
      rw [hdone]
      refine Outcome.frugal_done rfl ⟨⟨?_, ?_⟩, rfl⟩ <;> omega
    | false => exact frugal_firstNulls (by omega) hmax fun h => nomatch hfree h

section Leaves

variable {τ : Type}

/-- A leaf that reserves for its validity goes on with it. -/
theorem Spare.reserve_within (h : v.Spare k) (n : Nat) (m : Ledger) {whole : Validity → τ}
    {next : τ → Ledger → Outcome τ} {Q : τ → Prop}
    (hnext : ∀ v' m, v'.length = v.length → v'.Spare (max k n) → (next (whole v') m).Ensures Q) :
    (((v.reserve n m).map whole).andThen next).Ensures Q := by
  refine (Outcome.ensures_map (P := fun w => ∃ v', w = whole v' ∧ v'.length = v.length ∧
    v'.Spare (max k n)) ((h.reserve n m).imp fun v' h' => ⟨v', rfl, h'⟩)).andThen ?_
  rintro _ m' ⟨v', rfl, hlength, hspare⟩
  exact hnext v' m' hlength hspare

/-- A leaf that has room for its value asks for what its validity asks for. -/
theorem frugal_append_within [Maskable τ] (whole : Validity → τ)
    (hcount : ∀ v, unmasked (whole v) = unmasked v)
    (h : v.Spare (n + 1)) {valid : Bool} (hfree : free → valid = true) {Q : τ → Prop}
    (hQ : ∀ v', v'.Spare n → v'.length = v.length + 1 → Q (whole v')) :
    ((v.append valid m).map whole).Frugal m (unmasked v) free lax Q :=
  .boxed ((frugal_append h hfree).imp (fun v' h' => hQ v' h'.1 h'.2) id) hcount

end Leaves

end Validity

/-- An offset is too large for its word. -/
def Fault.IsTooLarge (fault : Fault) : Prop :=
  ∃ offset, fault = .invalidArgument (.offsetTooLarge offset)

namespace Offsets

variable {o : Offsets}

/-- There is room for `n` more offsets in the bytes that were granted already. -/
def Spare (n : Nat) (o : Offsets) : Prop := o.ends.Spare n

/-- Reserving slots makes room for their offsets, and takes none away. -/
theorem Spare.reserve (h : o.Spare k) (n : Nat) (m : Ledger) :
    (o.reserve n m).Ensures fun o' => o'.last = o.last ∧ o'.Spare (max k n) := by
  unfold Offsets.reserve
  split
  · exact Outcome.ensures_stopped
  · rename_i bytes hbytes
    obtain rfl := Size.mul?_eq_some hbytes
    have hends := Buffer.Spare.reserve h n m
    rw [Nat.mul_comm] at hends
    exact Outcome.ensures_map (hends.imp fun ends hends' => ⟨rfl, hends'⟩)

/-- An offset that is not before the last one takes up the room of one, unless it is
too large. -/
theorem Spare.append (h : o.Spare (n + 1)) {stop : Nat} (hle : o.last ≤ stop) (m : Ledger) :
    (∃ fault, fault.IsTooLarge ∧ o.append stop m = .stopped o m fault) ∨
      ∃ o', o.append stop m = .done o' m ∧ o'.Spare n ∧ o'.last = stop := by
  unfold Offsets.append
  split
  · exact .inl ⟨_, ⟨stop, rfl⟩, rfl⟩
  · rw [if_neg (Int.not_lt.2 hle)]
    obtain ⟨ends, hpush, hspare⟩ := Buffer.Spare.push h (stop : Int) m
    rw [hpush]
    exact .inr ⟨_, rfl, hspare, rfl⟩

end Offsets

namespace BooleanWriter

instance : Maskable BooleanWriter := ⟨fun w => unmasked w.validity⟩

variable {w : BooleanWriter}

/-- There is room for `n` more values and their flags in what was granted already. -/
structure Spare (n : Nat) (w : BooleanWriter) : Prop where
  values : w.values.Spare n
  validity : w.validity.Spare n

/-- Reserving slots makes room for them, and takes none away. -/
theorem Spare.reserve (h : w.Spare k) (n : Nat) (m : Ledger) :
    (w.reserve n m).Ensures fun w' => w'.length = w.length ∧ w'.Spare (max k n) := by
  refine h.validity.reserve_within n m fun validity m' hlength hvalidity => ?_
  exact Outcome.ensures_map ((h.values.reserve n m').imp fun values hv =>
    ⟨hlength, hv.2, hvalidity⟩)

/-- Adding a value where there is room for `n + 1` asks for nothing but a mask and leaves room for
`n`. -/
theorem frugal_append (h : w.Spare (n + 1)) {value : Option Bool} (hfree : free → value.isSome) :
    (w.append value m).Frugal m (unmasked w) free lax fun w' =>
      w'.Spare n ∧ w'.length = w.length + 1 := by
  obtain ⟨values, happend, hvalues, -⟩ := h.values.append (value.getD false) m
  rw [BooleanWriter.append, add, happend]
  exact Validity.frugal_append_within (BooleanWriter.mk values) (fun _ => rfl) h.validity hfree
    fun validity hspare hlength => ⟨⟨hvalues, hspare⟩, hlength⟩

end BooleanWriter

namespace NumberWriter

variable {kind : NumberType}

instance : Maskable (NumberWriter kind) := ⟨fun w => unmasked w.validity⟩

variable {w : NumberWriter kind}

/-- There is room for `n` more values and their flags in what was granted already. -/
structure Spare (n : Nat) (w : NumberWriter kind) : Prop where
  values : w.values.Spare n
  validity : w.validity.Spare n

/-- Reserving slots makes room for them, and takes none away. -/
theorem Spare.reserve (h : w.Spare k) (n : Nat) (m : Ledger) :
    (w.reserve n m).Ensures fun w' => w'.length = w.length ∧ w'.Spare (max k n) := by
  refine h.validity.reserve_within n m fun validity m' hlength hvalidity => ?_
  split
  · exact Outcome.ensures_stopped
  · rename_i bytes hbytes
    obtain rfl := Size.mul?_eq_some hbytes
    have hvalues := h.values.reserve n m'
    rw [Nat.mul_comm] at hvalues
    exact Outcome.ensures_map (hvalues.imp fun values hv => ⟨hlength, hv, hvalidity⟩)

/-- Adding a value where there is room for `n + 1` asks for nothing but a mask and leaves room for
`n`. -/
theorem frugal_append (h : w.Spare (n + 1)) {value : Option kind.Carrier}
    (hfree : free → value.isSome) :
    (w.append value m).Frugal m (unmasked w) free lax fun w' =>
      w'.Spare n ∧ w'.length = w.length + 1 := by
  obtain ⟨values, happend, hvalues⟩ := h.values.push (value.getD 0) m
  rw [NumberWriter.append, add, happend]
  exact Validity.frugal_append_within (NumberWriter.mk values) (fun _ => rfl) h.validity hfree
    fun validity hspare hlength => ⟨⟨hvalues, hspare⟩, hlength⟩

end NumberWriter

namespace Slots

instance : Maskable Slots := ⟨fun s => unmasked s.validity⟩

variable {s : Slots}

/-- There is room for `n` more slots, and the last one ends at `last`. -/
structure Spare (n last : Nat) (s : Slots) : Prop where
  validity : s.validity.Spare n
  offsets : s.offsets.Spare n
  last_eq : s.offsets.last = last

/-- Reserving slots makes room for them, and takes none away. -/
theorem Spare.reserve {last : Nat} (h : s.Spare k last) (n : Nat) (m : Ledger) :
    (s.reserve n m).Ensures fun s' => s'.length = s.length ∧ s'.Spare (max k n) last := by
  refine h.validity.reserve_within n m fun validity m' hlength hvalidity => ?_
  exact Outcome.ensures_map ((h.offsets.reserve n m').imp fun offsets ho =>
    ⟨hlength, hvalidity, ho.2, ho.1.trans h.last_eq⟩)

/-- A slot takes up the room of one, unless its end is too large. -/
theorem frugal_close {last stop : Nat} (h : s.Spare (n + 1) last) (hle : last ≤ stop)
    {valid : Bool} (hfree : free → valid = true)
    (hlax : ∀ fault : Fault, fault.IsTooLarge → lax fault) :
    (s.close stop valid m).Frugal m (unmasked s) free lax fun s' =>
      s'.Spare n stop ∧ s'.length = s.length + 1 := by
  have horder : s.offsets.last ≤ stop := by
    rw [h.last_eq]
    exact Int.ofNat_le.2 hle
  rw [close]
  obtain ⟨fault, hlarge, hstopped⟩ | ⟨offsets, happend, hoffsets, hlast⟩ :=
    h.offsets.append horder m
  · rw [hstopped]
    exact Outcome.frugal_stopped (hlax fault hlarge)
  · rw [happend]
    exact Validity.frugal_append_within (fun validity => Slots.mk validity offsets)
      (fun _ => rfl) h.validity hfree fun validity hspare hlength =>
        ⟨⟨hspare, hoffsets, hlast⟩, hlength⟩

/-- A slot without items ends where it starts. -/
theorem Spare.closeEmpty_eq {last : Nat} (h : s.Spare k last) (hlast : last ≤ Size.max)
    (valid : Bool) (m : Ledger) : s.closeEmpty valid m = s.close last valid m := by
  have hend : s.offsets.lastEnd = last := by rw [Offsets.lastEnd, h.last_eq, Int.toNat_natCast]
  rw [closeEmpty, close, Offsets.appendLength_eq (by rwa [hend]), hend, Nat.add_zero]

end Slots

end Columnar
