import Columnar.Chunk.Basic
import Columnar.Proofs.Buffer
import Columnar.Validity
/-!
# Bitmaps and validities stand for their flags

A bitmap is tidy when it has just the bytes that its bits need and every bit past the end is
zero.  Adding bits counts on that, and keeps it: `Bitmap.Tidy.append` for one bit at the end,
and `Bitmap.Tidy.appendMany` for a run of equal bits, whatever the places where it starts and
ends within a byte.  So a run is the same as its bits one by one, and what a bitmap stands for,
`Bitmap.bits`, never depends on how the bits were added.

`Validity.Shows` ties a validity to one flag for each slot: without a mask all flags are set,
and a mask has just the flags as its bits, one of which is not set.  So there is a mask exactly
when some slot is null, and the finished mask depends on the flags alone.  There are never more
slots than sizes.  Where slots take no memory nothing else bounds them than the count itself,
which breaks off before it would pass the largest size.
-/

namespace Columnar

namespace Bitmap

/-- The mask of one bit has just this bit. -/
theorem testBit_oneBit {k j : Nat} (hk : k < 8) (hj : j < 8) :
    ((1 : UInt8) <<< UInt8.ofNat k).toNat.testBit j = decide (k = j) := by
  have hall : ∀ k : Fin 8, ∀ j : Fin 8,
      ((1 : UInt8) <<< UInt8.ofNat k.val).toNat.testBit j.val = decide (k.val = j.val) := by
    decide
  exact hall ⟨k, hk⟩ ⟨j, hj⟩

/-- The mask of low bits has the bits below its size. -/
theorem testBit_lowBits {n j : Nat} (hn : n < 8) (hj : j < 8) :
    (lowBits n).toNat.testBit j = decide (j < n) := by
  have hall : ∀ n : Fin 8, ∀ j : Fin 8,
      (lowBits n.val).toNat.testBit j.val = decide (j.val < n.val) := by
    decide
  exact hall ⟨n, hn⟩ ⟨j, hj⟩

/-- The opposite mask has the other bits of a byte. -/
theorem testBit_not_lowBits {n j : Nat} (hn : n < 8) (hj : j < 8) :
    (~~~lowBits n).toNat.testBit j = decide (n ≤ j) := by
  have hall : ∀ n : Fin 8, ∀ j : Fin 8,
      (~~~lowBits n.val).toNat.testBit j.val = decide (n.val ≤ j.val) := by
    decide
  exact hall ⟨n, hn⟩ ⟨j, hj⟩

/-- Past the last byte every bit counts as zero. -/
theorem bitAt_of_length_le {bytes : List UInt8} {i : Nat} (h : 8 * bytes.length ≤ i) :
    bitAt bytes i = false := by
  have hnone : bytes[i / 8]? = none := List.getElem?_eq_none (by omega)
  simp [bitAt, List.getD_eq_getElem?_getD, hnone]

/-- Setting the bits of a mask in one byte. -/
theorem bitAt_modify_or (bytes : List UInt8) (k : Nat) (mask : UInt8) (i : Nat) :
    bitAt (bytes.modify k (· ||| mask)) i =
      (bitAt bytes i ||
        (decide (i / 8 = k ∧ k < bytes.length) && mask.toNat.testBit (i % 8))) := by
  unfold bitAt
  rw [List.getD_eq_getElem?_getD, List.getD_eq_getElem?_getD, List.getElem?_modify]
  by_cases hk : i / 8 = k
  · subst hk
    by_cases hin : i / 8 < bytes.length
    · simp [hin, UInt8.toNat_or, Nat.testBit_or]
    · simp [hin]
  · have hk' : ¬ k = i / 8 := fun h => hk h.symm
    simp [hk, hk']

/-- Keeping the bits of a mask in one byte. -/
theorem bitAt_modify_and (bytes : List UInt8) (k : Nat) (mask : UInt8) (i : Nat) :
    bitAt (bytes.modify k (· &&& mask)) i =
      (bitAt bytes i && (decide (i / 8 ≠ k) || mask.toNat.testBit (i % 8))) := by
  unfold bitAt
  rw [List.getD_eq_getElem?_getD, List.getD_eq_getElem?_getD, List.getElem?_modify]
  by_cases hk : i / 8 = k
  · subst hk
    by_cases hin : i / 8 < bytes.length
    · simp [hin, UInt8.toNat_and, Nat.testBit_and]
    · simp [List.getElem?_eq_none (Nat.le_of_not_lt hin)]
  · have hk' : ¬ k = i / 8 := fun h => hk h.symm
    simp [hk, hk']

/-- The bits of bytes before and after a join. -/
theorem bitAt_append (bytes more : List UInt8) (i : Nat) :
    bitAt (bytes ++ more) i =
      if i < 8 * bytes.length then bitAt bytes i else bitAt more (i - 8 * bytes.length) := by
  unfold bitAt
  rw [List.getD_eq_getElem?_getD, List.getD_eq_getElem?_getD, List.getD_eq_getElem?_getD]
  split
  · rename_i hin
    rw [List.getElem?_append_left (by omega)]
  · rename_i hout
    have hdiv : (i - 8 * bytes.length) / 8 = i / 8 - bytes.length := by omega
    have hmod : (i - 8 * bytes.length) % 8 = i % 8 := by omega
    rw [List.getElem?_append_right (by omega), hdiv, hmod]

/-- Bytes of zeros have no bits. -/
theorem bitAt_zeros (n i : Nat) : bitAt (List.replicate n 0) i = false := by
  unfold bitAt
  rw [List.getD_eq_getElem?_getD, List.getElem?_replicate]
  split <;> simp

/-- Bytes of zeros at the end change no bit. -/
theorem bitAt_append_zeros (bytes : List UInt8) (n i : Nat) :
    bitAt (bytes ++ List.replicate n 0) i = bitAt bytes i := by
  rw [bitAt_append, bitAt_zeros]
  split
  · rfl
  · exact (bitAt_of_length_le (by omega)).symm

/-- One bit is set, in a byte that is there. -/
theorem bitAt_setBit {bytes : Buffer UInt8 1} {place : Nat}
    (hroom : place / 8 < bytes.items.length) (i : Nat) :
    bitAt (setBit bytes place).items i = (bitAt bytes.items i || decide (i = place)) := by
  have hplace : (decide (i / 8 = place / 8 ∧ place / 8 < bytes.items.length) &&
      decide (place % 8 = i % 8)) = decide (i = place) := by
    rw [← Bool.decide_and]
    refine decide_eq_decide.2 ⟨?_, ?_⟩
    · intro hi
      omega
    · intro hi
      subst hi
      exact ⟨⟨rfl, hroom⟩, rfl⟩
  rw [setBit, Buffer.modify, bitAt_modify_or, testBit_oneBit (by omega) (by omega), hplace]

/-- Bytes of ones have all bits. -/
theorem bitAt_ones (n i : Nat) : bitAt (List.replicate n 0xff) i = decide (i < 8 * n) := by
  have hall : ∀ j : Fin 8, (0xff : UInt8).toNat.testBit j.val = true := by decide
  unfold bitAt
  rw [List.getD_eq_getElem?_getD, List.getElem?_replicate]
  by_cases hin : i < 8 * n
  · have hbyte : i / 8 < n := by omega
    simpa [hin, hbyte] using hall ⟨i % 8, by omega⟩
  · have hbyte : ¬ i / 8 < n := by omega
    simp [hin, hbyte]

/-- There are just the bytes that the bits need. -/
def Exact (b : Bitmap) : Prop := b.bytes.items.length = bytesFor b.length

/-- There are just the bytes that the bits need, and only zeros past the end. -/
structure Tidy (b : Bitmap) : Prop where
  bytes_length : b.bytes.items.length = bytesFor b.length
  clear : ∀ i, b.length ≤ i → bitAt b.bytes.items i = false
  length_le : b.length ≤ Size.max
  bounded : b.bytes.Bounded

theorem Tidy.exact {b : Bitmap} (h : b.Tidy) : b.Exact := h.bytes_length

/-- A bitmap stands for as many bits as it counts. -/
@[simp] theorem length_bits (b : Bitmap) : b.bits.length = b.length := by
  simp [bits]

/-- A longer bitmap with the same bits and then equal ones has them at its end. -/
theorem bits_eq_append {b b' : Bitmap} (bit : Bool) {n : Nat} (hlength : b'.length = b.length + n)
    (hold : ∀ i < b.length, bitAt b'.bytes.items i = bitAt b.bytes.items i)
    (hnew : ∀ i, b.length ≤ i → i < b.length + n → bitAt b'.bytes.items i = bit) :
    b'.bits = b.bits ++ List.replicate n bit := by
  apply List.ext_getElem
  · simp [hlength]
  · intro i hi hi'
    have hlt : i < b.length + n := by simpa [hlength] using hi
    by_cases hin : i < b.length
    · rw [List.getElem_append_left (by simpa using hin)]
      simpa [bits] using hold i hin
    · rw [List.getElem_append_right (by simpa using hin)]
      simpa [bits] using hnew i (by omega) hlt

/-- A new bitmap has no bits and no bytes, so it is tidy. -/
theorem tidy_new {capacity : Nat} {m m' : Ledger} {b : Bitmap}
    (h : Bitmap.new capacity m = (.ok b, m')) : b.Tidy ∧ b.bits = [] := by
  rw [new_eq] at h
  obtain ⟨bytes, hnew, rfl⟩ := Made.eq_ok_of_map h
  obtain ⟨hbounded, hitems⟩ := Buffer.bounded_new hnew
  refine ⟨⟨by simp [hitems, bytesFor], ?_, by simp [Size.max], hbounded⟩, by simp [bits]⟩
  intro i _
  simp [hitems, bitAt]

/-- The bitmap without memory is tidy. -/
theorem tidy_empty : Tidy {} := by
  refine ⟨rfl, ?_, by simp, ⟨by simp [Buffer.byteLength], by simp [Buffer.room], rfl⟩⟩
  intro i _
  simp [bitAt]

/-- Reserving leaves the bits of a bitmap alone, and keeps it tidy. -/
theorem Tidy.reserve {b : Bitmap} (h : b.Tidy) (n : Nat) (m : Ledger) :
    (b.reserve n m).value.Tidy ∧ (b.reserve n m).value.bits = b.bits := by
  unfold Bitmap.reserve
  split
  · exact ⟨h, rfl⟩
  · rename_i length hlength
    have hitems := Buffer.items_reserve b.bytes (bytesFor length - b.bytes.items.length) m
    have hbounded := h.bounded.reserve (bytesFor length - b.bytes.items.length) m
    refine ⟨⟨?_, ?_, h.length_le, hbounded⟩, ?_⟩
    · simpa [hitems] using h.bytes_length
    · simpa [hitems] using h.clear
    · simp [bits, hitems]

/-- A longer bitmap is tidy when it has the bytes it needs, the old bits, and
equal bits after them. -/
private theorem tidy_append {b : Bitmap} (h : b.Tidy) (bit : Bool) {n : Nat}
    {bytes : Buffer UInt8 1} (hbounded : bytes.Bounded) (hmax : b.length + n ≤ Size.max)
    (hlength : bytes.items.length = bytesFor (b.length + n))
    (hbits : ∀ i, bitAt bytes.items i =
      (bitAt b.bytes.items i || (bit && decide (b.length ≤ i ∧ i < b.length + n)))) :
    Tidy ⟨bytes, b.length + n⟩ ∧
      bits ⟨bytes, b.length + n⟩ = b.bits ++ List.replicate n bit := by
  refine ⟨⟨hlength, ?_, hmax, hbounded⟩, ?_⟩
  · intro i hi
    have hpast : b.length + n ≤ i := hi
    have hnone : ¬(b.length ≤ i ∧ i < b.length + n) := by omega
    simp only [hbits, h.clear i (by omega), decide_eq_false hnone, Bool.and_false, Bool.or_false]
  · refine bits_eq_append bit rfl ?_ ?_
    · intro i hi
      have hnone : ¬(b.length ≤ i ∧ i < b.length + n) := by omega
      simp only [hbits, decide_eq_false hnone, Bool.and_false, Bool.or_false]
    · intro i hi hi'
      simp [hbits, h.clear i hi, hi, hi']

/-- A bit that is added to a tidy bitmap is its last bit, and the bitmap is tidy again. -/
theorem Tidy.append {b : Bitmap} (h : b.Tidy) (bit : Bool) (m : Ledger) :
    (b.append bit m).Ensures fun b' => b'.Tidy ∧ b'.bits = b.bits ++ [bit] := by
  unfold Bitmap.append
  split
  · exact Outcome.ensures_stopped
  rename_i length hlength
  obtain ⟨rfl, hmax⟩ := Size.add?_eq_some hlength
  have hbytes := h.bytes_length
  have hlonger : b.bytes.items.length ≤ bytesFor (b.length + 1) := by
    rw [hbytes]
    exact Nat.div_le_div_right (by omega)
  refine (Outcome.ensures_map (P := fun b' : Bitmap => b'.length = b.length ∧
    b'.bytes.Bounded ∧ b'.bytes.items = b.bytes.items ++
      List.replicate (bytesFor (b.length + 1) - b.bytes.items.length) 0) ?_).andThen ?_
  · exact (h.bounded.resize hlonger 0 m).imp fun bytes hb => ⟨rfl, hb⟩
  rintro b₁ m₁ ⟨hsame, hbounded, hitems⟩
  have hcount : b₁.bytes.items.length = bytesFor (b.length + 1) := by
    rw [hitems, List.length_append, List.length_replicate]
    omega
  have hroom : b.length / 8 < b₁.bytes.items.length := by
    rw [hcount, bytesFor]
    omega
  apply Outcome.ensures_done
  rw [hsame]
  refine tidy_append h bit ?_ hmax ?_ ?_
  · cases bit with
    | false => exact hbounded
    | true => exact hbounded.shrink (by simp)
  · cases bit <;> simpa [setBit, Buffer.modify] using hcount
  · intro i
    have hplace : (b.length ≤ i ∧ i < b.length + 1) ↔ i = b.length := by omega
    -- The bit is set if it is a one and is zero already if it is not.
    cases bit with
    | false =>
      rw [if_neg Bool.false_ne_true, hitems, bitAt_append_zeros, Bool.false_and, Bool.or_false]
    | true =>
      rw [if_pos rfl, bitAt_setBit hroom, hitems, bitAt_append_zeros, Bool.true_and,
        decide_eq_decide.2 hplace]

/-- The bits past the end of the last byte are set, and nothing else changes. -/
theorem Exact.padded {b : Bitmap} (h : b.Exact) :
    b.padded.items.length = bytesFor b.length ∧
      ∀ i, bitAt b.padded.items i =
        (bitAt b.bytes.items i || decide (b.length ≤ i ∧ i < 8 * bytesFor b.length)) := by
  have hbytes : b.bytes.items.length = bytesFor b.length := h
  unfold Bitmap.padded
  by_cases haligned : b.length % 8 = 0
  · have hfull : 8 * bytesFor b.length = b.length := by
      rw [bytesFor]
      omega
    have hitems : (b.bytes.truncate (bytesFor b.length)).items = b.bytes.items :=
      List.take_of_length_le (by omega)
    simp only [if_pos haligned]
    refine ⟨by rw [hitems, hbytes], ?_⟩
    intro i
    have hnone : ¬(b.length ≤ i ∧ i < 8 * bytesFor b.length) := by omega
    rw [hitems, decide_eq_false hnone, Bool.or_false]
  · have hlast : b.bytes.items.length - 1 = b.length / 8 := by
      rw [hbytes, bytesFor]
      omega
    have hcount : bytesFor b.length = b.length / 8 + 1 := by
      rw [bytesFor]
      omega
    have hitems : ((b.bytes.modifyLast (· ||| ~~~lowBits (b.length % 8))).truncate
        (bytesFor b.length)).items =
        b.bytes.items.modify (b.length / 8) (· ||| ~~~lowBits (b.length % 8)) := by
      simp only [Buffer.truncate, Buffer.modifyLast, Buffer.modify, hlast]
      exact List.take_of_length_le (by rw [List.length_modify]; omega)
    simp only [if_neg haligned]
    refine ⟨by rw [hitems, List.length_modify, hbytes], ?_⟩
    intro i
    rw [hitems, bitAt_modify_or, testBit_not_lowBits (by omega) (by omega), ← Bool.decide_and]
    congr 1
    exact decide_eq_decide.2 (by omega)

/-- Setting the bits past the end takes no memory. -/
theorem loan_padded (b : Bitmap) : b.padded.loan = b.bytes.loan := by
  unfold Bitmap.padded
  split <;> rfl

/-- The bytes are bounded with the bits past the end set. -/
theorem Tidy.bounded_padded {b : Bitmap} (h : b.Tidy) : b.padded.Bounded := by
  have hbytes := h.bytes_length
  have hlength := h.exact.padded.1
  have hshrunk : (⟨b.padded.items, b.bytes.loan⟩ : Buffer UInt8 1).Bounded :=
    h.bounded.shrink (by omega)
  rwa [← loan_padded] at hshrunk

/-- The bits from the end on are cleared, and nothing else changes. -/
theorem bitAt_clearedPast {bytes : Buffer UInt8 1} {n : Nat}
    (hlength : bytes.items.length = bytesFor n) (i : Nat) :
    bitAt (clearedPast bytes n).items i = (bitAt bytes.items i && decide (i < n)) := by
  have hpast : 8 * bytesFor n ≤ i → bitAt bytes.items i = false :=
    fun h => bitAt_of_length_le (by omega)
  unfold clearedPast
  by_cases haligned : n % 8 = 0
  · rw [if_pos haligned]
    by_cases hin : i < n
    · simp [hin]
    · have hclear : bitAt bytes.items i = false := hpast (by rw [bytesFor]; omega)
      simp [hclear]
  · have hlast : bytes.items.length - 1 = n / 8 := by
      rw [hlength, bytesFor]
      omega
    rw [if_neg haligned]
    simp only [Buffer.modifyLast, Buffer.modify, hlast]
    rw [bitAt_modify_and, testBit_lowBits (by omega) (by omega), ← Bool.decide_or]
    by_cases hin : i < 8 * bytesFor n
    · congr 1
      have hcount : bytesFor n = n / 8 + 1 := by
        rw [bytesFor]
        omega
      exact decide_eq_decide.2 (by omega)
    · rw [hpast (by omega), Bool.false_and, Bool.false_and]

/-- A run of equal bits is added at the end. -/
theorem Tidy.appendMany {b : Bitmap} (h : b.Tidy) (bit : Bool) (n : Nat) (m : Ledger) :
    (b.appendMany bit n m).Ensures fun b' =>
      b'.Tidy ∧ b'.bits = b.bits ++ List.replicate n bit := by
  unfold Bitmap.appendMany
  split
  · exact Outcome.ensures_stopped
  rename_i length hlength
  obtain ⟨rfl, hmax⟩ := Size.add?_eq_some hlength
  have hbytes := h.bytes_length
  have hmore : bytesFor b.length ≤ bytesFor (b.length + n) := Nat.div_le_div_right (by omega)
  cases bit with
  | true =>
    obtain ⟨hpadded, hset⟩ := h.exact.padded
    rw [if_pos rfl]
    refine (Outcome.ensures_map (P := fun b' : Bitmap => b'.bytes.Bounded ∧
      b'.bytes.items = b.padded.items ++
        List.replicate (bytesFor (b.length + n) - b.padded.items.length) 0xff) ?_).andThen ?_
    · exact h.bounded_padded.resize (by omega) 0xff m
    rintro b₁ m₁ ⟨hbounded₁, hitems⟩
    have hcount : b₁.bytes.items.length = bytesFor (b.length + n) := by
      rw [hitems, List.length_append, List.length_replicate]
      omega
    apply Outcome.ensures_done
    refine tidy_append h true ?_ hmax ?_ ?_
    · unfold clearedPast
      split
      · exact hbounded₁
      · exact hbounded₁.shrink (by simp)
    · unfold clearedPast
      split
      · exact hcount
      · simpa [Buffer.modifyLast, Buffer.modify] using hcount
    · intro i
      -- Ones up to the end of the last byte, and then only those before the new end.
      rw [bitAt_clearedPast hcount, hitems, bitAt_append, bitAt_ones, hset, hpadded]
      have hold : b.length ≤ i → bitAt b.bytes.items i = false := h.clear i
      by_cases hi : b.length ≤ i
      · have hsize : b.length + n ≤ 8 * bytesFor (b.length + n) := by
          rw [bytesFor]
          omega
        rw [hold hi]
        split <;> simp only [Bool.false_or, Bool.true_and, ← Bool.decide_and] <;>
          exact decide_eq_decide.2 (by omega)
      · have hin : i < 8 * bytesFor b.length := by
          rw [bytesFor]
          omega
        have hlt : i < b.length + n := by omega
        simp [hin, hi, hlt]
  | false =>
    simp only [Bool.false_eq_true, if_false]
    split
    · rename_i henough
      refine Outcome.ensures_done (tidy_append h false h.bounded hmax ?_ ?_)
      · omega
      · simp
    · refine (Outcome.ensures_map (P := fun b' : Bitmap => b'.bytes.Bounded ∧
        b'.bytes.items = b.bytes.items ++
          List.replicate (bytesFor (b.length + n) - b.bytes.items.length) 0) ?_).andThen ?_
      · exact h.bounded.resize (by omega) 0 m
      rintro b₁ m₁ ⟨hbounded₁, hitems⟩
      apply Outcome.ensures_done
      refine tidy_append h false hbounded₁ hmax ?_ ?_
      · rw [hitems, List.length_append, List.length_replicate]
        omega
      · intro i
        rw [hitems, bitAt_append_zeros, Bool.false_and, Bool.or_false]

end Bitmap

namespace Validity

/-- One flag for each slot, set where the slot is valid; a mask marks a null. -/
def Shows : Validity → List Bool → Prop
  | allValid slots _, flags => flags = List.replicate slots true ∧ slots ≤ Size.max
  | mask bits, flags => bits.Tidy ∧ bits.bits = flags ∧ false ∈ flags

/-- A validity counts one slot for each of its flags. -/
theorem Shows.length_eq {v : Validity} {flags : List Bool} (h : v.Shows flags) :
    v.length = flags.length := by
  cases v with
  | allValid slots planned =>
    obtain ⟨rfl, -⟩ := h
    simp [Validity.length]
  | mask bits =>
    obtain ⟨-, rfl, -⟩ := h
    simp [Validity.length]

/-- A validity has no more flags than there are sizes, with a mask or without. -/
theorem Shows.length_le {v : Validity} {flags : List Bool} (h : v.Shows flags) :
    flags.length ≤ Size.max := by
  rw [← h.length_eq]
  cases v with
  | allValid slots planned => exact h.2
  | mask bits => exact h.1.length_le

/-- There are no more slots than sizes, if the flags are theirs. -/
theorem Shows.slots_le {α : Type} {v : Validity} {slots : List (Option α)}
    (h : v.Shows (slots.map Option.isSome)) : slots.length ≤ Size.max := by
  have hle := h.length_le
  rwa [List.length_map] at hle

/-- The finished mask is there exactly when some flag is not set. -/
theorem Shows.finish_eq {v : Validity} {flags : List Bool} (h : v.Shows flags) :
    v.finish = Chunk.keepIfNull (some flags) := by
  cases v with
  | allValid slots planned =>
    obtain ⟨rfl, -⟩ := h
    exact (Chunk.keepIfNull_of_not_mem (by simp)).symm
  | mask bits =>
    obtain ⟨-, hbits, hnull⟩ := h
    rw [Chunk.keepIfNull_of_mem hnull, Validity.finish, hbits]

/-- A new validity shows no slots, whatever number of them is planned. -/
theorem shows_new (capacity : Nat) : (Validity.new capacity).Shows [] :=
  ⟨rfl, Nat.zero_le _⟩

/-- Reserving leaves the flags alone, even where it fails. -/
theorem Shows.reserve {v : Validity} {flags : List Bool} (h : v.Shows flags) (n : Nat)
    (m : Ledger) : (v.reserve n m).value.Shows flags := by
  unfold Validity.reserve
  split
  · exact h
  · cases v with
    | allValid slots planned => exact h
    | mask bits =>
      obtain ⟨htidy, hbits, hnull⟩ := h
      obtain ⟨htidy', hbits'⟩ := htidy.reserve n m
      exact ⟨htidy', hbits'.trans hbits, hnull⟩

/-- A mask that is made is what comes of a bitmap without bits in three steps: room is
made, and bits are added for the slots so far and for the nulls. -/
theorem ensures_mask_firstNulls {slots n : Nat} {I J K : Bitmap → Prop}
    (hroom : ∀ k m, (Bitmap.reserve {} k m).Ensures I)
    (hones : ∀ bits m, I bits → (bits.appendMany true slots m).Ensures J)
    (hnulls : ∀ bits m, J bits → (bits.appendMany false n m).Ensures K) (planned : Nat)
    (m : Ledger) :
    (firstNulls slots planned n m).Ensures fun v => ∃ bits, v = mask bits ∧ K bits := by
  cases hsum : Size.add? slots n with
  | none =>
    simp only [firstNulls, hsum]
    exact Outcome.ensures_stopped
  | some total =>
    rw [firstNulls_eq hsum]
    have hmade := ((hroom (max planned total) m).andThen hones).andThen hnulls
    cases hfault : (((Bitmap.reserve {} (max planned total) m).andThen fun bits m =>
        bits.appendMany true slots m).andThen fun bits m => bits.appendMany false n m).fault with
    | none =>
      rw [Outcome.elim_of_none hfault]
      exact Outcome.ensures_done ⟨_, rfl, hmade hfault⟩
    | some fault =>
      rw [Outcome.elim_of_some hfault]
      exact Outcome.ensures_stopped

/-- The first nulls come after the slots before them. -/
theorem ensures_firstNulls {slots planned n : Nat} {m : Ledger} (hn : 0 < n) :
    (firstNulls slots planned n m).Ensures fun v =>
      v.Shows (List.replicate slots true ++ List.replicate n false) := by
  refine (ensures_mask_firstNulls
    (I := fun bits => bits.Tidy ∧ bits.bits = [])
    (J := fun bits => bits.Tidy ∧ bits.bits = List.replicate slots true)
    (K := fun bits =>
      bits.Tidy ∧ bits.bits = List.replicate slots true ++ List.replicate n false)
    ?_ ?_ ?_ planned m).imp ?_
  · exact fun k m _ => Bitmap.tidy_empty.reserve k m
  · rintro bits m ⟨hb, hbits⟩
    have hmany := hb.appendMany true slots m
    rwa [hbits, List.nil_append] at hmany
  · rintro bits m ⟨hb, hbits⟩
    have hmany := hb.appendMany false n m
    rwa [hbits] at hmany
  · rintro v ⟨bits, rfl, htidy, hshown⟩
    refine ⟨htidy, hshown, ?_⟩
    exact List.mem_append_right _ (List.mem_replicate.2 ⟨by omega, rfl⟩)

/-- Adding a slot that is valid or null to a validity adds its flag at the end of the flags:
where the addition comes to its end, all slots before it are as they were, and their number
with the new one is a size. -/
theorem Shows.append {v : Validity} {flags : List Bool} (h : v.Shows flags) (valid : Bool)
    (m : Ledger) : (v.append valid m).Ensures fun v' => v'.Shows (flags ++ [valid]) := by
  cases v with
  | mask bits =>
    obtain ⟨htidy, hbits, hnull⟩ := h
    refine Outcome.ensures_map ((htidy.append valid m).imp ?_)
    rintro bits' ⟨htidy', hbits'⟩
    exact ⟨htidy', by rw [hbits', hbits], List.mem_append_left _ hnull⟩
  | allValid slots planned =>
    obtain ⟨rfl, -⟩ := h
    cases valid with
    | true =>
      cases hsum : Size.add? slots 1 with
      | none =>
        simp only [Validity.append, hsum]
        exact Outcome.ensures_stopped
      | some total =>
        simp only [Validity.append, hsum]
        obtain ⟨rfl, hle⟩ := Size.add?_eq_some hsum
        exact Outcome.ensures_done ⟨List.replicate_succ'.symm, hle⟩
    | false => exact ensures_firstNulls (Nat.succ_pos 0)

end Validity

end Columnar
