import Columnar.Bank
import Columnar.Outcome
import Columnar.Proofs.Bitmap
import Columnar.Proofs.Refusals
import Columnar.Proofs.Spare
/-!
# Bits add up however they are added

A history of additions to a bitmap adds the bits of each of its operations, in order:
`Bitmap.Packs`.  A tidy bitmap is decided by its bits, down to its bytes, so histories with the
same bits lead to the same bytes.  It makes no difference whether equal bits came as a run or
one by one, where the runs started within a byte, for how many bits the bitmap was made, and
what was reserved.

A validity makes its mask with the first null: before that it only counts.  What it records is
what was added all the same: `Validity.Records`.  So it agrees with a bitmap that gets a bit
for every slot from the start.  The mask is asked for once.  If that is refused there is no
mask, nothing is lent for it, and the slots are what they were.
-/

namespace Columnar

/-- The bits that an operation adds, none if it only makes room. -/
def BitsOp.bits : BitsOp → List Bool
  | reserve _ => []
  | append bit => [bit]
  | appendMany bit n => List.replicate n bit

/-- The bits that the operations of a history add, one after the other. -/
def addedBits {σ : Type} (steps : List (Step BitsOp σ)) : List Bool :=
  (steps.map (·.op)).flatMap BitsOp.bits

/-- The last operation adds its bits at the end. -/
theorem addedBits_append_singleton {σ : Type} (steps : List (Step BitsOp σ))
    (s : Step BitsOp σ) : addedBits (steps ++ [s]) = addedBits steps ++ s.op.bits := by
  simp [addedBits]

namespace Bitmap

/-- An operation on a tidy bitmap adds its bits at the end. -/
theorem Tidy.ensures_run {b : Bitmap} (h : b.Tidy) (op : BitsOp) (m : Ledger) :
    (op.runBitmap b m).Ensures fun b' => b'.Tidy ∧ b'.bits = b.bits ++ op.bits := by
  cases op with
  | reserve n =>
    obtain ⟨htidy, hbits⟩ := h.reserve n m
    intro _
    exact ⟨htidy, hbits.trans (List.append_nil _).symm⟩
  | append bit => exact h.append bit m
  | appendMany bit n => exact h.appendMany bit n m

/-- A smooth history on a tidy bitmap adds its bits at the end. -/
theorem Tidy.of_history {start b : Bitmap} (h : start.Tidy) {steps : List (Step BitsOp Bitmap)}
    (hsteps : History BitsOp.runBitmap start steps b) (hok : Smooth BitsOp.runBitmap steps) :
    b.Tidy ∧ b.bits = start.bits ++ addedBits steps := by
  induction hsteps with
  | here => exact ⟨h, (List.append_nil _).symm⟩
  | step op m _ ih =>
    obtain ⟨hearlier, hlast⟩ := smooth_append_singleton.1 hok
    obtain ⟨htidy, hbits⟩ := ih hearlier
    obtain ⟨htidy', hbits'⟩ := htidy.ensures_run op m hlast
    refine ⟨htidy', ?_⟩
    rw [hbits', hbits, addedBits_append_singleton, List.append_assoc]

/-- Bit `i` of a tidy bitmap is read off its bits; past the end there are only
zeros. -/
theorem Tidy.bitAt_eq {b : Bitmap} (h : b.Tidy) (i : Nat) :
    bitAt b.bytes.items i = b.bits.getD i false := by
  by_cases hin : i < b.length
  · simp [bits, hin]
  · have hnone : b.bits[i]? = none := List.getElem?_eq_none (by simpa using hin)
    rw [h.clear i (Nat.le_of_not_lt hin), List.getD_eq_getElem?_getD, hnone, Option.getD_none]

/-- Equally many bytes that have the same bit at each place are the same bytes. -/
theorem ext_bitAt {bytes bytes' : List UInt8} (hlength : bytes.length = bytes'.length)
    (h : ∀ i, bitAt bytes i = bitAt bytes' i) : bytes = bytes' := by
  apply List.ext_getElem hlength
  intro k hk hk'
  apply UInt8.toNat_inj.1
  apply Nat.eq_of_testBit_eq
  intro j
  by_cases hj : j < 8
  · have hdiv : (8 * k + j) / 8 = k := by omega
    have hmod : (8 * k + j) % 8 = j := by omega
    have hbit := h (8 * k + j)
    simpa [bitAt, hdiv, hmod, hk, hk'] using hbit
  · have hlarge : 2 ^ 8 ≤ 2 ^ j := Nat.pow_le_pow_right (by decide) (Nat.le_of_not_lt hj)
    rw [Nat.testBit_lt_two_pow (Nat.lt_of_lt_of_le bytes[k].toNat_lt hlarge),
      Nat.testBit_lt_two_pow (Nat.lt_of_lt_of_le bytes'[k].toNat_lt hlarge)]

/-- Tidy bitmaps with the same bits have the same bytes. -/
theorem Tidy.bytes_eq {b b' : Bitmap} (h : b.Tidy) (h' : b'.Tidy) (hbits : b.bits = b'.bits) :
    b.bytes.items = b'.bytes.items := by
  have hlength : b.length = b'.length := by
    rw [← length_bits, hbits, length_bits]
  refine ext_bitAt ?_ fun i => ?_
  · rw [h.bytes_length, h'.bytes_length, hlength]
  · rw [h.bitAt_eq, h'.bitAt_eq, hbits]

/-- What a smooth history on a new bitmap leads to: just the bytes that the added
bits need, with zeros past the end, and these bits.

Any other smooth history that adds the same bits, on a bitmap made for any
capacity, leads to the same bytes.  So does adding `n` equal bits one by one
instead of as a run. -/
theorem packs_of_history {capacity : Nat} {m m' : Ledger} {start b : Bitmap}
    {steps : List (Step BitsOp Bitmap)} (hnew : new capacity m = (.ok start, m'))
    (hsteps : History BitsOp.runBitmap start steps b) (hok : Smooth BitsOp.runBitmap steps) :
    b.length = (addedBits steps).length ∧
      b.bytes.items.length = bytesFor b.length ∧
      (∀ i, b.length ≤ i → bitAt b.bytes.items i = false) ∧
      b.bits = addedBits steps ∧
      (∀ (capacity' : Nat) (n n' : Ledger) (start' b' : Bitmap)
          (steps' : List (Step BitsOp Bitmap)),
        new capacity' n = (.ok start', n') → History BitsOp.runBitmap start' steps' b' →
        Smooth BitsOp.runBitmap steps' → addedBits steps' = addedBits steps →
        b'.length = b.length ∧ b'.bytes.items = b.bytes.items) ∧
      ∀ (bit : Bool) (n : Nat) (m : Ledger) (singles : List (Step BitsOp Bitmap)) (b' : Bitmap),
        (b.appendMany bit n m).fault = none → History BitsOp.runBitmap b singles b' →
        Smooth BitsOp.runBitmap singles →
        singles.map (·.op) = List.replicate n (.append bit) →
        b'.length = (b.appendMany bit n m).value.length ∧
          b'.bytes.items = (b.appendMany bit n m).value.bytes.items := by
  have hsame {a a' : Bitmap} (ha : a.Tidy) (ha' : a'.Tidy) (hbits : a'.bits = a.bits) :
      a'.length = a.length ∧ a'.bytes.items = a.bytes.items :=
    ⟨by rw [← length_bits, hbits, length_bits], ha'.bytes_eq ha hbits⟩
  obtain ⟨hstart, hempty⟩ := tidy_new hnew
  obtain ⟨htidy, hbits⟩ := hstart.of_history hsteps hok
  rw [hempty, List.nil_append] at hbits
  refine ⟨by rw [← hbits, length_bits], htidy.bytes_length, htidy.clear, hbits, ?_, ?_⟩
  · intro capacity' n n' start' b' steps' hnew' hsteps' hok' hadded
    obtain ⟨hstart', hempty'⟩ := tidy_new hnew'
    obtain ⟨htidy', hbits'⟩ := hstart'.of_history hsteps' hok'
    refine hsame htidy htidy' ?_
    rw [hbits', hempty', List.nil_append, hadded, hbits]
  · intro bit n m singles b' hrun hsingles hok' hops
    obtain ⟨hmany, hmanyBits⟩ := htidy.appendMany bit n m hrun
    obtain ⟨htidy', hbits'⟩ := htidy.of_history hsingles hok'
    have hadded : addedBits singles = List.replicate n bit := by
      rw [addedBits, hops, List.flatMap_replicate]
      simp [BitsOp.bits]
    exact hsame hmany htidy' (by rw [hbits', hmanyBits, hadded])

/-- A new bitmap with room for a number of bits, on a ledger without limit. -/
private def roomFor (capacity : Nat) : Bitmap :=
  match new capacity {} with
  | (.ok b, _) => b
  | (.error _, _) => {}

/-- Three ones, a zero and nine ones, in runs. -/
private def runs : List BitsOp := [.appendMany true 3, .append false, .appendMany true 9]

/-- The same bits one by one, with a reservation in between. -/
private def singles : List BitsOp :=
  List.replicate 3 (.append true) ++
    .append false :: .reserve 5000 :: List.replicate 9 (.append true)

/-- Runs that start and end within a byte leave the same two bytes as their bits
one by one, on a bitmap made for more bits and with more reserved. -/
theorem packs_of_runs :
    (leftBy BitsOp.runBitmap (roomFor 0) (callsOn {} runs)).bytes.items = [0xf7, 0x1f] ∧
      (leftBy BitsOp.runBitmap (roomFor 900) (callsOn {} singles)).bytes.items =
        (leftBy BitsOp.runBitmap (roomFor 0) (callsOn {} runs)).bytes.items := by
  have hnew : new 0 {} = (.ok (roomFor 0), _) := rfl
  have hnew' : new 900 {} = (.ok (roomFor 900), _) := rfl
  have hok : Smooth BitsOp.runBitmap (stepsOf BitsOp.runBitmap (roomFor 0) (callsOn {} runs)) := by
    decide
  have hok' : Smooth BitsOp.runBitmap
      (stepsOf BitsOp.runBitmap (roomFor 900) (callsOn {} singles)) := by
    decide
  have hadded : addedBits (stepsOf BitsOp.runBitmap (roomFor 900) (callsOn {} singles)) =
      addedBits (stepsOf BitsOp.runBitmap (roomFor 0) (callsOn {} runs)) := by
    rw [addedBits, addedBits, ops_stepsOf, ops_stepsOf]
    rfl
  obtain ⟨-, -, -, -, hsame, -⟩ := packs_of_history hnew (history_of_calls _ _) hok
  exact ⟨by decide, (hsame 900 {} _ _ _ _ hnew' (history_of_calls _ _) hok' hadded).2⟩

end Bitmap

namespace Validity

variable {v : Validity} {flags : List Bool}

/-- A run of equal slots that is added to a validity comes behind the slots that it shows so far. -/
theorem Shows.appendMany (h : v.Shows flags) (valid : Bool) (n : Nat) (m : Ledger) :
    (v.appendMany valid n m).Ensures fun v' => v'.Shows (flags ++ List.replicate n valid) := by
  unfold Validity.appendMany
  split
  · rename_i hn
    subst hn
    exact Outcome.ensures_done (by simpa using h)
  · rename_i hn
    cases v with
    | mask bits =>
      obtain ⟨htidy, hbits, hnull⟩ := h
      refine Outcome.ensures_map ((htidy.appendMany valid n m).imp fun bits' hbits' => ?_)
      obtain ⟨htidy', hadded⟩ := hbits'
      exact ⟨htidy', by rw [hadded, hbits], List.mem_append_left _ hnull⟩
    | allValid slots planned =>
      obtain ⟨rfl, hle⟩ := h
      cases valid with
      | false => exact ensures_firstNulls (Nat.pos_of_ne_zero hn)
      | true =>
        dsimp only
        split
        · exact Outcome.ensures_stopped
        · rename_i total htotal
          obtain ⟨rfl, hmax⟩ := Size.add?_eq_some htotal
          exact Outcome.ensures_done ⟨List.replicate_append_replicate, hmax⟩

/-- An operation that is done adds its own slots behind those that a validity shows so far. -/
theorem Shows.ensures_run (h : v.Shows flags) (op : BitsOp) (m : Ledger) :
    (op.runValidity v m).Ensures fun v' => v'.Shows (flags ++ op.bits) := by
  cases op with
  | reserve n =>
    intro _
    rw [BitsOp.bits, List.append_nil]
    exact h.reserve n m
  | append valid => exact h.append valid m
  | appendMany valid n => exact h.appendMany valid n m

/-- A smooth history from no slots shows what was added. -/
theorem shows_of_history {capacity : Nat} {steps : List (Step BitsOp Validity)}
    (hsteps : History BitsOp.runValidity (Validity.new capacity) steps v)
    (hok : Smooth BitsOp.runValidity steps) :
    v.Shows (addedBits steps) := by
  induction hsteps with
  | here => exact shows_new capacity
  | step op m _ ih =>
    obtain ⟨hearlier, hlast⟩ := smooth_append_singleton.1 hok
    rw [addedBits_append_singleton]
    exact (ih hearlier).ensures_run op m hlast

/-- What a validity tells of slots, one flag for each, set where the slot is valid. -/
structure Records (v : Validity) (flags : List Bool) : Prop where
  length : v.length = flags.length
  hasNulls_iff : v.hasNulls = true ↔ false ∈ flags
  bits : v.bits = flags
  /-- The finished mask is left out if no slot is null. -/
  finish : v.finish = if false ∈ flags then some flags else none

/-- What shows the flags tells of them. -/
theorem Shows.records (h : v.Shows flags) : v.Records flags := by
  have hlength := h.length_eq
  cases v with
  | allValid slots planned =>
    obtain ⟨rfl, -⟩ := h
    have hnone : false ∉ List.replicate slots true := by simp
    exact ⟨hlength, iff_of_false Bool.false_ne_true hnone, rfl, (if_neg hnone).symm⟩
  | mask bits =>
    obtain ⟨-, hbits, hnull⟩ := h
    refine ⟨hlength, iff_of_true rfl hnull, hbits, ?_⟩
    rw [if_pos hnull, Validity.finish, hbits]

/-- Without a mask an operation that stops leaves the slots as they were, after one request
at most. -/
theorem run_allValid_of_fault {slots planned : Nat} {op : BitsOp} {m : Ledger} {fault : Fault}
    (hfault : (op.runValidity (.allValid slots planned) m).fault = some fault) :
    ∃ sizes fault', sizes.length ≤ 1 ∧ op.runValidity (.allValid slots planned) m =
      .stopped (.allValid slots planned) (m.askAll sizes) fault' := by
  obtain ⟨slots', planned', hdone⟩ | ⟨fault', hstopped⟩ | ⟨n, hn, hnulls⟩ :=
    run_allValid_cases m slots planned op
  · rw [hdone] at hfault
    exact nomatch hfault
  · exact ⟨[], fault', Nat.zero_le _, hstopped⟩
  · rw [hnulls] at hfault ⊢
    by_cases hmax : slots + n ≤ Size.max
    · obtain ⟨size, bits, hdone, -⟩ | hstopped := firstNulls_cases hmax hn planned m
      · rw [hdone] at hfault
        exact nomatch hfault
      · obtain ⟨sizes, refusal, hle, hstopped⟩ := hstopped
        exact ⟨sizes, _, hle, hstopped⟩
    · have hword : Size.add? slots n = none := if_neg hmax
      exact ⟨[], _, Nat.zero_le _, by rw [firstNulls, hword]; rfl⟩

/-- A smooth history on a validity made for any number of slots records just the slots
that were added, as does a bitmap with a bit for every slot.  Any other history that
adds the same slots records the same.

Where a mask is still to be made, an operation that stops leaves the slots as they
were and without one; it asks once at most, and nothing is lent. -/
theorem records_of_history :
    (∀ {capacity : Nat} {v : Validity} {steps : List (Step BitsOp Validity)},
      History BitsOp.runValidity (Validity.new capacity) steps v →
      Smooth BitsOp.runValidity steps →
      v.Records (addedBits steps) ∧
        (∀ (capacity' : Nat) (m m' : Ledger) (start b : Bitmap)
            (steps' : List (Step BitsOp Bitmap)),
          Bitmap.new capacity' m = (.ok start, m') → History BitsOp.runBitmap start steps' b →
          Smooth BitsOp.runBitmap steps' → addedBits steps' = addedBits steps →
          v.length = b.length ∧ v.bits = b.bits ∧
            v.finish = if v.hasNulls then some b.bits else none) ∧
        ∀ (capacity' : Nat) (v' : Validity) (steps' : List (Step BitsOp Validity)),
          History BitsOp.runValidity (Validity.new capacity') steps' v' →
          Smooth BitsOp.runValidity steps' → addedBits steps' = addedBits steps →
          v'.length = v.length ∧ v'.hasNulls = v.hasNulls ∧ v'.finish = v.finish) ∧
      ∀ {v : Validity} {op : BitsOp} {m : Ledger} {fault : Fault}, v.hasNulls = false →
        (op.runValidity v m).fault = some fault →
        (op.runValidity v m).value = v ∧ (op.runValidity v m).ledger.SameLent m ∧
          ∃ sizes, sizes.length ≤ 1 ∧ (op.runValidity v m).ledger = m.askAll sizes := by
  refine ⟨fun {capacity v steps} hsteps hok => ?_, fun {v op m fault} hnone hfault => ?_⟩
  · have hrecords := (shows_of_history hsteps hok).records
    refine ⟨hrecords, ?_, ?_⟩
    · intro capacity' m m' start b steps' hnew hsteps' hok' hadded
      obtain ⟨hstart, hempty⟩ := Bitmap.tidy_new hnew
      obtain ⟨-, hbits⟩ := hstart.of_history hsteps' hok'
      rw [hempty, List.nil_append, hadded] at hbits
      refine ⟨by rw [hrecords.length, ← hbits, Bitmap.length_bits],
        hrecords.bits.trans hbits.symm, ?_⟩
      simp only [hrecords.finish, hbits, hrecords.hasNulls_iff]
    · intro capacity' v' steps' hsteps' hok' hadded
      have hrecords' := (shows_of_history hsteps' hok').records
      rw [hadded] at hrecords'
      refine ⟨hrecords'.length.trans hrecords.length.symm, ?_,
        hrecords'.finish.trans hrecords.finish.symm⟩
      exact Bool.eq_iff_iff.2 (hrecords'.hasNulls_iff.trans hrecords.hasNulls_iff.symm)
  · obtain ⟨slots, planned, rfl⟩ := exists_of_not_hasNulls hnone
    obtain ⟨hvalue, hledger⟩ := atomic_run_allValid m slots planned op fault hfault
    obtain ⟨sizes, fault', hle, hstopped⟩ := run_allValid_of_fault hfault
    exact ⟨hvalue, hledger, sizes, hle, by rw [hstopped]; rfl⟩

/-- Ten valid slots in a run, a null, and a valid slot. -/
private def lateNull : List BitsOp := [.appendMany true 10, .append false, .append true]

/-- The same slots in other portions, with room for some of them reserved. -/
private def portions : List BitsOp :=
  .reserve 300 :: List.replicate 10 (.append true) ++ [.appendMany false 1, .appendMany true 1]

/-- A validity that is made for no slots and one that is made for a hundred record the
same late null.  If the ledger has nothing to lend, the null is not there. -/
theorem records_of_late_null :
    (leftBy BitsOp.runValidity (.new 0) (callsOn {} lateNull)).finish =
        some (List.replicate 10 true ++ [false, true]) ∧
      (leftBy BitsOp.runValidity (.new 100) (callsOn {} portions)).finish =
        (leftBy BitsOp.runValidity (.new 0) (callsOn {} lateNull)).finish ∧
      (BitsOp.runValidity (.append false) (.allValid 10 0) { limit := some 0 }).value =
        .allValid 10 0 := by
  have hok : Smooth BitsOp.runValidity
      (stepsOf BitsOp.runValidity (.new 0) (callsOn {} lateNull)) := by
    decide
  have hok' : Smooth BitsOp.runValidity
      (stepsOf BitsOp.runValidity (.new 100) (callsOn {} portions)) := by
    decide
  have hadded : addedBits (stepsOf BitsOp.runValidity (.new 100) (callsOn {} portions)) =
      addedBits (stepsOf BitsOp.runValidity (.new 0) (callsOn {} lateNull)) := by
    rw [addedBits, addedBits, ops_stepsOf, ops_stepsOf]
    rfl
  have hfault : (BitsOp.runValidity (.append false) (.allValid 10 0) { limit := some 0 }).fault =
      some (.outOfMemory ⟨64, some 0⟩) := by
    decide
  obtain ⟨hrecords, -, hsame⟩ := records_of_history.1 (history_of_calls _ _) hok
  refine ⟨?_, (hsame 100 _ _ (history_of_calls _ _) hok' hadded).2.2,
    (records_of_history.2 rfl hfault).1⟩
  rw [hrecords.finish, addedBits, ops_stepsOf]
  decide

end Validity

end Columnar
