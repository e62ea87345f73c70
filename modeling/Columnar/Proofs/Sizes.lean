import Columnar.Proofs.Orderly
import Columnar.Proofs.Packing
import Columnar.Proofs.Traces
/-!
# Sizes are exact or refused

Adding slots makes just as many slots more, and ending a slot puts just the end that
was asked for: `Validity.Counts`, `Offsets.Places`.  What cannot be counted or placed is
refused at once and changes nothing.  Otherwise only memory may be lacking, and a ledger
without limit always has it.

Two sums are not checked.  Without a mask, one valid slot more than there are sizes breaks
off, and so does the end of a slot that is given by a length and passes the largest size.
-/

namespace Columnar

/-- The operation was granted all that it asked of a ledger without limit. -/
structure Outcome.Granted {σ : Type} (o : Outcome σ) (P : σ → Prop) : Prop where
  fault : o.fault = none
  limit : o.ledger.limit = none
  value : P o.value

section Rules

variable {σ τ : Type} {P Q : σ → Prop} {m : Ledger}

namespace Outcome

theorem granted_done {a : σ} (hlimit : m.limit = none) (h : P a) : (done a m).Granted P :=
  ⟨rfl, hlimit, h⟩

theorem Granted.map {R : τ → Prop} {o : Outcome σ} (h : o.Granted P) {whole : σ → τ}
    (hwhole : ∀ a, P a → R (whole a)) : (o.map whole).Granted R :=
  ⟨h.fault, h.limit, hwhole _ h.value⟩

theorem Granted.andThen {o : Outcome σ} (h : o.Granted P) {next : σ → Ledger → Outcome σ}
    (hnext : ∀ a m, m.limit = none → P a → (next a m).Granted Q) : (o.andThen next).Granted Q := by
  rw [andThen_of_none h.fault]
  exact hnext _ _ h.limit h.value

end Outcome

theorem Loan.granted_grow (loan : Loan) (n : Nat) (hlimit : m.limit = none) :
    (loan.grow n m).Granted fun _ => True := by
  obtain ⟨hfault, hkept⟩ := loan.grow_of_unlimited n hlimit
  exact ⟨hfault, hkept, trivial⟩

end Rules

namespace Buffer

variable {α : Type} {width : Nat} {m : Ledger}

theorem granted_reserve (b : Buffer α width) {bytes : Nat} (hlimit : m.limit = none)
    (hfits : b.byteLength + bytes ≤ maxRoom) : (b.reserve bytes m).Granted fun _ => True := by
  unfold Buffer.reserve
  split
  · exact Outcome.granted_done hlimit trivial
  · split
    · rename_i hnone
      exact absurd (roomFor?_eq_none_iff.1 hnone) (Nat.not_lt.2 hfits)
    · exact (b.loan.granted_grow _ hlimit).map fun _ _ => trivial

theorem granted_ensure (b : Buffer α width) {bytes : Nat} (hlimit : m.limit = none)
    (hfits : b.byteLength + bytes ≤ maxRoom) : (b.ensure bytes m).Granted fun _ => True := by
  unfold Buffer.ensure
  split
  · exact Outcome.granted_done hlimit trivial
  · split
    · rename_i hnone
      exact absurd (roomFor?_eq_none_iff.1 hnone) (Nat.not_lt.2 hfits)
    · exact (b.loan.granted_grow _ hlimit).map fun _ _ => trivial

theorem granted_resize (b : Buffer α width) {n : Nat} (item : α) (hlimit : m.limit = none)
    (hfits : width * n ≤ maxRoom) : (b.resize n item m).Granted fun _ => True := by
  unfold Buffer.resize
  split
  · exact Outcome.granted_done hlimit trivial
  · rename_i hlonger
    have hbytes : b.byteLength + width * (n - b.items.length) ≤ maxRoom := by
      rw [byteLength, ← Nat.mul_add]
      exact Nat.le_trans (Nat.mul_le_mul_left width (by omega)) hfits
    exact (b.granted_ensure hlimit hbytes).andThen fun _ _ hlimit _ =>
      Outcome.granted_done hlimit trivial

end Buffer

namespace Bitmap

variable {b : Bitmap} {m : Ledger} {n : Nat}

/-- The bytes of as many bits as there are sizes fit into a buffer. -/
theorem bytesFor_le (h : n ≤ Size.max) : 1 * bytesFor n ≤ Buffer.maxRoom := by
  simp only [bytesFor, Size.max, Buffer.maxRoom, Buffer.step] at *
  omega

/-- The bytes that bits need are granted where no limit refuses them and their number is one that a
buffer can have. -/
private theorem granted_bytes (bytes : Buffer UInt8 1) (byte : UInt8) (length : Nat)
    (hlimit : m.limit = none) (hmax : n ≤ Size.max) :
    ((bytes.resize (bytesFor n) byte m).map fun bytes => Bitmap.mk bytes length).Granted
      fun _ => True :=
  (bytes.granted_resize byte hlimit (bytesFor_le hmax)).map fun _ _ => trivial

theorem granted_append (bit : Bool) (hlimit : m.limit = none) (hmax : b.length + 1 ≤ Size.max) :
    (b.append bit m).Granted fun _ => True := by
  simp only [Bitmap.append, Size.add?, if_pos hmax]
  exact (granted_bytes b.bytes 0 b.length hlimit hmax).andThen fun _ _ hlimit _ =>
    Outcome.granted_done hlimit trivial

theorem granted_appendMany {length : Nat} (hlength : b.length = length) (bit : Bool)
    (hlimit : m.limit = none) (hmax : length + n ≤ Size.max) :
    (b.appendMany bit n m).Granted fun b' => b'.length = length + n := by
  subst hlength
  simp only [Bitmap.appendMany, Size.add?, if_pos hmax]
  cases bit with
  | true =>
    rw [if_pos rfl]
    exact (granted_bytes b.padded 0xff b.length hlimit hmax).andThen fun _ _ hlimit _ =>
      Outcome.granted_done hlimit rfl
  | false =>
    rw [if_neg Bool.false_ne_true]
    split
    · exact Outcome.granted_done hlimit rfl
    · exact (granted_bytes b.bytes 0 b.length hlimit hmax).andThen fun _ _ hlimit _ =>
        Outcome.granted_done hlimit rfl

/-- The first bits are granted room for all that can be counted. -/
theorem granted_reserve_empty (hlimit : m.limit = none) (hmax : n ≤ Size.max) :
    (Bitmap.reserve {} n m).Granted fun b => b.length = 0 := by
  have hsum : 0 + n ≤ Size.max := (Nat.zero_add n).symm ▸ hmax
  have hbytes : ({} : Buffer UInt8 1).byteLength + (bytesFor (0 + n) - 0) ≤ Buffer.maxRoom := by
    have hle := bytesFor_le hsum
    show 1 * 0 + (bytesFor (0 + n) - 0) ≤ Buffer.maxRoom
    omega
  simp only [Bitmap.reserve, Size.add?, if_pos hsum]
  exact (Buffer.granted_reserve {} hlimit hbytes).map fun _ _ => rfl

/-- No operation makes more bits than can be counted. -/
theorem length_run_le (h : b.length ≤ Size.max) (op : BitsOp) (m : Ledger) :
    (op.runBitmap b m).value.length ≤ Size.max := by
  cases hfault : (op.runBitmap b m).fault with
  | none =>
    cases op with
    | reserve n =>
      show (b.reserve n m).value.length ≤ Size.max
      rwa [length_eq (idle_reserve n b m)]
    | append bit =>
      obtain ⟨hlength, hmax⟩ := b.ensures_length_append bit m hfault
      exact hlength ▸ hmax
    | appendMany bit n =>
      obtain ⟨hlength, hmax⟩ := b.ensures_length_appendMany bit n m hfault
      exact hlength ▸ hmax
  | some fault =>
    obtain ⟨-, hvalue | ⟨n, -, hvalue, -⟩⟩ := value_of_fault hfault <;> rwa [hvalue]

end Bitmap

/-- The one addition that passes the largest size: a valid slot, without a mask. -/
def BitsOp.Passes (op : BitsOp) (v : Validity) : Prop :=
  op = .append true ∧ v.hasNulls = false ∧ v.length = Size.max

/-- The addition that passes the largest size breaks off before anything is done. -/
theorem BitsOp.Passes.run_eq {op : BitsOp} {v : Validity} (h : op.Passes v) (m : Ledger) :
    op.runValidity v m = .stopped v m (.brokenOff .sumTooLarge) := by
  obtain ⟨rfl, hnone, hlength⟩ := h
  obtain ⟨slots, planned, rfl⟩ := Validity.exists_of_not_hasNulls hnone
  have hword : Size.add? slots 1 = none := by
    rw [Size.add?, if_neg (by rw [show slots = Size.max from hlength]; decide)]
  simp only [BitsOp.runValidity, Validity.append, hword]

namespace Validity

variable {v : Validity} {op : BitsOp} {m : Ledger}

/-- An addition of slots counts exactly, or it changes nothing and says why. -/
structure Counts (op : BitsOp) (v : Validity) (m : Ledger) : Prop where
  reported : ∀ fault, (op.runValidity v m).fault = some fault → fault.isBreak = false
  exact : (op.runValidity v m).Ensures fun v' => v'.length = v.length + op.bits.length
  /-- Slots that cannot be counted are too many for any memory. -/
  refused : Size.max < v.length + op.bits.length →
    op.runValidity v m = .stopped v m (.outOfMemory .overflow)
  /-- Slots that can be counted are only refused by a limit. -/
  granted : v.length + op.bits.length ≤ Size.max → m.limit = none →
    (op.runValidity v m).fault = none

/-- The slots that a validity counts or has planned are sizes. -/
def Sized : Validity → Prop
  | allValid slots planned => slots ≤ Size.max ∧ planned ≤ Size.max
  | mask bits => bits.length ≤ Size.max

theorem Sized.length_le (h : v.Sized) : v.length ≤ Size.max := by
  cases v with
  | allValid slots planned => exact h.1
  | mask bits => exact h

/-- An addition that only counts slots and comes to its end counts them exactly. -/
theorem counts_of_done {v' : Validity} (hrun : op.runValidity v m = .done v' m)
    (hlength : v'.length = v.length + op.bits.length)
    (hmax : v.length + op.bits.length ≤ Size.max) : Counts op v m where
  reported := by
    rw [hrun]
    exact nofun
  exact := by
    rw [hrun]
    exact Outcome.ensures_done hlength
  refused hmore := absurd hmore (Nat.not_lt.2 hmax)
  granted _ _ := by
    rw [hrun]
    rfl

/-- Slots that cannot be counted are refused at once. -/
theorem counts_of_stopped (hrun : op.runValidity v m = .stopped v m (.outOfMemory .overflow))
    (hmore : Size.max < v.length + op.bits.length) : Counts op v m where
  reported := by
    rw [hrun]
    exact fun fault hfault => Option.some.inj hfault ▸ rfl
  exact := by
    rw [hrun]
    exact Outcome.ensures_stopped
  refused _ := hrun
  granted hmax := absurd hmax (Nat.not_le.2 hmore)

/-- Bits of a mask count exactly, or they change nothing. -/
theorem counts_mask {b : Bitmap} {o : Outcome Bitmap}
    (hrun : op.runValidity (.mask b) m = o.map mask) (horderly : o.Orderly fun _ => True)
    (hexact : o.Ensures fun b' => b'.length = b.length + op.bits.length)
    (hrefused : Size.max < b.length + op.bits.length → o = .stopped b m (.outOfMemory .overflow))
    (hgranted : b.length + op.bits.length ≤ Size.max → m.limit = none → o.fault = none) :
    Counts op (.mask b) m where
  reported := by
    rw [hrun]
    exact horderly.unbroken
  exact := by
    rw [hrun]
    exact Outcome.ensures_map hexact
  refused hmore := by
    rw [hrun, hrefused hmore]
    rfl
  granted hmax hlimit := by
    rw [hrun]
    exact hgranted hmax hlimit

/-- The first nulls count exactly, or they change nothing. -/
theorem counts_firstNulls {slots planned n : Nat} (hplanned : planned ≤ Size.max)
    (hbits : op.bits.length = n)
    (hrun : op.runValidity (.allValid slots planned) m = firstNulls slots planned n m) :
    Counts op (.allValid slots planned) m where
  reported := by
    rw [hrun]
    exact (orderly_firstNulls m slots planned n).unbroken
  exact := by
    rw [hrun, hbits]
    exact (ensures_length_firstNulls slots planned n m).imp fun _ h => h.1
  refused hmore := by
    rw [hbits] at hmore
    have hword : Size.add? slots n = none := if_neg (Nat.not_le.2 hmore)
    rw [hrun, firstNulls, hword]
  granted hmax hlimit := by
    have hsum : slots + n ≤ Size.max := hbits ▸ hmax
    have hword : Size.add? slots n = some (slots + n) := if_pos hsum
    have hroom : max planned (slots + n) ≤ Size.max := Nat.max_le.2 ⟨hplanned, hsum⟩
    have hones := (Bitmap.granted_reserve_empty hlimit hroom).andThen fun bits m hlimit hempty =>
      Bitmap.granted_appendMany hempty true hlimit (n := slots) (by omega)
    have hmade := hones.andThen fun bits m hlimit hlength =>
      Bitmap.granted_appendMany hlength false hlimit (n := n) (by omega)
    rw [hrun, firstNulls_eq hword, Outcome.elim_of_none hmade.fault]
    rfl

/-- One slot counts exactly, or it changes nothing, but for the one that passes the
largest size and breaks off. -/
theorem Sized.counts_append (h : v.Sized) {valid : Bool}
    (hpasses : ¬ (BitsOp.append valid).Passes v) (m : Ledger) : Counts (.append valid) v m := by
  cases v with
  | mask b =>
    refine counts_mask rfl (b.orderly_append valid m)
      ((b.ensures_length_append valid m).imp fun _ h => h.1) ?_
      fun hmax hlimit => (Bitmap.granted_append valid hlimit hmax).fault
    intro hmore
    have hword : Size.add? b.length 1 = none := if_neg (Nat.not_le.2 hmore)
    rw [Bitmap.append, hword]
  | allValid slots planned =>
    obtain ⟨hslots, hplanned⟩ := h
    cases valid with
    | false => exact counts_firstNulls hplanned rfl rfl
    | true =>
      have hlt : slots + 1 ≤ Size.max :=
        Nat.lt_of_le_of_ne hslots fun hmax => hpasses ⟨rfl, rfl, hmax⟩
      have hrun : BitsOp.runValidity (.append true) (.allValid slots planned) m =
          .done (.allValid (slots + 1) planned) m := by
        simp only [BitsOp.runValidity, Validity.append, Size.add?_of_le hlt]
      exact counts_of_done hrun rfl hlt

/-- A run of slots counts exactly, or it changes nothing. -/
theorem Sized.counts_appendMany (h : v.Sized) (valid : Bool) (n : Nat) (m : Ledger) :
    Counts (.appendMany valid n) v m := by
  have hlength : (BitsOp.appendMany valid n).bits.length = n := List.length_replicate
  by_cases hn : n = 0
  · subst hn
    have hrun : BitsOp.runValidity (.appendMany valid 0) v m = .done v m := by
      cases v <;> rfl
    exact counts_of_done hrun rfl h.length_le
  · cases v with
    | mask b =>
      refine counts_mask (o := b.appendMany valid n m) (if_neg hn)
        (b.orderly_appendMany valid n m) ?_ ?_ ?_
      · rw [hlength]
        exact (b.ensures_length_appendMany valid n m).imp fun _ h => h.1
      · intro hmore
        rw [hlength] at hmore
        have hword : Size.add? b.length n = none := if_neg (Nat.not_le.2 hmore)
        rw [Bitmap.appendMany, hword]
      · intro hmax hlimit
        rw [hlength] at hmax
        exact (Bitmap.granted_appendMany rfl valid hlimit hmax).fault
    | allValid slots planned =>
      obtain ⟨hslots, hplanned⟩ := h
      cases valid with
      | false => exact counts_firstNulls hplanned hlength (if_neg hn)
      | true =>
        by_cases hmax : slots + n ≤ Size.max
        · have hsum : Size.add? slots n = some (slots + n) := if_pos hmax
          have hrun : BitsOp.runValidity (.appendMany true n) (.allValid slots planned) m =
              .done (.allValid (slots + n) planned) m := by
            simp only [BitsOp.runValidity, Validity.appendMany, if_neg hn, hsum]
          refine counts_of_done hrun ?_ ?_
          · rw [hlength]
            rfl
          · rw [hlength]
            exact hmax
        · have hsum : Size.add? slots n = none := if_neg hmax
          refine counts_of_stopped ?_ ?_
          · simp only [BitsOp.runValidity, Validity.appendMany, if_neg hn, hsum]
          · rw [hlength]
            exact Nat.lt_of_not_le hmax

/-- The first nulls make a mask whose bits can be counted, or they change nothing. -/
theorem sized_firstNulls {slots planned : Nat} (h : (allValid slots planned).Sized) (n : Nat)
    (m : Ledger) : (firstNulls slots planned n m).value.Sized := by
  cases hfault : (firstNulls slots planned n m).fault with
  | some fault =>
    rw [value_firstNulls_of_fault hfault]
    exact h
  | none =>
    have hempty : ({} : Bitmap).length ≤ Size.max := Nat.zero_le _
    obtain ⟨bits, hbits, hle⟩ := ensures_mask_firstNulls (K := fun b => b.length ≤ Size.max)
      (fun k m _ => Bitmap.length_run_le hempty (.reserve k) m)
      (fun _ m h _ => Bitmap.length_run_le h (.appendMany true slots) m)
      (fun _ m h _ => Bitmap.length_run_le h (.appendMany false n) m) planned m hfault
    rw [hbits]
    exact hle

/-- Every operation keeps what a validity counts or plans a size, whatever it is called with. -/
theorem Sized.run (h : v.Sized) (op : BitsOp) (m : Ledger) : (op.runValidity v m).value.Sized := by
  cases v with
  | mask b =>
    obtain hbits | hdone := run_mask_cases b op m
    · rw [hbits]
      exact Bitmap.length_run_le h op m
    · rw [hdone]
      exact h
  | allValid slots planned =>
    obtain ⟨hslots, hplanned⟩ := id h
    cases op with
    | reserve n =>
      simp only [BitsOp.runValidity, Validity.reserve]
      cases hsum : Size.add? (allValid slots planned).length n with
      | none => exact h
      | some total =>
        obtain ⟨rfl, hmax⟩ := Size.add?_eq_some hsum
        exact ⟨hslots, Nat.max_le.2 ⟨hplanned, hmax⟩⟩
    | append valid =>
      cases valid with
      | true =>
        simp only [BitsOp.runValidity, Validity.append]
        cases hsum : Size.add? slots 1 with
        | none => exact h
        | some total =>
          obtain ⟨rfl, hmax⟩ := Size.add?_eq_some hsum
          exact ⟨hmax, hplanned⟩
      | false => exact sized_firstNulls h 1 m
    | appendMany valid n =>
      simp only [BitsOp.runValidity, Validity.appendMany]
      split
      · exact h
      · cases valid with
        | false => exact sized_firstNulls h n m
        | true =>
          dsimp only
          cases hsum : Size.add? slots n with
          | none => exact h
          | some total =>
            obtain ⟨rfl, hmax⟩ := Size.add?_eq_some hsum
            exact ⟨hmax, hplanned⟩

theorem sized_of_history {capacity : Nat} {steps : List (Step BitsOp Validity)}
    (hcapacity : capacity ≤ Size.max)
    (hsteps : History BitsOp.runValidity (.new capacity) steps v) : v.Sized :=
  hsteps.keeps ⟨Nat.zero_le _, hcapacity⟩ fun op _ m h => h.run op m

end Validity

namespace Offsets

variable {o : Offsets} {m : Ledger}

/-- The last end is the last of the offsets, and an offset. -/
structure Within (o : Offsets) : Prop where
  last : o.ends.items.getLast? = some (o.lastEnd : Int)
  le : o.lastEnd ≤ maxOffset

theorem Within.length_pos (h : o.Within) : 0 < o.ends.items.length :=
  List.length_pos_of_mem (List.mem_of_getLast? h.last)

/-- The next slot ends at `stop`, or nothing changes and the fault says why. -/
structure Places (op : OffsetsOp) (stop : Nat) (o : Offsets) (m : Ledger) : Prop where
  reported : ∀ fault, (op.run o m).fault = some fault → fault.isBreak = false
  exact : (op.run o m).Ensures fun o' =>
    o'.lastEnd = stop ∧ o'.length = o.length + 1 ∧ o'.ends.items = o.ends.items ++ [(stop : Int)]
  unchanged : (op.run o m).Atomic o m
  /-- An end that is no offset, or one that comes before the last end, is refused at once. -/
  refused : ¬(o.lastEnd ≤ stop ∧ stop ≤ maxOffset) → ∃ fault, op.run o m = .stopped o m fault
  /-- Any other end is only refused for want of memory. -/
  granted : o.lastEnd ≤ stop → stop ≤ maxOffset → 4 * (o.ends.items.length + 1) ≤ Buffer.maxRoom →
    m.limit = none → (op.run o m).fault = none

/-- An end that does not come before the last one and is an offset is granted. -/
theorem granted_append {stop : Nat} (hle : o.lastEnd ≤ stop) (hmax : stop ≤ maxOffset)
    (hroom : 4 * (o.ends.items.length + 1) ≤ Buffer.maxRoom) (hlimit : m.limit = none) :
    (o.append stop m).Granted fun _ => True := by
  have hpush : (o.ends.push (stop : Int) m).Granted fun _ => True :=
    (o.ends.granted_ensure hlimit hroom).andThen fun _ _ hlimit _ =>
      Outcome.granted_done hlimit trivial
  have hended : ((o.ends.push (stop : Int) m).map fun ends => { o with ends }).Granted
      fun _ => True := hpush.map fun _ _ => trivial
  rw [append_eq hle hmax]
  exact hended.andThen fun _ _ hlimit _ => Outcome.granted_done hlimit trivial

theorem Within.places_append (h : o.Within) (stop : Nat) (m : Ledger) :
    Places (.append stop) stop o m where
  reported := (o.orderly_append m stop).unbroken
  exact := (o.ensures_append stop m).imp fun o' ⟨hlast, _, _, hitems⟩ => by
    have hpos := h.length_pos
    refine ⟨congrArg Int.toNat hlast, ?_, hitems⟩
    simp only [length, hitems, List.length_append, List.length_singleton]
    omega
  unchanged := o.atomic_append m stop
  refused hnone := append_eq_stopped hnone m
  granted hle hmax hroom hlimit := (granted_append hle hmax hroom hlimit).fault

/-- A length puts the end where it says, as long as that is a size. -/
theorem Within.places_appendLength (h : o.Within) {n : Nat} (hsum : o.lastEnd + n ≤ Size.max)
    (m : Ledger) : Places (.appendLength n) (o.lastEnd + n) o m := by
  have hrun : OffsetsOp.run (.appendLength n) o m = OffsetsOp.run (.append (o.lastEnd + n)) o m :=
    appendLength_eq hsum m
  obtain ⟨hreported, hexact, hunchanged, hrefused, hgranted⟩ := h.places_append (o.lastEnd + n) m
  exact ⟨hrun ▸ hreported, hrun ▸ hexact, hrun ▸ hunchanged, hrun ▸ hrefused, hrun ▸ hgranted⟩

/-- A length that passes the largest size breaks off before anything is done. -/
theorem appendLength_of_passes {n : Nat} (hsum : Size.max < o.lastEnd + n) (m : Ledger) :
    OffsetsOp.run (.appendLength n) o m = .stopped o m (.brokenOff .sumTooLarge) := by
  have hword : Size.add? o.lastEnd n = none := if_neg (Nat.not_le.2 hsum)
  rw [OffsetsOp.run, appendLength, hword]

theorem within_of_history {capacity : Nat} {start : Offsets} {m m' : Ledger}
    {steps : List (Step OffsetsOp Offsets)} (hnew : Offsets.new capacity m = (.ok start, m'))
    (hsteps : History OffsetsOp.run start steps o) : o.Within := by
  have hsound := (sound_new hnew).1.of_history hsteps
  have hle := hsound.last_le
  refine ⟨hsound.lastEnd_eq.symm ▸ hsound.last_eq, ?_⟩
  rwa [← hsound.lastEnd_eq, Int.ofNat_le] at hle

end Offsets

/-- **Sizes are exact, or the operation is refused, but for two sums that are not checked.**
After any history, additions of slots count exactly, or they change nothing and report why.
Only one valid slot more than there are sizes, without a mask, is not refused: it breaks off,
which changes nothing either.

After any history, ends of slots are put exactly where they were asked for, as an offset or as
a length after the last end, or nothing changes and that is reported.  Only a length that
passes the largest size after the last end breaks off. -/
theorem sizes_of_history {capacity : Nat} (hcapacity : capacity ≤ Size.max) (m : Ledger) :
    (∀ {steps : List (Step BitsOp Validity)} {v : Validity},
      History BitsOp.runValidity (.new capacity) steps v →
      ∀ op : BitsOp, (∀ n, op ≠ .reserve n) →
        (¬op.Passes v → v.Counts op m) ∧
          (op.Passes v → op.runValidity v m = .stopped v m (.brokenOff .sumTooLarge))) ∧
      ∀ {m₀ m₁ : Ledger} {start o : Offsets} {steps : List (Step OffsetsOp Offsets)},
        Offsets.new capacity m₀ = (.ok start, m₁) → History OffsetsOp.run start steps o →
        o.Within ∧ (∀ stop, o.Places (.append stop) stop m) ∧
          (∀ n, o.lastEnd + n ≤ Size.max → o.Places (.appendLength n) (o.lastEnd + n) m) ∧
          ∀ n, Size.max < o.lastEnd + n →
            OffsetsOp.run (.appendLength n) o m = .stopped o m (.brokenOff .sumTooLarge) := by
  refine ⟨fun {steps v} hsteps op hop => ⟨?_, ?_⟩, fun {m₀ m₁ start o steps} hnew hsteps => ?_⟩
  · intro hpasses
    have hsized := Validity.sized_of_history hcapacity hsteps
    cases op with
    | reserve n => exact absurd rfl (hop n)
    | append valid => exact hsized.counts_append hpasses m
    | appendMany valid n => exact hsized.counts_appendMany valid n m
  · exact fun hpasses => hpasses.run_eq m
  · have hwithin := Offsets.within_of_history hnew hsteps
    exact ⟨hwithin, fun stop => hwithin.places_append stop m,
      fun n hsum => hwithin.places_appendLength hsum m,
      fun n hsum => Offsets.appendLength_of_passes hsum m⟩

/-- As many valid slots as there are sizes. -/
private def fullSlots : Validity :=
  leftBy BitsOp.runValidity (.new 0) (callsOn {} [.appendMany true Size.max])

/-- A new list of offsets on a ledger without limit. -/
private def noOffsets : Offsets :=
  match Offsets.new 0 {} with
  | (.ok o, _) => o
  | (.error _, _) => {}

/-- One slot, which ends at the largest offset. -/
private def fullOffsets : Offsets :=
  leftBy OffsetsOp.run noOffsets (callsOn {} [.appendLength Offsets.maxOffset])

/-- Where all sizes are used up a null cannot be counted, and neither can a run of slots; both
are refused.  After the largest offset no item has a place. -/
theorem sizes_of_full :
    BitsOp.runValidity (.append false) fullSlots {} =
        .stopped fullSlots {} (.outOfMemory .overflow) ∧
      BitsOp.runValidity (.appendMany true 1) fullSlots {} =
        .stopped fullSlots {} (.outOfMemory .overflow) ∧
      fullOffsets.Within ∧
      ∃ fault, OffsetsOp.run (.appendLength 1) fullOffsets {} = .stopped fullOffsets {} fault := by
  have hslots : History BitsOp.runValidity (.new 0) _ fullSlots := history_of_calls _ _
  have hcount := (sizes_of_history (Nat.zero_le _) {}).1 hslots
  have hnull := (hcount (.append false) nofun).1 fun hpasses => nomatch hpasses.1
  have hrun := (hcount (.appendMany true 1) nofun).1 fun hpasses => nomatch hpasses.1
  have hnew : Offsets.new 0 {} = (.ok noOffsets, _) := rfl
  have hoffsets : History OffsetsOp.run noOffsets _ fullOffsets := history_of_calls _ _
  obtain ⟨hwithin, -, hlengths, -⟩ := (sizes_of_history (Nat.zero_le _) {}).2 hnew hoffsets
  exact ⟨hnull.refused (by decide), hrun.refused (by decide), hwithin,
    (hlengths 1 (by decide)).refused (by decide)⟩

/-- One valid slot more than there are sizes breaks off instead of being refused, and so does
the longest slot after the largest offset. -/
theorem sizes_of_full_fails :
    fullSlots.length = Size.max ∧
      BitsOp.runValidity (.append true) fullSlots {} =
        .stopped fullSlots {} (.brokenOff .sumTooLarge) ∧
      fullOffsets.lastEnd = Offsets.maxOffset ∧
      OffsetsOp.run (.appendLength Size.max) fullOffsets {} =
        .stopped fullOffsets {} (.brokenOff .sumTooLarge) := by
  have hpasses : BitsOp.Passes (.append true) fullSlots := ⟨rfl, by decide, by decide⟩
  exact ⟨by decide, hpasses.run_eq {}, by decide, Offsets.appendLength_of_passes (by decide) {}⟩

end Columnar
