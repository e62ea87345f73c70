import Mathlib.Logic.Basic
import Columnar.Proofs.Packing
import Columnar.Proofs.Refusals
import Columnar.Proofs.Sessions
/-!
# What a refusal leaves for later

A refused operation on bits changes neither the bits nor what is lent, and all
later moves have the same replies as if there had been no such operation.  The
bits that are finished later are the same exactly if the storage was left as it
was: `Forgets`.

A refused run of ones may leave bits set past the end of the last byte, and
false bits that are added later on take them over.  Whatever else is refused
leaves the storage as it was.
-/

namespace Columnar

namespace Bitmap

variable {b : Bitmap} {m : Ledger}

/-- Bytes that are resized for the bits and then changed in place are just enough. -/
private theorem ensures_exact_resize (bytes : Buffer UInt8 1) (byte : UInt8) (old total : Nat)
    (change : Bitmap → Buffer UInt8 1)
    (hchange : ∀ b, (change b).items.length = b.bytes.items.length) (m : Ledger) :
    (((bytes.resize (bytesFor total) byte m).map fun bytes => Bitmap.mk bytes old).andThen
      fun b m => .done { bytes := change b, length := total } m).Ensures Exact := by
  refine (Outcome.ensures_map (P := fun b : Bitmap => b.bytes.items.length = bytesFor total)
    (bytes.ensures_length_resize _ byte m)).andThen fun b m hb => ?_
  exact Outcome.ensures_done ((hchange b).trans hb)

theorem Exact.ensures_append (bit : Bool) : (b.append bit m).Ensures Exact := by
  unfold Bitmap.append
  split
  · exact Outcome.ensures_stopped
  · cases bit with
    | false => exact ensures_exact_resize _ 0 _ _ Bitmap.bytes (fun _ => rfl) m
    | true =>
      refine ensures_exact_resize _ 0 _ _ (fun b => setBit b.bytes b.length) (fun b => ?_) m
      simp only [setBit, Buffer.modify, List.length_modify]

theorem Exact.ensures_appendMany (h : b.Exact) (bit : Bool) (n : Nat) :
    (b.appendMany bit n m).Ensures Exact := by
  have hbytes : b.bytes.items.length = bytesFor b.length := h
  unfold Bitmap.appendMany
  split
  · exact Outcome.ensures_stopped
  · rename_i total htotal
    obtain ⟨rfl, -⟩ := Size.add?_eq_some htotal
    cases bit with
    | true =>
      refine ensures_exact_resize _ 0xff _ _ (fun b => clearedPast b.bytes _) (fun b => ?_) m
      unfold clearedPast
      split <;> simp only [Buffer.modifyLast, Buffer.modify, List.length_modify]
    | false =>
      rw [if_neg Bool.false_ne_true]
      split
      · -- The bits fit into bytes that are there, of which there were none to spare.
        rename_i henough
        have hmore : bytesFor b.length ≤ bytesFor (b.length + n) := Nat.div_le_div_right (by omega)
        exact Outcome.ensures_done (Nat.le_antisymm (hbytes ▸ hmore) henough)
      · exact ensures_exact_resize _ 0 _ _ Bitmap.bytes (fun _ => rfl) m

/-- A refused operation leaves the bitmap as it was, unless it is a run of ones. -/
theorem value_of_fault {op : BitsOp} {fault : Fault}
    (hfault : (op.runBitmap b m).fault = some fault) :
    (op.runBitmap b m).ledger.SameLent m ∧
      ((op.runBitmap b m).value = b ∨
        ∃ n, op = .appendMany true n ∧ (op.runBitmap b m).value = { b with bytes := b.padded } ∧
          b.length + n ≤ Size.max ∧ b.padded.items.length < bytesFor (b.length + n)) := by
  have hatomic (h : (op.runBitmap b m).Atomic b m) := h fault hfault
  cases op with
  | reserve n => exact ⟨(hatomic (b.atomic_reserve m n)).2, .inl (hatomic (b.atomic_reserve m n)).1⟩
  | append bit =>
    obtain ⟨hvalue, hledger⟩ := hatomic (b.atomic_append m bit)
    exact ⟨hledger, .inl hvalue⟩
  | appendMany bit n =>
    cases bit with
    | false =>
      obtain ⟨hvalue, hledger⟩ := hatomic (b.atomic_appendMany_false m n)
      exact ⟨hledger, .inl hvalue⟩
    | true =>
      obtain ⟨hledger, hvalue | hpadded⟩ := b.appendMany_ends m hfault
      · exact ⟨hledger, .inl hvalue⟩
      · exact ⟨hledger, .inr ⟨n, rfl, hpadded⟩⟩

/-- Every operation leaves just the bytes that the bits need, whether it comes to
its end or not. -/
theorem Exact.run (h : b.Exact) (op : BitsOp) (m : Ledger) : (op.runBitmap b m).value.Exact := by
  cases hfault : (op.runBitmap b m).fault with
  | none =>
    cases op with
    | reserve n =>
      show (b.reserve n m).value.Exact
      unfold Bitmap.reserve
      split
      · exact h
      · exact (congrArg List.length (Buffer.items_reserve ..)).trans h
    | append bit => exact Exact.ensures_append bit hfault
    | appendMany bit n => exact h.ensures_appendMany bit n hfault
  | some fault =>
    obtain ⟨-, hvalue | ⟨n, -, hvalue, -⟩⟩ := value_of_fault hfault
    · rwa [hvalue]
    · rw [hvalue]
      exact h.padded.1

/-- The bits past the end that a refusal leaves set are all that it changes. -/
theorem Exact.sameSize_padded (h : b.Exact) : SameSize { b with bytes := b.padded } b :=
  ⟨⟨b.loan_padded, h.padded.1.trans h.symm⟩, rfl⟩

/-- Setting the bits past the end leaves the bits alone. -/
theorem Exact.bits_padded (h : b.Exact) : bits { b with bytes := b.padded } = b.bits := by
  unfold bits
  refine List.map_congr_left fun i hi => ?_
  have hin : i < b.length := List.mem_range.1 hi
  have hnone : ¬(b.length ≤ i ∧ i < 8 * bytesFor b.length) := by omega
  rw [h.padded.2, decide_eq_false hnone, Bool.or_false]

/-- If no bit is set past the end, nothing is changed at all. -/
theorem Exact.padded_eq (h : b.Exact)
    (hbits : ∀ i, bitAt b.padded.items i = bitAt b.bytes.items i) :
    { b with bytes := b.padded } = b := by
  have hitems : b.padded.items = b.bytes.items := ext_bitAt (h.padded.1.trans h.symm) hbits
  have hbytes : b.padded = b.bytes := congrArg₂ Buffer.mk hitems b.loan_padded
  rw [hbytes]

/-- At the end of a byte there are no bits to set. -/
theorem Exact.padded_eq_of_aligned (h : b.Exact) (haligned : b.length % 8 = 0) :
    { b with bytes := b.padded } = b := by
  refine h.padded_eq fun i => ?_
  have hnone : ¬(b.length ≤ i ∧ i < 8 * bytesFor b.length) := by
    rw [bytesFor]
    omega
  rw [h.padded.2, decide_eq_false hnone, Bool.or_false]

/-- False bits that fit into the bytes take no memory, and change no byte. -/
theorem appendMany_false_of_fits {k : Nat} (hmax : b.length + k ≤ Size.max)
    (hfits : bytesFor (b.length + k) ≤ b.bytes.items.length) (m : Ledger) :
    b.appendMany false k m = .done { b with length := b.length + k } m := by
  simp only [Bitmap.appendMany, Size.add?, if_pos hmax, Bool.false_eq_true, if_false,
    if_pos hfits]

/-- Bits that a refusal set past the end show once false bits reach them, which takes
no memory. -/
theorem Exact.exists_reveal (h : b.Exact) {n : Nat} (hmax : b.length + n ≤ Size.max)
    (hmore : b.padded.items.length < bytesFor (b.length + n))
    (hne : { b with bytes := b.padded } ≠ b) :
    ∃ k, k ≠ 0 ∧ ∃ b₁ b₂ : Bitmap, b₁.bits ≠ b₂.bits ∧
      (∀ m, appendMany { b with bytes := b.padded } false k m = .done b₁ m) ∧
      ∀ m, b.appendMany false k m = .done b₂ m := by
  have hbytes : b.bytes.items.length = bytesFor b.length := h
  obtain ⟨hlength, hset⟩ := h.padded
  obtain ⟨i, hi⟩ : ∃ i, bitAt b.padded.items i ≠ bitAt b.bytes.items i :=
    Classical.not_forall.1 fun hall => hne (h.padded_eq hall)
  obtain ⟨hpast, hlt⟩ : b.length ≤ i ∧ i < 8 * bytesFor b.length := by
    refine Classical.byContradiction fun hnone => hi ?_
    rw [hset, decide_eq_false hnone, Bool.or_false]
  -- The last of the false bits comes in the place of the bit that was set.
  have hplace : b.length + (i + 1 - b.length) = i + 1 := by omega
  have hsize : b.length + (i + 1 - b.length) ≤ Size.max := by
    rw [hlength, bytesFor, bytesFor] at hmore
    rw [bytesFor] at hlt
    omega
  have hfits : bytesFor (b.length + (i + 1 - b.length)) ≤ bytesFor b.length := by
    rw [hplace, bytesFor]
    omega
  refine ⟨i + 1 - b.length, by omega, _, _, ?_,
    appendMany_false_of_fits (b := { b with bytes := b.padded }) hsize (hlength ▸ hfits),
    appendMany_false_of_fits hsize (hbytes ▸ hfits)⟩
  intro hbits
  have hget := congrArg (fun bits => bits[i]?) hbits
  have hin : i < b.length + (i + 1 - b.length) := by omega
  refine hi ?_
  simpa only [bits, List.getElem?_map, List.getElem?_range hin, Option.map_some,
    Option.some.injEq] using hget

/-- What a refused operation left of a bitmap, other than it was. -/
structure Leftover (op : BitsOp) (b left : Bitmap) : Prop where
  run : ∃ n, op = .appendMany true n
  ne : left ≠ b
  within : b.length % 8 ≠ 0
  sameSize : left.SameSize b
  bits : left.bits = b.bits
  /-- Some false bits, added to what was left, differ from those added to the bitmap. -/
  shows : ∃ k, k ≠ 0 ∧ ∃ b₁ b₂ : Bitmap, b₁.bits ≠ b₂.bits ∧
    (∀ m, left.appendMany false k m = .done b₁ m) ∧ ∀ m, b.appendMany false k m = .done b₂ m

/-- A refused operation leaves the bitmap as it was, or it leaves something of a run of
ones. -/
theorem Exact.leftover_of_fault (h : b.Exact) {op : BitsOp} {fault : Fault}
    (hfault : (op.runBitmap b m).fault = some fault) : (op.runBitmap b m).ledger.SameLent m ∧
      ((op.runBitmap b m).value = b ∨ Leftover op b (op.runBitmap b m).value) := by
  obtain ⟨hledger, hvalue | ⟨n, hop, hvalue, hmax, hmore⟩⟩ := value_of_fault hfault
  · exact ⟨hledger, .inl hvalue⟩
  · rw [hvalue]
    refine ⟨hledger, ?_⟩
    by_cases hsame : { b with bytes := b.padded } = b
    · exact .inl hsame
    · exact .inr
        { run := ⟨n, hop⟩
          ne := hsame
          within := fun haligned => hsame (h.padded_eq_of_aligned haligned)
          sameSize := h.sameSize_padded
          bits := h.bits_padded
          shows := h.exists_reveal hmax hmore hsame }

end Bitmap

namespace Validity

variable {v : Validity} {m : Ledger}

/-- A mask has just the bytes that its bits need. -/
def Exact : Validity → Prop
  | allValid .. => True
  | mask bits => bits.Exact

/-- A mask that is made has just the bytes that its bits need. -/
theorem exact_firstNulls (slots planned n : Nat) (m : Ledger) :
    (firstNulls slots planned n m).value.Exact := by
  cases hfault : (firstNulls slots planned n m).fault with
  | some fault =>
    rw [value_firstNulls_of_fault hfault]
    trivial
  | none =>
    have hempty : Bitmap.Exact {} := rfl
    obtain ⟨bits, hbits, hexact⟩ := ensures_mask_firstNulls
      (fun k m _ => hempty.run (.reserve k) m)
      (fun _ _ h => h.ensures_appendMany true slots) (fun _ _ h => h.ensures_appendMany false n)
      planned m hfault
    rw [hbits]
    exact hexact

/-- An operation on a mask is one on its bits, or it does nothing. -/
theorem run_mask_cases (b : Bitmap) (op : BitsOp) (m : Ledger) :
    op.runValidity (.mask b) m = (op.runBitmap b m).map .mask ∨
      op.runValidity (.mask b) m = .done (.mask b) m := by
  cases op with
  | reserve n =>
    refine .inl ?_
    simp only [BitsOp.runValidity, BitsOp.runBitmap, Validity.reserve, Bitmap.reserve,
      Validity.length]
    cases Size.add? b.length n <;> rfl
  | append valid => exact .inl rfl
  | appendMany valid n =>
    simp only [BitsOp.runValidity, Validity.appendMany]
    by_cases hn : n = 0
    · exact .inr (if_pos hn)
    · exact .inl (if_neg hn)

/-- Every operation leaves just the bytes that the bits of a mask need. -/
theorem Exact.run (h : v.Exact) (op : BitsOp) (m : Ledger) :
    (op.runValidity v m).value.Exact := by
  cases v with
  | mask b =>
    obtain hbits | hdone := run_mask_cases b op m
    · rw [hbits]
      exact Bitmap.Exact.run h op m
    · rw [hdone]
      exact h
  | allValid slots planned =>
    obtain ⟨slots', planned', hdone⟩ | ⟨fault, hstopped⟩ | ⟨n, -, hnulls⟩ :=
      run_allValid_cases m slots planned op
    · rw [hdone]
      trivial
    · rw [hstopped]
      trivial
    · rw [hnulls]
      exact exact_firstNulls slots planned n m

end Validity

section Forgets

variable {σ : Type} [BitStore σ]

/-- How far an operation that was refused is forgotten; `a` and `m` are what it
found. -/
structure Forgets (op : BitsOp) (a : σ) (m : Ledger) : Prop where
  bits : BitStore.bits (BitStore.run op a m).value = BitStore.bits a
  ledger : (BitStore.run op a m).ledger.SameLent m
  /-- All later moves have the same replies as without the operation. -/
  replies : ∀ moves, BitStore.replies moves (BitStore.run op a m).value
    (BitStore.run op a m).ledger = BitStore.replies moves a m
  /-- Nothing is left, unless a run of ones starts within a byte. -/
  kept : (∀ n, op = .appendMany true n → ∀ bits ∈ BitStore.finish a, bits.length % 8 = 0) →
    (BitStore.run op a m).value = a
  /-- The same bits are finished, whatever comes later, exactly if nothing is left. -/
  finished : (∀ moves, BitStore.finishAfter moves (BitStore.run op a m).value
    (BitStore.run op a m).ledger = BitStore.finishAfter moves a m) ↔
      (BitStore.run op a m).value = a

variable {op : BitsOp} {a : σ} {m : Ledger}

/-- An operation that leaves its storage as it was is forgotten: whatever follows replies as if it
had not been called. -/
theorem forgets_of_value_eq [Holder σ] (hrun : ∀ op, Deals (BitStore.run op : σ → _))
    (ha : Holder.Bounded a) (hledger : (BitStore.run op a m).ledger.SameLent m)
    (hvalue : (BitStore.run op a m).value = a) : Forgets op a m := by
  have hplay (moves : List (Move BitsOp)) :=
    play_of_sameLent BitStore.view hrun moves ha hledger
  refine ⟨congrArg BitStore.bits hvalue, hledger, ?_, fun _ => hvalue, fun _ => hvalue, ?_⟩
  · intro moves
    rw [hvalue]
    exact (hplay moves).1
  · intro _ moves
    rw [hvalue]
    exact congrArg BitStore.finish (hplay moves).2

/-- A run of ones that leaves something is forgotten as long as that does not show. -/
theorem forgets_of_hidden {R : σ → σ → Prop}
    (hrun : ∀ op a b, R a b → ∀ m₁ m₂, Ledger.SameLent m₁ m₂ →
      (BitStore.run op a m₁).Parallel R (BitStore.run op b m₂))
    (hview : ∀ a b, R a b → BitStore.view a = BitStore.view b)
    (hvalue : R (BitStore.run op a m).value a)
    (hbits : BitStore.bits (BitStore.run op a m).value = BitStore.bits a)
    (hledger : (BitStore.run op a m).ledger.SameLent m) (hne : (BitStore.run op a m).value ≠ a)
    (hop : ∃ n, op = .appendMany true n)
    (hwithin : ∃ bits ∈ BitStore.finish a, bits.length % 8 ≠ 0) (moves : List (Move BitsOp))
    (hshows : BitStore.finishAfter moves (BitStore.run op a m).value (BitStore.run op a m).ledger ≠
      BitStore.finishAfter moves a m) : Forgets op a m where
  bits := hbits
  ledger := hledger
  replies moves := (parallel_play hrun hview moves hvalue hledger).1
  kept haligned := by
    obtain ⟨n, rfl⟩ := hop
    obtain ⟨bits, hfinish, hne⟩ := hwithin
    exact absurd (haligned n rfl bits hfinish) hne
  finished := iff_of_false (fun hall => hshows (hall moves)) hne

end Forgets

/-- An operation that a bitmap refuses changes no bits, no loans and no later reply. The bits that
are finished later tell of it only where a run of ones was left past the end. -/
theorem Bitmap.Exact.forgets {b : Bitmap} (h : b.Exact) (hb : b.Bounded) {op : BitsOp}
    {m : Ledger} {fault : Fault} (hfault : (op.runBitmap b m).fault = some fault) :
    Forgets op b m := by
  obtain ⟨hledger, hvalue | hleft⟩ := h.leftover_of_fault hfault
  · exact forgets_of_value_eq BitsOp.deals_runBitmap hb hledger hvalue
  · obtain ⟨k, -, b₁, b₂, hbits, hset, hclear⟩ := hleft.shows
    refine forgets_of_hidden (fun op _ _ hab _ _ hm => hab.run op hm)
      (fun _ _ => SameSize.view_eq) hleft.sameSize hleft.bits hledger hleft.ne hleft.run
      ⟨b.bits, rfl, b.length_bits.symm ▸ hleft.within⟩ [.call (.appendMany false k)] ?_
    show some (Bitmap.appendMany (op.runBitmap b m).value false k _).value.bits ≠
      some (b.appendMany false k m).value.bits
    rw [hset, hclear]
    exact fun heq => hbits (Option.some.inj heq)

/-- An operation that a validity refuses changes no flags, no loans and no later reply. The mask
that is finished later tells of it only where a run of valid slots was left past the end. -/
theorem Validity.Exact.forgets {v : Validity} (h : v.Exact) (hv : v.Bounded) {op : BitsOp}
    {m : Ledger} {fault : Fault} (hfault : (op.runValidity v m).fault = some fault) :
    Forgets op v m := by
  cases v with
  | allValid slots planned =>
    obtain ⟨hvalue, hledger⟩ := atomic_run_allValid m slots planned op fault hfault
    exact forgets_of_value_eq BitsOp.deals_runValidity hv hledger hvalue
  | mask b =>
    have hexact : b.Exact := h
    have hrun := (run_mask_cases b op m).resolve_right fun hdone => by
      rw [hdone] at hfault
      exact nomatch hfault
    have hwhole : (op.runValidity (mask b) m).value = mask (op.runBitmap b m).value :=
      congrArg Outcome.value hrun
    have hlent : (op.runValidity (mask b) m).ledger = (op.runBitmap b m).ledger :=
      congrArg Outcome.ledger hrun
    rw [hrun] at hfault
    obtain ⟨hledger, hvalue | hleft⟩ := hexact.leftover_of_fault hfault
    · exact forgets_of_value_eq BitsOp.deals_runValidity hv (hlent ▸ hledger)
        (hwhole.trans (congrArg mask hvalue))
    · obtain ⟨k, hk, b₁, b₂, hbits, hset, hclear⟩ := hleft.shows
      refine forgets_of_hidden (fun op _ _ hab _ _ hm => hab.run op hm)
        (fun _ _ => SameSize.view_eq) (hwhole ▸ .mask hleft.sameSize) (hwhole ▸ hleft.bits)
        (hlent ▸ hledger) (fun heq => hleft.ne (Validity.mask.inj (hwhole.symm.trans heq)))
        hleft.run ⟨b.bits, rfl, b.length_bits.symm ▸ hleft.within⟩
        [.call (.appendMany false k)] ?_
      show (Validity.appendMany (BitsOp.runValidity op (mask b) m).value false k _).value.finish ≠
        ((mask b).appendMany false k m).value.finish
      simp only [hwhole, Validity.appendMany, if_neg hk, hset, hclear]
      exact fun heq => hbits (Option.some.inj heq)

/-- All that a new bitmap is brought to has just the bytes that its bits need, in their
room. -/
theorem Bitmap.exact_of_history {capacity : Nat} {m m' : Ledger} {start b : Bitmap}
    (hnew : Bitmap.new capacity m = (.ok start, m')) {steps : List (Step BitsOp Bitmap)}
    (h : History BitsOp.runBitmap start steps b) : b.Exact ∧ b.Bounded := by
  induction h with
  | here =>
    obtain ⟨htidy, -⟩ := Bitmap.tidy_new hnew
    exact ⟨htidy.exact, htidy.toBounded⟩
  | step op m _ ih =>
    obtain ⟨hexact, hbounded⟩ := ih
    exact ⟨hexact.run op m, ((BitsOp.deals_runBitmap op _ hbounded).trail 0 m).1⟩

/-- The same goes for the mask of a validity. -/
theorem Validity.exact_of_history {capacity : Nat} {v : Validity}
    {steps : List (Step BitsOp Validity)}
    (h : History BitsOp.runValidity (Validity.new capacity) steps v) : v.Exact ∧ v.Bounded := by
  induction h with
  | here => exact ⟨trivial, trivial⟩
  | step op m _ ih =>
    obtain ⟨hexact, hbounded⟩ := ih
    exact ⟨hexact.run op m, ((BitsOp.deals_runValidity op _ hbounded).trail 0 m).1⟩

/-- **Refusals are forgotten.** In whatever bitmap or validity operations have led to, of which any
may have been refused, an operation that is refused changes no bits, no loans and no later reply.
What is finished later is the same as without it exactly if it left no bits behind, which only a run
of ones within a byte does. -/
theorem forgets_of_history (op : BitsOp) (m : Ledger) (fault : Fault) :
    (∀ {capacity : Nat} {m₀ m₁ : Ledger} {start b : Bitmap} {steps : List (Step BitsOp Bitmap)},
      Bitmap.new capacity m₀ = (.ok start, m₁) → History BitsOp.runBitmap start steps b →
      (op.runBitmap b m).fault = some fault → Forgets op b m) ∧
      ∀ {capacity : Nat} {v : Validity} {steps : List (Step BitsOp Validity)},
        History BitsOp.runValidity (Validity.new capacity) steps v →
        (op.runValidity v m).fault = some fault → Forgets op v m := by
  refine ⟨fun hnew hsteps hfault => ?_, fun hsteps hfault => ?_⟩
  · obtain ⟨hexact, hbounded⟩ := Bitmap.exact_of_history hnew hsteps
    exact hexact.forgets hbounded hfault
  · obtain ⟨hexact, hbounded⟩ := Validity.exact_of_history hsteps
    exact hexact.forgets hbounded hfault

/-- A ledger that has lent all that it may lend. -/
private def spent : Ledger := { limit := some 64, lent := 64 }

/-- A bit and then, on 64 bytes, no room for 512 more. -/
private def oneBit : Bitmap := leftBy BitsOp.runBitmap {} (callsOn {} [.append true])

/-- The same for slots, of which the first is null. -/
private def oneNull : Validity :=
  leftBy BitsOp.runValidity (.new 0) (callsOn {} [.append false])

/-- A run of zeros that finds no memory leaves a bitmap and a validity as they were. -/
theorem forgets_of_refused_zeros :
    Forgets (.appendMany false 512) oneBit spent ∧ Forgets (.appendMany false 512) oneNull spent ∧
      (BitsOp.runBitmap (.appendMany false 512) oneBit spent).value = oneBit := by
  have hnew : Bitmap.new 0 {} = (.ok {}, {}) := rfl
  have hbit : (BitsOp.runBitmap (.appendMany false 512) oneBit spent).fault =
      some (.outOfMemory ⟨64, some 0⟩) := by
    decide
  have hnull : (BitsOp.runValidity (.appendMany false 512) oneNull spent).fault =
      some (.outOfMemory ⟨64, some 0⟩) := by
    decide
  have hbits : History BitsOp.runBitmap {} _ oneBit := history_of_calls _ _
  have hslots : History BitsOp.runValidity (.new 0) _ oneNull := history_of_calls _ _
  have hforgets := (forgets_of_history _ _ _).1 hnew hbits hbit
  exact ⟨hforgets, (forgets_of_history _ _ _).2 hslots hnull, hforgets.kept nofun⟩

/-- A run of ones that finds no memory can show in what is finished later: a null that is
added next is valid. -/
theorem forgets_of_refused_ones_fails :
    (BitsOp.runValidity (.appendMany true 512) oneNull spent).fault =
        some (.outOfMemory ⟨64, some 0⟩) ∧
      BitStore.finishAfter [.call (.append false)] oneNull spent = some [false, false] ∧
      BitStore.finishAfter [.call (.append false)]
        (BitsOp.runValidity (.appendMany true 512) oneNull spent).value
        (BitsOp.runValidity (.appendMany true 512) oneNull spent).ledger = some [false, true] := by
  decide

end Columnar
