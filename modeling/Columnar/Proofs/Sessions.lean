import Columnar.Bank
import Columnar.Proofs.Conservation
/-!
# Sessions side by side

Two runs of a session are compared move by move: `Outcome.Parallel` says that two
operations end alike, on ledgers with as much lent, and leave values in some
relation.  If every operation keeps to a relation and what can be seen depends on no
more, then so do all the replies of a session.

Two relations matter.  Bounded storage is related to itself: it comes to the same on
ledgers with as much lent.  And bitmaps of one size are related, whatever bits they
hold: which faults there are and what is asked for depends on the sizes alone.
-/

namespace Columnar

section Rules

variable {Op σ τ α : Type}

namespace Outcome

/-- Both operations end alike, with as much lent, and leave values in relation. -/
structure Parallel (R : σ → σ → Prop) (o₁ o₂ : Outcome σ) : Prop where
  fault : o₁.fault = o₂.fault
  ledger : o₁.ledger.SameLent o₂.ledger
  value : R o₁.value o₂.value

variable {R : σ → σ → Prop} {m₁ m₂ : Ledger}

theorem parallel_done {a b : σ} (h : R a b) (hm : m₁.SameLent m₂) :
    (done a m₁).Parallel R (done b m₂) :=
  ⟨rfl, hm, h⟩

theorem parallel_stopped {a b : σ} (h : R a b) (hm : m₁.SameLent m₂) (fault : Fault) :
    (stopped a m₁ fault).Parallel R (stopped b m₂ fault) :=
  ⟨rfl, hm, h⟩

/-- Parts in relation are put into wholes in relation. -/
theorem Parallel.map {S : τ → τ → Prop} {o₁ o₂ : Outcome σ} (h : o₁.Parallel R o₂)
    {whole₁ whole₂ : σ → τ} (hwhole : ∀ a b, R a b → S (whole₁ a) (whole₂ b)) :
    (o₁.map whole₁).Parallel S (o₂.map whole₂) :=
  ⟨h.fault, h.ledger, hwhole _ _ h.value⟩

/-- Two chains of operations run in parallel if their first steps do: either both go on, or both
have stopped. -/
theorem Parallel.andThen {o₁ o₂ : Outcome σ} (h : o₁.Parallel R o₂)
    {next₁ next₂ : σ → Ledger → Outcome σ}
    (hnext : ∀ a b, R a b → ∀ m₁ m₂, Ledger.SameLent m₁ m₂ →
      (next₁ a m₁).Parallel R (next₂ b m₂)) :
    (o₁.andThen next₁).Parallel R (o₂.andThen next₂) := by
  cases hfault : o₁.fault with
  | none =>
    rw [andThen_of_none hfault, andThen_of_none (h.fault.symm.trans hfault)]
    exact hnext _ _ h.value _ _ h.ledger
  | some fault =>
    rw [andThen_of_some hfault, andThen_of_some (h.fault.symm.trans hfault)]
    exact h

end Outcome

/-- A bounded value comes to the same end on ledgers with as much lent. -/
theorem Deals.parallel [Holder σ] {op : σ → Ledger → Outcome σ} (h : Deals op) {a b : σ}
    (hab : a = b ∧ Holder.Bounded a) {m₁ m₂ : Ledger} (hm : m₁.SameLent m₂) :
    (op a m₁).Parallel (fun a b => a = b ∧ Holder.Bounded a) (op b m₂) := by
  obtain ⟨rfl, ha⟩ := hab
  have hdeal := h a ha
  obtain ⟨hresult, hledger⟩ := hdeal.eq_of_sameLent hm
  exact ⟨congrArg Prod.snd hresult, hledger, congrArg Prod.fst hresult, (hdeal.trail 0 m₁).1⟩

/-- A loan that grows comes to the same end on ledgers with as much lent. -/
theorem Loan.parallel_grow (loan : Loan) (n : Nat) {m₁ m₂ : Ledger} (hm : m₁.SameLent m₂) :
    (loan.grow n m₁).Parallel Eq (loan.grow n m₂) := by
  have hgrown := (Loan.deals_grow n).parallel (a := loan) ⟨rfl, trivial⟩ hm
  exact ⟨hgrown.fault, hgrown.ledger, hgrown.value.1⟩

section Sessions

variable {R : σ → σ → Prop} {run : Op → σ → Ledger → Outcome σ} {look : σ → α}

/-- Others find the same on ledgers with as much lent. -/
theorem Move.parallel_run
    (hrun : ∀ op a b, R a b → ∀ m₁ m₂, Ledger.SameLent m₁ m₂ →
      (run op a m₁).Parallel R (run op b m₂))
    (move : Move Op) {a b : σ} (h : R a b) {m₁ m₂ : Ledger} (hm : m₁.SameLent m₂) :
    (move.run run a m₁).Parallel R (move.run run b m₂) := by
  cases move with
  | call op => exact hrun op a b h m₁ m₂ hm
  | lend n => exact (Loan.parallel_grow {} n hm).map fun _ _ _ => h
  | takeBack n => exact Outcome.parallel_done h (hm.giveBack n)

/-- Values in relation that look alike have the same replies, and stay in
relation. -/
theorem parallel_play
    (hrun : ∀ op a b, R a b → ∀ m₁ m₂, Ledger.SameLent m₁ m₂ →
      (run op a m₁).Parallel R (run op b m₂))
    (hlook : ∀ a b, R a b → look a = look b) (moves : List (Move Op)) {a b : σ} (h : R a b)
    {m₁ m₂ : Ledger} (hm : m₁.SameLent m₂) :
    (play run look moves a m₁).replies = (play run look moves b m₂).replies ∧
      R (play run look moves a m₁).value (play run look moves b m₂).value := by
  induction moves generalizing a b m₁ m₂ with
  | nil => exact ⟨rfl, h⟩
  | cons move moves ih =>
    have hmove := Move.parallel_run hrun move h hm
    obtain ⟨hreplies, hvalue⟩ := ih hmove.value hmove.ledger
    refine ⟨?_, hvalue⟩
    simp only [play]
    rw [hmove.fault, hlook _ _ hmove.value, hreplies]

/-- A bounded value has the same replies on ledgers with as much lent, and comes to
the same. -/
theorem play_of_sameLent [Holder σ] (look : σ → α) (hrun : ∀ op, Deals (run op))
    (moves : List (Move Op)) {a : σ} (ha : Holder.Bounded a) {m₁ m₂ : Ledger}
    (hm : m₁.SameLent m₂) :
    (play run look moves a m₁).replies = (play run look moves a m₂).replies ∧
      (play run look moves a m₁).value = (play run look moves a m₂).value := by
  obtain ⟨hreplies, hvalue, -⟩ := parallel_play (R := fun a b => a = b ∧ Holder.Bounded a)
    (fun op _ _ hab _ _ hm => (hrun op).parallel hab hm) (fun _ _ hab => congrArg look hab.1)
    moves ⟨rfl, ha⟩ hm
  exact ⟨hreplies, hvalue⟩

end Sessions

end Rules

namespace Buffer

variable {α : Type} {width : Nat} {b₁ b₂ : Buffer α width} {m₁ m₂ : Ledger}

/-- As many items in the same room, whatever they are. -/
structure SameSize (b₁ b₂ : Buffer α width) : Prop where
  loan : b₁.loan = b₂.loan
  length : b₁.items.length = b₂.items.length

theorem SameSize.room_eq (h : b₁.SameSize b₂) : b₁.room = b₂.room :=
  congrArg Loan.size h.loan

theorem SameSize.byteLength_eq (h : b₁.SameSize b₂) : b₁.byteLength = b₂.byteLength :=
  congrArg (width * ·) h.length

theorem SameSize.modify (h : b₁.SameSize b₂) (i j : Nat) (change change' : α → α) :
    (b₁.modify i change).SameSize (b₂.modify j change') :=
  ⟨h.loan, by simp only [Buffer.modify, List.length_modify, h.length]⟩

theorem SameSize.truncate (h : b₁.SameSize b₂) (n : Nat) :
    (b₁.truncate n).SameSize (b₂.truncate n) :=
  ⟨h.loan, by simp only [Buffer.truncate, List.length_take, h.length]⟩

theorem SameSize.growTo (h : b₁.SameSize b₂) (room : Nat) (hm : m₁.SameLent m₂) :
    (b₁.growTo room m₁).Parallel SameSize (b₂.growTo room m₂) := by
  unfold Buffer.growTo
  rw [h.room_eq, h.loan]
  exact (b₂.loan.parallel_grow _ hm).map fun _ _ hloan => ⟨hloan, h.length⟩

theorem SameSize.reserve (h : b₁.SameSize b₂) (bytes : Nat) (hm : m₁.SameLent m₂) :
    (b₁.reserve bytes m₁).Parallel SameSize (b₂.reserve bytes m₂) := by
  unfold Buffer.reserve
  rw [h.room_eq, h.byteLength_eq]
  by_cases hfits : b₂.byteLength + bytes ≤ b₂.room
  · simp only [if_pos hfits]
    exact Outcome.parallel_done h hm
  · simp only [if_neg hfits]
    cases roomFor? (b₂.byteLength + bytes) with
    | none => exact Outcome.parallel_stopped h hm _
    | some room => exact h.growTo room hm

theorem SameSize.ensure (h : b₁.SameSize b₂) (bytes : Nat) (hm : m₁.SameLent m₂) :
    (b₁.ensure bytes m₁).Parallel SameSize (b₂.ensure bytes m₂) := by
  unfold Buffer.ensure
  rw [h.room_eq, h.byteLength_eq]
  by_cases hfits : b₂.byteLength + bytes ≤ b₂.room
  · simp only [if_pos hfits]
    exact Outcome.parallel_done h hm
  · simp only [if_neg hfits]
    cases roomFor? (b₂.byteLength + bytes) with
    | none => exact Outcome.parallel_stopped h hm _
    | some room => exact h.growTo _ hm

theorem SameSize.resize (h : b₁.SameSize b₂) (n : Nat) (item : α) (hm : m₁.SameLent m₂) :
    (b₁.resize n item m₁).Parallel SameSize (b₂.resize n item m₂) := by
  unfold Buffer.resize
  rw [h.length]
  by_cases hn : n ≤ b₂.items.length
  · simp only [if_pos hn]
    exact Outcome.parallel_done (h.truncate n) hm
  · simp only [if_neg hn]
    refine (h.ensure _ hm).andThen fun c₁ c₂ hc m₁ m₂ hm => ?_
    refine Outcome.parallel_done ⟨hc.loan, ?_⟩ hm
    rw [List.length_append, List.length_append, hc.length]

/-- A buffer that is resized has the new length. -/
theorem ensures_length_resize (b : Buffer α width) (n : Nat) (item : α) (m : Ledger) :
    (b.resize n item m).Ensures fun b' => b'.items.length = n := by
  unfold Buffer.resize
  split
  · rename_i hle
    exact Outcome.ensures_done (List.length_take_of_le hle)
  · rename_i hgt
    have hroom : (b.ensure (width * (n - b.items.length)) m).Ensures fun b' =>
        b'.items = b.items := fun _ => items_ensure b _ m
    refine hroom.andThen fun b' m' hitems => Outcome.ensures_done ?_
    rw [List.length_append, hitems, List.length_replicate]
    omega

end Buffer

namespace Bitmap

variable {b b₁ b₂ : Bitmap} {m₁ m₂ : Ledger}

/-- As many bits in bytes of the same size, whatever they are. -/
structure SameSize (b₁ b₂ : Bitmap) : Prop where
  bytes : b₁.bytes.SameSize b₂.bytes
  length : b₁.length = b₂.length

theorem SameSize.padded (h : b₁.SameSize b₂) : b₁.padded.SameSize b₂.padded := by
  unfold Bitmap.padded
  rw [h.length]
  split
  · exact h.bytes.truncate _
  · exact (h.bytes.modify _ _ _ _).truncate _

theorem sameSize_clearedPast {bytes₁ bytes₂ : Buffer UInt8 1} (h : bytes₁.SameSize bytes₂)
    (n : Nat) : (clearedPast bytes₁ n).SameSize (clearedPast bytes₂ n) := by
  unfold clearedPast
  split
  · exact h
  · exact h.modify _ _ _ _

/-- New bytes for as many bits. -/
private theorem parallel_resize {bytes₁ bytes₂ : Buffer UInt8 1} (h : bytes₁.SameSize bytes₂)
    (n : Nat) (byte : UInt8) (length : Nat) (hm : m₁.SameLent m₂) :
    ((bytes₁.resize n byte m₁).map fun bytes => Bitmap.mk bytes length).Parallel SameSize
      ((bytes₂.resize n byte m₂).map fun bytes => Bitmap.mk bytes length) :=
  (h.resize n byte hm).map fun _ _ hbytes => ⟨hbytes, rfl⟩

theorem SameSize.reserve (h : b₁.SameSize b₂) (n : Nat) (hm : m₁.SameLent m₂) :
    (b₁.reserve n m₁).Parallel SameSize (b₂.reserve n m₂) := by
  obtain ⟨bytes₁, length⟩ := b₁
  obtain ⟨bytes₂, length₂⟩ := b₂
  obtain ⟨hbytes, rfl : length = length₂⟩ := h
  unfold Bitmap.reserve
  dsimp only
  rw [hbytes.length]
  cases Size.add? length n with
  | none => exact Outcome.parallel_stopped ⟨hbytes, rfl⟩ hm _
  | some total => exact (hbytes.reserve _ hm).map fun _ _ hbytes => ⟨hbytes, rfl⟩

theorem SameSize.append (h : b₁.SameSize b₂) (bit : Bool) (hm : m₁.SameLent m₂) :
    (b₁.append bit m₁).Parallel SameSize (b₂.append bit m₂) := by
  obtain ⟨bytes₁, length⟩ := b₁
  obtain ⟨bytes₂, length₂⟩ := b₂
  obtain ⟨hbytes, rfl : length = length₂⟩ := h
  unfold Bitmap.append
  dsimp only
  cases Size.add? length 1 with
  | none => exact Outcome.parallel_stopped ⟨hbytes, rfl⟩ hm _
  | some total =>
    refine (parallel_resize hbytes _ 0 length hm).andThen fun c₁ c₂ hc m₁ m₂ hm => ?_
    refine Outcome.parallel_done ⟨?_, rfl⟩ hm
    cases bit with
    | false => exact hc.bytes
    | true => exact hc.bytes.modify _ _ _ _

theorem SameSize.appendMany (h : b₁.SameSize b₂) (bit : Bool) (n : Nat) (hm : m₁.SameLent m₂) :
    (b₁.appendMany bit n m₁).Parallel SameSize (b₂.appendMany bit n m₂) := by
  have hpadded := h.padded
  obtain ⟨bytes₁, length⟩ := b₁
  obtain ⟨bytes₂, length₂⟩ := b₂
  obtain ⟨hbytes, rfl : length = length₂⟩ := h
  unfold Bitmap.appendMany
  dsimp only
  cases Size.add? length n with
  | none => exact Outcome.parallel_stopped ⟨hbytes, rfl⟩ hm _
  | some total =>
    cases bit with
    | true =>
      simp only [if_true]
      refine (parallel_resize hpadded _ 0xff length hm).andThen fun c₁ c₂ hc m₁ m₂ hm => ?_
      exact Outcome.parallel_done ⟨sameSize_clearedPast hc.bytes total, rfl⟩ hm
    | false =>
      simp only [Bool.false_eq_true, if_false, hbytes.length]
      by_cases henough : bytesFor total ≤ bytes₂.items.length
      · simp only [if_pos henough]
        exact Outcome.parallel_done ⟨hbytes, rfl⟩ hm
      · simp only [if_neg henough]
        refine (parallel_resize hbytes _ 0 length hm).andThen fun c₁ c₂ hc m₁ m₂ hm => ?_
        exact Outcome.parallel_done ⟨hc.bytes, rfl⟩ hm

/-- What can be seen of a bitmap does not tell its bits, only their number. -/
theorem SameSize.view_eq (h : b₁.SameSize b₂) : BitStore.view b₁ = BitStore.view b₂ := by
  simp only [BitStore.view, Bitmap.byteLength, Bitmap.room, h.length, h.bytes.room_eq]

/-- Operations on bitmaps of one size end alike and keep them so. -/
theorem SameSize.run (h : b₁.SameSize b₂) (op : BitsOp) (hm : m₁.SameLent m₂) :
    (op.runBitmap b₁ m₁).Parallel SameSize (op.runBitmap b₂ m₂) := by
  cases op with
  | reserve n => exact h.reserve n hm
  | append bit => exact h.append bit hm
  | appendMany bit n => exact h.appendMany bit n hm

end Bitmap

namespace Validity

variable {v₁ v₂ : Validity} {m₁ m₂ : Ledger}

/-- As many slots, in masks of one size if there are any. -/
inductive SameSize : Validity → Validity → Prop where
  | allValid (slots planned : Nat) : SameSize (allValid slots planned) (allValid slots planned)
  | mask {b₁ b₂ : Bitmap} : b₁.SameSize b₂ → SameSize (mask b₁) (mask b₂)

theorem SameSize.refl : (v : Validity) → v.SameSize v
  | .allValid slots planned => allValid slots planned
  | .mask _ => mask ⟨⟨rfl, rfl⟩, rfl⟩

/-- What can be seen of a validity does not tell which slots are null, only whether some are. -/
theorem SameSize.view_eq (h : v₁.SameSize v₂) : BitStore.view v₁ = BitStore.view v₂ := by
  cases h with
  | allValid => rfl
  | mask hb =>
    simp only [BitStore.view, Validity.length, Validity.byteLength, Validity.room,
      Bitmap.byteLength, Bitmap.room, hb.length, hb.bytes.room_eq, Validity.hasNulls]

/-- Operations on validities of one size end alike and keep them so. -/
theorem SameSize.run (h : v₁.SameSize v₂) (op : BitsOp) (hm : m₁.SameLent m₂) :
    (op.runValidity v₁ m₁).Parallel SameSize (op.runValidity v₂ m₂) := by
  have hmask {o₁ o₂ : Outcome Bitmap} (ho : o₁.Parallel Bitmap.SameSize o₂) :
      (o₁.map Validity.mask).Parallel SameSize (o₂.map Validity.mask) :=
    ho.map fun _ _ => SameSize.mask
  cases h with
  | @mask b₁ b₂ hb =>
    cases op with
    | reserve n =>
      simp only [BitsOp.runValidity, Validity.reserve, Validity.length, hb.length]
      cases Size.add? b₂.length n with
      | none => exact Outcome.parallel_stopped (SameSize.mask hb) hm _
      | some total => exact hmask (hb.reserve n hm)
    | append valid => exact hmask (hb.append valid hm)
    | appendMany valid n =>
      simp only [BitsOp.runValidity, Validity.appendMany]
      by_cases hn : n = 0
      · simp only [if_pos hn]
        exact Outcome.parallel_done (SameSize.mask hb) hm
      · simp only [if_neg hn]
        exact hmask (hb.appendMany valid n hm)
  | allValid slots planned =>
    have hsame := (BitsOp.deals_runValidity op).parallel (a := .allValid slots planned)
      ⟨rfl, trivial⟩ hm
    exact ⟨hsame.fault, hsame.ledger, hsame.value.1 ▸ SameSize.refl _⟩

end Validity

end Columnar
