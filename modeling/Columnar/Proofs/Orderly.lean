import Columnar.Proofs.Counting
import Columnar.Proofs.Demands
import Columnar.Proofs.Encoding
import Columnar.Proofs.Storing
/-!
# Operations that do not break off

Three sums are added up unchecked: the count of slots without a null, the number of the row
that is closed in a struct, and the end of a slot that is given by its length.  An operation
breaks off exactly where such a sum is no size.  Whatever else keeps it from coming to its end
is reported by a fault: memory that is lacking, an argument or a state that does not fit.

Here this is shown of what the storage beneath writers does, and of constructions, which add
nothing up.  How far operations on writers are from such a sum is another matter.
-/

namespace Columnar

/-- The operation does not break off, and what it leaves has the property if it came to its
end. -/
structure Outcome.Orderly {σ : Type} (o : Outcome σ) (P : σ → Prop) : Prop where
  unbroken : ∀ fault, o.fault = some fault → fault.isBreak = false
  ensures : o.Ensures P

namespace Outcome

variable {σ τ : Type} {P Q : σ → Prop} {o : Outcome σ}

theorem orderly_done {a : σ} {m : Ledger} (h : P a) : (done a m).Orderly P :=
  ⟨nofun, ensures_done h⟩

theorem orderly_stopped {a : σ} {m : Ledger} {fault : Fault} (h : fault.isBreak = false) :
    (stopped a m fault).Orderly P :=
  ⟨fun _ hfault => Option.some.inj hfault ▸ h, ensures_stopped⟩

/-- Only what happens in one operation can break it off. -/
theorem Orderly.imp (h : o.Orderly P) (hPQ : ∀ a, P a → Q a) : o.Orderly Q :=
  ⟨h.unbroken, h.ensures.imp hPQ⟩

theorem orderly_map {whole : σ → τ} {R : τ → Prop} (h : o.Orderly fun a => R (whole a)) :
    (o.map whole).Orderly R :=
  ⟨h.unbroken, ensures_map h.ensures⟩

/-- A chain does not break off if neither of its operations does. -/
theorem Orderly.andThen (h : o.Orderly P) {next : σ → Ledger → Outcome σ}
    (hnext : ∀ a m, P a → (next a m).Orderly Q) : (o.andThen next).Orderly Q := by
  cases hfirst : o.fault with
  | none =>
    rw [andThen_of_none hfirst]
    exact hnext _ _ (h.ensures hfirst)
  | some fault =>
    rw [andThen_of_some hfirst]
    exact ⟨h.unbroken, fun hnone => nomatch hfirst.symm.trans hnone⟩

/-- Nor do two operations on the parts of a whole. -/
theorem Orderly.both {σ' : Type} (h : o.Orderly P) {whole : σ → σ' → τ} {b : σ'}
    {second : Ledger → Outcome σ'} {R : τ → Prop}
    (hsecond : ∀ a m, P a → (second m).Orderly fun b' => R (whole a b')) :
    (both whole b o second).Orderly R := by
  rw [both_eq_elim]
  cases hfirst : o.fault with
  | none =>
    rw [elim_of_none hfirst]
    exact orderly_map (hsecond _ _ (h.ensures hfirst))
  | some fault =>
    rw [elim_of_some hfirst]
    exact orderly_stopped (h.unbroken fault hfirst)

/-- Nor does a chain of operations.  `I items` is what is known while the items are still to
come. -/
theorem Orderly.foldl {α : Type} {I : List α → σ → Prop} {op : α → σ → Ledger → Outcome σ}
    {items : List α} (h : o.Orderly (I items))
    (hstep : ∀ item rest a m, I (item :: rest) a → (op item a m).Orderly (I rest)) :
    (items.foldl (fun o item => o.andThen (op item)) o).Orderly (I []) := by
  induction items generalizing o with
  | nil => exact h
  | cons item rest ih => exact ih (h.andThen fun a m ha => hstep item rest a m ha)

/-- An operation that only lacks memory does not break off. -/
theorem orderly_of_outOfMemory
    (h : ∀ fault, o.fault = some fault → ∃ refusal, fault = .outOfMemory refusal)
    (hensures : o.Ensures P) : o.Orderly P := by
  refine ⟨fun fault hfault => ?_, hensures⟩
  obtain ⟨refusal, rfl⟩ := h fault hfault
  rfl

end Outcome

open Outcome

namespace Buffer

variable {α : Type} {width : Nat} (b : Buffer α width) (m : Ledger)

theorem orderly_growTo (room : Nat) : (b.growTo room m).Orderly fun _ => True :=
  orderly_map (orderly_of_outOfMemory (fun _ => Loan.outOfMemory_of_grow) fun _ => trivial)

theorem orderly_reserve (bytes : Nat) : (b.reserve bytes m).Orderly fun _ => True := by
  unfold Buffer.reserve
  split
  · exact orderly_done trivial
  · split
    · exact orderly_stopped rfl
    · exact b.orderly_growTo m _

theorem orderly_ensure (bytes : Nat) : (b.ensure bytes m).Orderly fun _ => True := by
  unfold Buffer.ensure
  split
  · exact orderly_done trivial
  · split
    · exact orderly_stopped rfl
    · exact b.orderly_growTo m _

theorem orderly_append (items : List α) : (b.append items m).Orderly fun _ => True :=
  (b.orderly_ensure m _).andThen fun _ _ _ => orderly_done trivial

theorem orderly_resize (n : Nat) (item : α) : (b.resize n item m).Orderly fun _ => True := by
  unfold Buffer.resize
  split
  · exact orderly_done trivial
  · exact (b.orderly_ensure m _).andThen fun _ _ _ => orderly_done trivial

end Buffer

namespace Bitmap

variable (b : Bitmap) (bit : Bool) (n : Nat) (m : Ledger)

theorem orderly_reserve : (b.reserve n m).Orderly fun _ => True := by
  unfold Bitmap.reserve
  split
  · exact orderly_stopped rfl
  · exact orderly_map (b.bytes.orderly_reserve m _)

/-- Bytes that are resized for the bits lack memory at most. -/
private theorem orderly_bytes (bytes : Buffer UInt8 1) (byte : UInt8) (length : Nat) :
    ((bytes.resize n byte m).map fun bytes => Bitmap.mk bytes length).Orderly fun _ => True :=
  orderly_map (bytes.orderly_resize m n byte)

/-- The count of the bits is checked, so a bit that has no number is refused. -/
theorem orderly_append : (b.append bit m).Orderly fun _ => True := by
  unfold Bitmap.append
  split
  · exact orderly_stopped rfl
  · exact (orderly_bytes _ m b.bytes 0 b.length).andThen fun _ _ _ => orderly_done trivial

theorem orderly_appendMany : (b.appendMany bit n m).Orderly fun _ => True := by
  unfold Bitmap.appendMany
  split
  · exact orderly_stopped rfl
  · split
    · exact (orderly_bytes _ m b.padded 0xff b.length).andThen fun _ _ _ => orderly_done trivial
    · split
      · exact orderly_done trivial
      · exact (orderly_bytes _ m b.bytes 0 b.length).andThen fun _ _ _ => orderly_done trivial

end Bitmap

namespace Validity

variable (v : Validity) (m : Ledger)

/-- Making the mask does not break off: it checks how many slots there will be. -/
theorem orderly_firstNulls (slots planned n : Nat) :
    (firstNulls slots planned n m).Orderly fun _ => True := by
  cases hsum : Size.add? slots n with
  | none =>
    simp only [firstNulls, hsum]
    exact orderly_stopped rfl
  | some total =>
    have hset := (Bitmap.orderly_reserve {} (max planned total) m).andThen fun bits m _ =>
      bits.orderly_appendMany true slots m
    have hmade := hset.andThen fun bits m _ => bits.orderly_appendMany false n m
    rw [firstNulls_eq hsum]
    cases hfault : (((Bitmap.reserve {} (max planned total) m).andThen fun bits m =>
        bits.appendMany true slots m).andThen fun bits m => bits.appendMany false n m).fault with
    | none =>
      rw [elim_of_none hfault]
      exact orderly_done trivial
    | some fault =>
      rw [elim_of_some hfault]
      exact orderly_stopped (hmade.unbroken fault hfault)

theorem orderly_reserve (n : Nat) : (v.reserve n m).Orderly fun v' => v'.length = v.length := by
  refine ⟨?_, fun _ => length_eq (idle_reserve n v m)⟩
  unfold Validity.reserve
  split
  · exact (orderly_stopped (P := fun _ => True) rfl).unbroken
  · cases v with
    | allValid => exact nofun
    | mask bits => exact (bits.orderly_reserve n m).unbroken

/-- A run of slots is counted and checked at one go. -/
theorem orderly_appendMany (valid : Bool) (n : Nat) :
    (v.appendMany valid n m).Orderly fun _ => True := by
  unfold Validity.appendMany
  split
  · exact orderly_done trivial
  · cases v with
    | mask bits => exact orderly_map (bits.orderly_appendMany valid n m)
    | allValid slots planned =>
      cases valid with
      | false => exact orderly_firstNulls m slots planned n
      | true =>
        dsimp only
        split
        · exact orderly_stopped rfl
        · exact orderly_done trivial

variable {v}

/-- One slot more does not break off as long as it has a number. -/
theorem orderly_append (valid : Bool) (h : v.length + 1 ≤ Size.max) :
    (v.append valid m).Orderly fun v' => v'.length = v.length + 1 := by
  refine ⟨?_, v.ensures_length_append valid m⟩
  match v, valid with
  | mask bits, valid => exact (bits.orderly_append valid m).unbroken
  | allValid slots planned, true =>
    have hsum : Size.add? slots 1 = some (slots + 1) := Size.add?_of_le h
    simp only [append, hsum]
    intro fault hfault
    cases hfault
  | allValid slots planned, false => exact (orderly_firstNulls m slots planned 1).unbroken

end Validity

namespace Offsets

variable (o : Offsets) (m : Ledger)

theorem orderly_reserve (n : Nat) : (o.reserve n m).Orderly fun o' => o'.lastEnd = o.lastEnd := by
  unfold Offsets.reserve
  split
  · exact orderly_stopped rfl
  · exact orderly_map ((o.ends.orderly_reserve m _).imp fun _ _ => rfl)

/-- An end that is given is compared, and nothing is added up. -/
theorem orderly_append (stop : Nat) :
    (o.append stop m).Orderly fun o' => o'.lastEnd ≤ Size.max := by
  unfold Offsets.append
  split
  · exact orderly_stopped rfl
  · rename_i hfits
    split
    · exact orderly_stopped rfl
    · have hpush : ((o.ends.push stop m).map fun ends => { o with ends }).Orderly fun _ => True :=
        orderly_map (o.ends.orderly_append m [(stop : Int)])
      refine hpush.andThen fun _ _ _ => orderly_done ?_
      exact Nat.le_trans (Nat.le_of_not_lt hfits) (by decide)

variable {o}

/-- An end that is given by a length does not break off as long as it is a size. -/
theorem orderly_appendLength {n : Nat} (h : o.lastEnd + n ≤ Size.max) :
    (o.appendLength n m).Orderly fun o' => o'.lastEnd ≤ Size.max := by
  rw [appendLength_eq h]
  exact o.orderly_append m _

end Offsets

/-- Whatever kept a construction from coming to its end is reported. -/
def Made.Unbroken {σ : Type} (made : Made σ) : Prop :=
  ∀ fault, made.1 = .error fault → fault.isBreak = false

namespace Made

variable {σ τ : Type} {made : Made σ} {m : Ledger}

theorem unbroken_map (h : made.Unbroken) (whole : σ → τ) : (made.map whole).Unbroken := by
  rcases made with ⟨fault | a, m⟩
  · exact fun _ hsame => Except.error.inj hsame ▸ h fault rfl
  · exact nofun

theorem Unbroken.chain (h : made.Unbroken) (rest : Nat) {next : σ → Ledger → Made τ}
    (hnext : ∀ a m, (next a m).Unbroken) : (made.chain rest next).Unbroken := by
  rcases made with ⟨fault | a, m⟩
  · exact fun _ hsame => Except.error.inj hsame ▸ h fault rfl
  · exact hnext a m

/-- What is made of an outcome is made as orderly as the outcome is. -/
theorem unbroken_make {o : Outcome σ} {P : σ → Prop} (h : o.Orderly P) (room : σ → Nat)
    {next : σ → Ledger → Made τ} (hnext : ∀ a m, (next a m).Unbroken) :
    (o.make room next).Unbroken := by
  unfold Outcome.make
  cases hfault : o.fault with
  | none =>
    rw [elim_of_none hfault]
    exact hnext _ _
  | some fault =>
    rw [elim_of_some hfault]
    exact fun fault' hsame => Except.error.inj hsame ▸ h.unbroken fault hfault

end Made

theorem Buffer.unbroken_new {α : Type} {width : Nat} (bytes : Nat) (m : Ledger) :
    (Buffer.new bytes m : Made (Buffer α width)).Unbroken := by
  cases hroom : roomFor? bytes with
  | none =>
    simp only [Buffer.new, hroom]
    exact fun fault hfault => Except.error.inj hfault ▸ rfl
  | some room =>
    rw [Buffer.new_eq hroom]
    cases hfault : (Loan.grow {} room m).fault with
    | none =>
      rw [elim_of_none hfault]
      intro fault hnone
      cases hnone
    | some fault =>
      obtain ⟨refusal, rfl⟩ := Loan.outOfMemory_of_grow hfault
      rw [elim_of_some hfault]
      exact fun fault hfault => Except.error.inj hfault ▸ rfl

theorem Slots.unbroken_new (capacity : Nat) (m : Ledger) : (Slots.new capacity m).Unbroken := by
  rw [Slots.new_eq, Offsets.new_eq]
  refine Made.unbroken_map ((Buffer.unbroken_new _ m).chain 0 fun ends m => ?_) _
  exact Made.unbroken_make (ends.orderly_append m _) _ fun _ _ => nofun

theorem BytesWriter.unbroken_new (capacity bytes : Nat) (m : Ledger) :
    (BytesWriter.new capacity bytes m).Unbroken := by
  rw [BytesWriter.new_eq]
  exact (Slots.unbroken_new capacity m).chain 0 fun _ m =>
    (Buffer.unbroken_new bytes m).chain _ fun _ _ => nofun

mutual

/-- Making a writer does not break off, since it reports the refusal of whichever part finds no
memory. -/
theorem Writer.unbroken_new : (layout : Layout) → (m : Ledger) → (Writer.new layout m).Unbroken
  | .boolean, m => by
    rw [Writer.new, BooleanWriter.new_eq, Bitmap.new_eq]
    exact Made.unbroken_map (Made.unbroken_map (Made.unbroken_map (Buffer.unbroken_new _ m) _) _) _
  | .number _, m => by
    rw [Writer.new, NumberWriter.new_eq]
    exact Made.unbroken_map (Made.unbroken_map (Buffer.unbroken_new _ m) _) _
  | .binary, m => Made.unbroken_map (BytesWriter.unbroken_new 0 0 m) _
  | .utf8, m => Made.unbroken_map (BytesWriter.unbroken_new 0 0 m) _
  | .list item nullable, m => by
    rw [Writer.new_list]
    refine (Writer.unbroken_new item m).chain 0 fun child m => ?_
    rw [Writer.newList_eq]
    exact (Slots.unbroken_new 0 m).chain _ fun _ _ => nofun
  | .struct fields, m => Made.unbroken_map (Writers.unbroken_new fields m) _

theorem Writers.unbroken_new : (fields : LayoutFields) → (m : Ledger) →
    (Writers.new fields m).Unbroken
  | .nil, _ => nofun
  | .cons name layout nullable rest, m => by
    rw [Writers.new_cons]
    exact (Writer.unbroken_new layout m).chain 0 fun _ m =>
      (Writers.unbroken_new rest m).chain _ fun _ _ => nofun

end

mutual

/-- Checking a layout does not break off, since it reports the name that is repeated. -/
theorem Layout.unbroken_check : (layout : Layout) → ∀ fault, layout.check = .error fault →
    fault.isBreak = false
  | .list item _, fault, h => item.unbroken_check fault h
  | .struct fields, fault, h => fields.unbroken_check [] fault h
  | .boolean, _, h | .number _, _, h | .binary, _, h | .utf8, _, h => nomatch h

theorem LayoutFields.unbroken_check : (fields : LayoutFields) → (seen : List String) →
    ∀ fault, fields.check seen = .error fault → fault.isBreak = false
  | .nil, _, _, h => nomatch h
  | .cons name layout _ rest, seen, fault, h => by
    rw [LayoutFields.check] at h
    split at h
    · exact Except.error.inj h ▸ rfl
    · cases hfirst : layout.check with
      | error fault' =>
        rw [hfirst] at h
        exact Except.error.inj h ▸ layout.unbroken_check fault' hfirst
      | ok _ =>
        rw [hfirst] at h
        exact rest.unbroken_check (name :: seen) fault h

end

/-- Making a column does not break off, for its layout is refused or memory is lacking. -/
theorem Column.unbroken_new (layout : Layout) (m : Ledger) : (Column.new layout m).Unbroken := by
  unfold Column.new
  split
  · rename_i fault hcheck
    exact fun fault' h => Except.error.inj h ▸ layout.unbroken_check fault hcheck
  · exact Made.unbroken_map (Writer.unbroken_new layout m) _

/-- A column does not break off with a fault when it is finished. -/
theorem Column.unbroken_finish (c : Column) (m : Ledger) {fault : Fault}
    (h : (c.finish m).1 = .error (.fault fault)) : fault.isBreak = false := by
  unfold Column.finish at h
  cases hstate : c.state with
  | finished =>
    rw [hstate] at h
    exact Failure.fault.inj (Except.error.inj h) ▸ rfl
  | failed writer =>
    rw [hstate] at h
    exact Failure.fault.inj (Except.error.inj h) ▸ rfl
  | usable progress writer =>
    rw [hstate] at h
    dsimp only at h
    split at h
    · exact nomatch h
    · exact nomatch h

end Columnar
