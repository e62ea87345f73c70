import Columnar.Bank
import Columnar.Proofs.Holding
/-!
# What a refused operation leaves

Most operations do all of their work or none of it: `Outcome.Atomic`.  If such
an operation stops, it leaves the storage exactly as it was, memory included,
and the ledger with as much lent as before.  This goes for loans, buffers,
offsets and validity, and for whatever asks for memory before it changes
anything.

Just one operation does not: a run of ones on a bitmap sets the bits past the
end of the last byte before it asks for memory, and a refusal leaves them set.
`Bitmap.appendMany_ends` tells what it leaves.

It matters for what consists of several parts, since the parts that were added
to before stay longer.
-/

namespace Columnar

/-- A request that is refused leaves the ledger with the same limit and as much lent as before. -/
theorem Ledger.sameLent_ask_of_some {m : Ledger} {n : Nat} {refusal : Refusal}
    (h : (m.ask n).1 = some refusal) : (m.ask n).2.SameLent m :=
  ⟨limit_ask m n, lent_ask_of_some h⟩

section Rules

variable {σ τ : Type}

namespace Outcome

/-- If the operation stops, nothing has changed but the list of requests. -/
def Atomic (o : Outcome σ) (a : σ) (m : Ledger) : Prop :=
  ∀ fault, o.fault = some fault → o.value = a ∧ o.ledger.SameLent m

variable {a : σ} {m : Ledger}

/-- Whoever comes to an end at once does not stop. -/
theorem atomic_done {b : σ} {m' : Ledger} : (done b m').Atomic a m :=
  nofun

/-- An operation that stops at once leaves its value and what is lent as they were. -/
theorem atomic_stopped {m' : Ledger} {f : Fault} (h : m'.SameLent m) :
    (stopped a m' f).Atomic a m :=
  fun _ _ => ⟨rfl, h⟩

/-- A whole is left as it was if the part is. -/
theorem Atomic.map {o : Outcome σ} (h : o.Atomic a m) (whole : σ → τ) :
    (o.map whole).Atomic (whole a) m := by
  intro fault hfault
  obtain ⟨hvalue, hledger⟩ := h fault hfault
  exact ⟨congrArg whole hvalue, hledger⟩

/-- What is done only once everything is granted changes nothing about that. -/
theorem Atomic.andThen_done {o : Outcome σ} (h : o.Atomic a m) (change : σ → σ) :
    (o.andThen fun b m => .done (change b) m).Atomic a m := by
  intro fault hfault
  cases hfirst : o.fault with
  | none =>
    rw [andThen_of_none hfirst] at hfault
    exact nomatch hfault
  | some other =>
    rw [andThen_of_some hfirst]
    exact h other hfirst

end Outcome

end Rules

/-- A loan grows by what it asks for, or it stays as it was and nothing more is lent. -/
theorem Loan.atomic_grow (loan : Loan) (n : Nat) (m : Ledger) : (loan.grow n m).Atomic loan m := by
  unfold Loan.grow
  split
  · exact Outcome.atomic_done
  · split
    · exact Outcome.atomic_done
    · rename_i refusal m' hasked
      refine Outcome.atomic_stopped ?_
      have hrefused : (m.ask n).1 = some refusal := congrArg Prod.fst hasked
      have hledger := Ledger.sameLent_ask_of_some hrefused
      rwa [hasked] at hledger

namespace Buffer

variable {α : Type} {width : Nat} (b : Buffer α width) (m : Ledger)

theorem atomic_growTo (room : Nat) : (b.growTo room m).Atomic b m :=
  (b.loan.atomic_grow (room - b.room) m).map fun loan => ({ b with loan } : Buffer α width)

theorem atomic_reserve (bytes : Nat) : (b.reserve bytes m).Atomic b m := by
  unfold Buffer.reserve
  split
  · exact Outcome.atomic_done
  · split
    · exact Outcome.atomic_stopped (.refl m)
    · exact b.atomic_growTo m _

theorem atomic_ensure (bytes : Nat) : (b.ensure bytes m).Atomic b m := by
  unfold Buffer.ensure
  split
  · exact Outcome.atomic_done
  · split
    · exact Outcome.atomic_stopped (.refl m)
    · exact b.atomic_growTo m _

theorem atomic_append (items : List α) : (b.append items m).Atomic b m :=
  (b.atomic_ensure m (width * items.length)).andThen_done fun b =>
    { b with items := b.items ++ items }

theorem atomic_resize (n : Nat) (item : α) : (b.resize n item m).Atomic b m := by
  unfold Buffer.resize
  split
  · exact Outcome.atomic_done
  · exact (b.atomic_ensure m _).andThen_done fun b' =>
      { b' with items := b'.items ++ List.replicate (n - b.items.length) item }

end Buffer

namespace Bitmap

variable (b : Bitmap) (m : Ledger)

theorem atomic_reserve (n : Nat) : (b.reserve n m).Atomic b m := by
  unfold Bitmap.reserve
  split
  · exact Outcome.atomic_stopped (.refl m)
  · exact (b.bytes.atomic_reserve m _).map fun bytes => { b with bytes }

theorem atomic_append (bit : Bool) : (b.append bit m).Atomic b m := by
  unfold Bitmap.append
  split
  · exact Outcome.atomic_stopped (.refl m)
  · rename_i length hlength
    exact ((b.bytes.atomic_resize m (bytesFor length) 0).map fun bytes =>
      { b with bytes }).andThen_done fun b' =>
        { bytes := if bit then setBit b'.bytes b'.length else b'.bytes, length }

/-- A run of ones starts with setting the bits past the end of the last byte, and
stops only where memory for more bytes is refused. -/
theorem appendMany_ends {n : Nat} {fault : Fault}
    (hfault : (b.appendMany true n m).fault = some fault) :
    (b.appendMany true n m).ledger.SameLent m ∧
      ((b.appendMany true n m).value = b ∨
        ((b.appendMany true n m).value = { b with bytes := b.padded } ∧
          b.length + n ≤ Size.max ∧ b.padded.items.length < bytesFor (b.length + n))) := by
  unfold Bitmap.appendMany at hfault ⊢
  split at hfault
  · exact ⟨.refl m, .inl rfl⟩
  · rename_i length hlength
    obtain ⟨rfl, hmax⟩ := Size.add?_eq_some hlength
    rw [if_pos rfl] at hfault ⊢
    have hatomic := (b.padded.atomic_resize m (bytesFor (b.length + n)) 0xff).map fun bytes =>
      ({ b with bytes } : Bitmap)
    obtain ⟨hvalue, hledger⟩ := (hatomic.andThen_done fun b' =>
      { bytes := clearedPast b'.bytes (b.length + n), length := b.length + n }) fault hfault
    refine ⟨hledger, .inr ⟨hvalue, hmax, ?_⟩⟩
    -- Bytes that are there already are not refused.
    refine Nat.lt_of_not_le fun hle => ?_
    rw [Buffer.resize, if_pos hle] at hfault
    exact nomatch hfault

theorem atomic_appendMany_false (n : Nat) : (b.appendMany false n m).Atomic b m := by
  unfold Bitmap.appendMany
  split
  · exact Outcome.atomic_stopped (.refl m)
  · rename_i length hlength
    rw [if_neg Bool.false_ne_true]
    split
    · exact Outcome.atomic_done
    · exact ((b.bytes.atomic_resize m (bytesFor length) 0).map fun bytes =>
        { b with bytes }).andThen_done fun b' => { b' with length }

end Bitmap

namespace Validity

variable (v : Validity) (m : Ledger)

theorem atomic_reserve (n : Nat) : (v.reserve n m).Atomic v m := by
  unfold Validity.reserve
  split
  · exact Outcome.atomic_stopped (.refl m)
  · cases v with
    | allValid slots planned => exact Outcome.atomic_done
    | mask bits => exact (bits.atomic_reserve m n).map mask

/-- Nulls that are refused are not there, and neither is a mask. -/
theorem value_firstNulls_of_fault {slots planned n : Nat} {m : Ledger} {fault : Fault}
    (hfault : (firstNulls slots planned n m).fault = some fault) :
    (firstNulls slots planned n m).value = .allValid slots planned := by
  unfold firstNulls at hfault ⊢
  split at hfault
  · rfl
  · dsimp only at hfault ⊢
    split at hfault
    · rename_i hmade
      exact absurd (hmade.symm.trans hfault) nofun
    · rfl

/-- What was granted for a mask that is refused later on was given back. -/
theorem atomic_firstNulls (slots planned n : Nat) :
    (firstNulls slots planned n m).Atomic (.allValid slots planned) m := by
  intro fault hfault
  have hvalue := value_firstNulls_of_fault hfault
  obtain ⟨hlent, hlimit⟩ := (deal_firstNulls slots planned n).lent_add (Nat.zero_le m.lent)
  have hroom : Yield.room (firstNulls slots planned n m).result.1 = 0 :=
    congrArg Validity.room hvalue
  rw [hroom] at hlent
  exact ⟨hvalue, hlimit, hlent⟩

theorem atomic_append (valid : Bool) : (v.append valid m).Atomic v m := by
  cases v with
  | mask bits => exact (bits.atomic_append m valid).map mask
  | allValid slots planned =>
    cases valid with
    | true =>
      unfold Validity.append
      dsimp only
      cases Size.add? slots 1 with
      | none => exact Outcome.atomic_stopped (.refl m)
      | some total => exact Outcome.atomic_done
    | false => exact atomic_firstNulls m slots planned 1

/-- A validity without nulls has no mask, it only counts. -/
theorem exists_of_not_hasNulls {v : Validity} (h : v.hasNulls = false) :
    ∃ slots planned, v = .allValid slots planned := by
  cases v with
  | allValid slots planned => exact ⟨slots, planned, rfl⟩
  | mask bits => exact nomatch h

/-- Without a mask an operation is done at once, or it stops at once, or it makes
the mask. -/
theorem run_allValid_cases (slots planned : Nat) (op : BitsOp) :
    (∃ slots' planned', op.runValidity (.allValid slots planned) m =
        .done (.allValid slots' planned') m) ∨
      (∃ fault, op.runValidity (.allValid slots planned) m =
        .stopped (.allValid slots planned) m fault) ∨
      ∃ n, 0 < n ∧ op.runValidity (.allValid slots planned) m = firstNulls slots planned n m := by
  cases op with
  | reserve n =>
    simp only [BitsOp.runValidity, Validity.reserve]
    cases Size.add? (Validity.allValid slots planned).length n with
    | none => exact .inr (.inl ⟨_, rfl⟩)
    | some total => exact .inl ⟨_, _, rfl⟩
  | append valid =>
    cases valid with
    | true =>
      simp only [BitsOp.runValidity, Validity.append]
      cases Size.add? slots 1 with
      | none => exact .inr (.inl ⟨_, rfl⟩)
      | some total => exact .inl ⟨_, _, rfl⟩
    | false => exact .inr (.inr ⟨1, Nat.one_pos, rfl⟩)
  | appendMany valid n =>
    simp only [BitsOp.runValidity, Validity.appendMany]
    by_cases hn : n = 0
    · rw [if_pos hn]
      exact .inl ⟨_, _, rfl⟩
    · rw [if_neg hn]
      cases valid with
      | false => exact .inr (.inr ⟨n, Nat.pos_of_ne_zero hn, rfl⟩)
      | true =>
        dsimp only
        cases Size.add? slots n with
        | none => exact .inr (.inl ⟨_, rfl⟩)
        | some total => exact .inl ⟨_, _, rfl⟩

/-- As long as a validity has no mask, an operation on it is done or leaves it as it was. -/
theorem atomic_run_allValid (slots planned : Nat) (op : BitsOp) :
    (op.runValidity (.allValid slots planned) m).Atomic (.allValid slots planned) m := by
  obtain ⟨slots', planned', hdone⟩ | ⟨fault, hstopped⟩ | ⟨n, -, hnulls⟩ :=
    run_allValid_cases m slots planned op
  · rw [hdone]
    exact Outcome.atomic_done
  · rw [hstopped]
    exact Outcome.atomic_stopped (.refl m)
  · rw [hnulls]
    exact atomic_firstNulls m slots planned n

end Validity

namespace Offsets

variable (o : Offsets) (m : Ledger)

theorem atomic_reserve (n : Nat) : (o.reserve n m).Atomic o m := by
  unfold Offsets.reserve
  split
  · exact Outcome.atomic_stopped (.refl m)
  · exact (o.ends.atomic_reserve m _).map fun ends => { o with ends }

theorem atomic_append (stop : Nat) : (o.append stop m).Atomic o m := by
  unfold Offsets.append
  split
  · exact Outcome.atomic_stopped (.refl m)
  · split
    · exact Outcome.atomic_stopped (.refl m)
    · exact ((o.ends.atomic_append m [(stop : Int)]).map fun ends =>
        { o with ends }).andThen_done fun o' => { o' with last := stop }

theorem atomic_appendLength (n : Nat) : (o.appendLength n m).Atomic o m := by
  unfold Offsets.appendLength
  cases Size.add? o.lastEnd n with
  | none => exact Outcome.atomic_stopped (.refl m)
  | some stop => exact o.atomic_append m stop

end Offsets

end Columnar
