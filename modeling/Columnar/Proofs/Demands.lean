import Columnar.Bank
import Columnar.Proofs.Conservation
import Columnar.Proofs.Reserving
/-!
# Reserving meets its demands

Reserving does with the ledger just what meeting its demands does: `Outcome.Meets`.
So it only fails for want of memory, and where the ledger grants everything it fails
exactly if some demand does not fit.

Whether it fails or not, nothing of it can be seen: `Provides`.
-/

namespace Columnar

namespace Loan

variable {loan : Loan} {n : Nat} {m : Ledger}

/-- A loan that does not grow was refused by the ledger, so its fault is lack of memory. -/
theorem outOfMemory_of_grow {fault : Fault} (h : (loan.grow n m).fault = some fault) :
    ∃ refusal, fault = .outOfMemory refusal := by
  unfold Loan.grow at h
  split at h
  · exact nomatch h
  · split at h
    · exact nomatch h
    · exact ⟨_, (Option.some.inj h).symm⟩

/-- What is asked of the ledger does not depend on the loan. -/
theorem map_grow (loan loan' : Loan) (n : Nat) (m : Ledger) :
    ((loan.grow n m).map fun _ => ()) = (loan'.grow n m).map fun _ => () := by
  unfold Loan.grow
  split
  · rfl
  · split <;> rfl

end Loan

namespace Demand

variable {m : Ledger} {d : Demand} {ds : List Demand} {fault : Fault}

/-- A buffer gets the room that is demanded, if that fits. -/
theorem roomFor?_eq (n : Nat) :
    Buffer.roomFor? n = if padded n ≤ Buffer.maxRoom then some (padded n) else none := rfl

/-- Room for some bytes fits exactly if they are no more than the largest room. -/
theorem fits_bytes_iff {held room more : Nat} :
    (bytes held room more).Fits ↔ held + more ≤ Buffer.maxRoom := by
  have hover := not_congr (Buffer.roomFor?_eq_none_iff (n := held + more))
  simpa [Fits, roomFor?_eq] using hover

/-- The first demands are met first. -/
theorem meetAll_append (ds ds' : List Demand) (m : Ledger) :
    meetAll (ds ++ ds') m = (meetAll ds m).andThen fun _ => meetAll ds' := by
  induction ds generalizing m with
  | nil => rfl
  | cons d ds ih =>
    simp only [List.cons_append, meetAll]
    cases hfault : (d.meet m).fault with
    | none =>
      rw [Outcome.andThen_of_none hfault, Outcome.andThen_of_none hfault]
      exact ih _
    | some fault =>
      rw [Outcome.andThen_of_some hfault, Outcome.andThen_of_some hfault,
        Outcome.andThen_of_some hfault]

/-- A demand that is not met reports lack of memory, for a count that is no size as for a refused
request. -/
theorem outOfMemory_of_meet (h : (d.meet m).fault = some fault) :
    ∃ refusal, fault = .outOfMemory refusal := by
  unfold meet at h
  split at h
  · exact Loan.outOfMemory_of_grow h
  · exact ⟨.overflow, (Option.some.inj h).symm⟩

/-- Demands that are not all met report lack of memory. -/
theorem outOfMemory_of_meetAll (h : (meetAll ds m).fault = some fault) :
    ∃ refusal, fault = .outOfMemory refusal := by
  induction ds generalizing m with
  | nil => exact nomatch h
  | cons d ds ih =>
    rw [meetAll] at h
    cases hfirst : (d.meet m).fault with
    | none =>
      rw [Outcome.andThen_of_none hfirst] at h
      exact ih h
    | some first =>
      rw [Outcome.andThen_of_some hfirst] at h
      exact outOfMemory_of_meet h

/-- A ledger without limit meets exactly the demands that fit. -/
theorem meet_of_unlimited (hlimit : m.limit = none) :
    (d.meet m).ledger.limit = none ∧
      (d.meet m).fault = if d.Fits then none else some (.outOfMemory .overflow) := by
  unfold meet
  split
  · exact (Loan.grow_of_unlimited _ _ hlimit).symm
  · exact ⟨hlimit, rfl⟩

/-- A ledger without limit meets demands exactly if all of them fit. -/
theorem meetAll_of_unlimited (hlimit : m.limit = none) :
    (meetAll ds m).fault =
      if ∀ d ∈ ds, d.Fits then none else some (.outOfMemory .overflow) := by
  induction ds generalizing m with
  | nil => rfl
  | cons d ds ih =>
    obtain ⟨hkept, hfirst⟩ := meet_of_unlimited (d := d) hlimit
    rw [meetAll]
    by_cases hfits : d.Fits
    · rw [if_pos hfits] at hfirst
      rw [Outcome.andThen_of_none hfirst, ih hkept]
      simp only [List.forall_mem_cons, hfits, true_and]
    · rw [if_neg hfits] at hfirst
      rw [Outcome.andThen_of_some hfirst, hfirst]
      simp only [List.forall_mem_cons, hfits, false_and, if_false]

end Demand

namespace Outcome

open Demand

variable {σ τ : Type} {o : Outcome σ} {m : Ledger} {d : Demand} {ds ds' : List Demand}

/-- The operation does with the ledger what meeting the demands does. -/
def Meets (o : Outcome σ) (demands : List Demand) (m : Ledger) : Prop :=
  (o.map fun _ => ()) = meetAll demands m

theorem Meets.fault_eq (h : o.Meets ds m) : o.fault = (meetAll ds m).fault :=
  congrArg Outcome.fault h

theorem Meets.map (h : o.Meets ds m) (whole : σ → τ) : (o.map whole).Meets ds m := h

/-- An operation without demands comes to its end at once and asks for nothing. -/
theorem meets_done (a : σ) : (done a m).Meets [] m := rfl

theorem Meets.andThen (h : o.Meets ds m) {next : σ → Ledger → Outcome σ}
    (hnext : ∀ m, (next o.value m).Meets ds' m) : (o.andThen next).Meets (ds ++ ds') m := by
  have hfault := h.fault_eq
  rw [Meets, meetAll_append, ← h]
  cases hfirst : o.fault with
  | none =>
    rw [andThen_of_none hfirst, andThen_of_none (by exact hfirst)]
    exact hnext o.ledger
  | some fault => rw [andThen_of_some hfirst, andThen_of_some (by exact hfirst)]

theorem Meets.both {σ' : Type} {whole : σ → σ' → τ} {b : σ'} {second : Ledger → Outcome σ'}
    (h : o.Meets ds m) (hsecond : ∀ m, (second m).Meets ds' m) :
    (both whole b o second).Meets (ds ++ ds') m := by
  rw [Meets, meetAll_append, ← h]
  rcases o with ⟨a, m', _ | fault⟩
  · exact hsecond m'
  · rfl

/-- A demand that nothing is asked for is met if it fits. -/
theorem Meets.cons (hlacking : d.lacking = 0) (hfits : d.Fits → o.Meets ds m)
    (hover : ¬ d.Fits → ∃ a, o = .stopped a m (.outOfMemory .overflow)) : o.Meets (d :: ds) m := by
  rw [Meets, meetAll, meet]
  by_cases h : d.Fits
  · rw [if_pos h, hlacking]
    exact hfits h
  · obtain ⟨a, rfl⟩ := hover h
    rw [if_neg h]
    rfl

/-- A single demand is met. -/
theorem meets_singleton (h : (o.map fun _ => ()) = d.meet m) : o.Meets [d] m := by
  rw [Meets, h, meetAll]
  rcases d.meet m with ⟨_, m', _ | fault⟩ <;> rfl

end Outcome

namespace Buffer

variable {α : Type} {width : Nat} {b : Buffer α width}

/-- Reserving bytes in a buffer meets one demand, that of its room. -/
theorem Bounded.meets_reserve (h : b.Bounded) (bytes : Nat) (m : Ledger) :
    (b.reserve bytes m).Meets [.bytes b.byteLength b.room bytes] m := by
  refine Outcome.meets_singleton ?_
  unfold Buffer.reserve Demand.meet
  by_cases hroom : b.byteLength + bytes ≤ b.room
  · have hfits : (Demand.bytes b.byteLength b.room bytes).Fits :=
      Demand.fits_bytes_iff.2 (Nat.le_trans hroom h.room_le)
    rw [if_pos hroom, if_pos hfits, Demand.lacking, if_pos hroom]
    rfl
  · rw [if_neg hroom, Demand.lacking, if_neg hroom, Demand.roomFor?_eq]
    by_cases hfits : Demand.padded (b.byteLength + bytes) ≤ maxRoom
    · rw [if_pos hfits, if_pos (show (Demand.bytes b.byteLength b.room bytes).Fits from hfits)]
      exact Loan.map_grow ..
    · rw [if_neg hfits, if_neg (show ¬ (Demand.bytes b.byteLength b.room bytes).Fits from hfits)]
      rfl

/-- The room that a bounded buffer demands is computed without a sum that is no size. -/
theorem Bounded.safe_bytes (h : b.Bounded) (bytes : Nat) :
    (Demand.bytes b.byteLength b.room bytes).Safe := by
  intro hmore hfits
  have hheld := h.fits
  have hroom := roomFor?_spec ((Demand.roomFor?_eq _).trans (if_pos hfits))
  have hsize := maxRoom_spec.2
  simp only [Size.max] at hsize ⊢
  omega

/-- Reserving items makes two demands. -/
theorem Bounded.meets_demands (h : b.Bounded) (n : Nat) (m : Ledger) {σ : Type}
    (whole : Buffer α width → σ) (unchanged : σ) :
    Outcome.Meets (match Size.mul? n width with
      | none => .stopped unchanged m (.outOfMemory .overflow)
      | some bytes => (b.reserve bytes m).map whole) (b.demands n) m := by
  refine .cons rfl (fun hfits => ?_) fun hover => ?_
  · have hsize : Size.mul? n width = some (n * width) := if_pos hfits
    rw [hsize]
    exact (h.meets_reserve (n * width) m).map whole
  · have hsize : Size.mul? n width = none := if_neg hover
    rw [hsize]
    exact ⟨unchanged, rfl⟩

theorem Bounded.safe_demands (h : b.Bounded) (n : Nat) : ∀ d ∈ b.demands n, d.Safe :=
  List.forall_mem_cons.2 ⟨trivial, List.forall_mem_singleton.2 (h.safe_bytes _)⟩

end Buffer

namespace Bitmap

variable {b : Bitmap}

theorem Bounded.meets_reserve (h : b.Bounded) (n : Nat) (m : Ledger) :
    (b.reserve n m).Meets (b.demands n) m := by
  refine .cons rfl (fun hfits => ?_) fun hover => ?_
  · have hsize : Size.add? b.length n = some (b.length + n) := if_pos hfits
    rw [reserve, hsize]
    exact (h.bytes.meets_reserve _ m).map _
  · have hsize : Size.add? b.length n = none := if_neg hover
    rw [reserve, hsize]
    exact ⟨b, rfl⟩

theorem Bounded.safe_demands (h : b.Bounded) (n : Nat) : ∀ d ∈ b.demands n, d.Safe :=
  List.forall_mem_cons.2 ⟨trivial, List.forall_mem_singleton.2 (h.bytes.safe_bytes _)⟩

end Bitmap

namespace Validity

variable {v : Validity}

theorem Bounded.meets_reserve (h : v.Bounded) (n : Nat) (m : Ledger) :
    (v.reserve n m).Meets (v.demands n) m := by
  refine .cons rfl (fun hfits => ?_) fun hover => ?_
  · have hsize : Size.add? v.length n = some (v.length + n) := if_pos hfits
    rw [reserve, hsize]
    cases v with
    | allValid slots planned => exact Outcome.meets_done _
    | mask bits => exact (Bitmap.Bounded.meets_reserve h n m).map mask
  · have hsize : Size.add? v.length n = none := if_neg hover
    rw [reserve, hsize]
    exact ⟨v, rfl⟩

theorem Bounded.safe_demands (h : v.Bounded) (n : Nat) : ∀ d ∈ v.demands n, d.Safe := by
  refine List.forall_mem_cons.2 ⟨trivial, ?_⟩
  cases v with
  | allValid slots planned => exact nofun
  | mask bits => exact Bitmap.Bounded.safe_demands h n

end Validity

theorem BooleanWriter.Bounded.meets_reserve {w : BooleanWriter} (h : w.Bounded) (n : Nat)
    (m : Ledger) : (w.reserve n m).Meets (w.demands n) m :=
  ((h.validity.meets_reserve n m).map _).andThen fun m => (h.values.meets_reserve n m).map _

theorem NumberWriter.Bounded.meets_reserve {kind : NumberType} {w : NumberWriter kind}
    (h : w.Bounded) (n : Nat) (m : Ledger) : (w.reserve n m).Meets (w.demands n) m :=
  ((h.validity.meets_reserve n m).map _).andThen fun m => h.values.meets_demands n m _ _

theorem Slots.Bounded.meets_reserve {s : Slots} (h : s.Bounded) (n : Nat) (m : Ledger) :
    (s.reserve n m).Meets (s.demands n) m :=
  ((h.validity.meets_reserve n m).map _).andThen fun m =>
    (h.offsets.meets_demands n m (fun ends => { s.offsets with ends }) s.offsets).map _

theorem BytesWriter.Bounded.meets_reserve {w : BytesWriter} (h : w.Bounded) (n : Nat) (m : Ledger) :
    (w.reserve n m).Meets (w.slots.demands n) m :=
  (h.slots.meets_reserve n m).map _

theorem BooleanWriter.Bounded.safe_demands {w : BooleanWriter} (h : w.Bounded) (n : Nat) :
    ∀ d ∈ w.demands n, d.Safe :=
  List.forall_mem_append.2 ⟨h.validity.safe_demands n, h.values.safe_demands n⟩

theorem NumberWriter.Bounded.safe_demands {kind : NumberType} {w : NumberWriter kind}
    (h : w.Bounded) (n : Nat) : ∀ d ∈ w.demands n, d.Safe :=
  List.forall_mem_append.2 ⟨h.validity.safe_demands n, h.values.safe_demands n⟩

theorem Slots.Bounded.safe_demands {s : Slots} (h : s.Bounded) (n : Nat) :
    ∀ d ∈ s.demands n, d.Safe :=
  List.forall_mem_append.2 ⟨h.validity.safe_demands n, h.offsets.safe_demands n⟩

mutual

/-- Reserving slots in a bounded writer meets the demands of all its parts, one after the other, up
to the first that cannot be met. -/
theorem Writer.Bounded.meets_reserve (n : Nat) : {w : Writer} → w.Bounded → (m : Ledger) →
    (w.reserve n m).Meets (w.demands n) m
  | .boolean _, h, m => (BooleanWriter.Bounded.meets_reserve h n m).map _
  | .number _ _, h, m => (NumberWriter.Bounded.meets_reserve h n m).map _
  | .binary _, h, m => (BytesWriter.Bounded.meets_reserve h n m).map _
  | .utf8 _, h, m => (BytesWriter.Bounded.meets_reserve h n m).map _
  | .list .., h, m => (h.1.meets_reserve n m).map _
  | .struct validity columns, h, m => by
    rw [Writer.reserve_struct]
    exact (h.1.meets_reserve n m).both (Writers.Bounded.meets_reserve n h.2)

/-- Reserving slots in columns meets the demands of every column. -/
theorem Writers.Bounded.meets_reserve (n : Nat) : {ws : Writers} → ws.Bounded → (m : Ledger) →
    (ws.reserve n m).Meets (ws.demands n) m
  | .nil, _, _ => Outcome.meets_done _
  | .cons name nullable column rest, h, m => by
    rw [Writers.reserve_cons]
    exact (Writer.Bounded.meets_reserve n h.1 m).both (Writers.Bounded.meets_reserve n h.2)

end

mutual

/-- Whatever a bounded writer demands is safe to compute. -/
theorem Writer.Bounded.safe_demands (n : Nat) : {w : Writer} → w.Bounded →
    ∀ d ∈ w.demands n, d.Safe
  | .boolean _, h => BooleanWriter.Bounded.safe_demands h n
  | .number _ _, h => NumberWriter.Bounded.safe_demands h n
  | .binary _, h => (BytesWriter.Bounded.slots h).safe_demands n
  | .utf8 _, h => (BytesWriter.Bounded.slots h).safe_demands n
  | .list .., h => h.1.safe_demands n
  | .struct .., h =>
    List.forall_mem_append.2 ⟨h.1.safe_demands n, Writers.Bounded.safe_demands n h.2⟩

/-- Whatever bounded columns demand is safe to compute. -/
theorem Writers.Bounded.safe_demands (n : Nat) : {ws : Writers} → ws.Bounded →
    ∀ d ∈ ws.demands n, d.Safe
  | .nil, _ => nofun
  | .cons .., h => List.forall_mem_append.2
    ⟨Writer.Bounded.safe_demands n h.1, Writers.Bounded.safe_demands n h.2⟩

end

namespace Writer

variable {w : Writer}

/-- With the slots room is made for the items of lists, as many as are guessed. -/
theorem Bounded.meets_guess (h : w.Bounded) (n hint : Nat) (m : Ledger) :
    (ColumnOp.work hint (.reserve n) w m).Meets (w.demands n ++ w.guessDemands n hint) m := by
  refine (h.meets_reserve n m).andThen fun m' => ?_
  cases w with
  | list slots nullable child =>
    refine .cons rfl (fun hfits => ?_) fun hover => ?_
    · have hsize : Size.mul? n hint = some (n * hint) := if_pos hfits
      have hchild := Writer.Bounded.meets_reserve (n * hint) h.2 m'
      simp only [reserve, Outcome.value_map, hsize]
      exact hchild.map _
    · have hsize : Size.mul? n hint = none := if_neg hover
      simp only [reserve, Outcome.value_map, hsize]
      exact ⟨_, rfl⟩
  | struct validity columns =>
    -- What is reserved of a struct is a struct.
    have hpair := pair_of_alike (idle_reserve n (.struct validity columns) m)
    generalize (reserve n (.struct validity columns) m).value = reserved at hpair ⊢
    cases hpair
    exact Outcome.meets_done _
  | _ => exact Outcome.meets_done _

theorem Bounded.safe_guess (h : w.Bounded) (n hint : Nat) :
    ∀ d ∈ w.demands n ++ w.guessDemands n hint, d.Safe := by
  refine List.forall_mem_append.2 ⟨h.safe_demands n, ?_⟩
  cases w with
  | list slots nullable child =>
    exact List.forall_mem_cons.2 ⟨trivial, Writer.Bounded.safe_demands (n * hint) h.2⟩
  | _ => exact nofun

end Writer

/-- An operation that meets its demands does nothing else that can be seen.  The writer
that it works on may be part of a column. -/
structure Provides {σ : Type} (writer? : σ → Option Writer) (demands : List Demand)
    (o : Outcome σ) (a : σ) (m : Ledger) : Prop where
  /-- The ledger is asked for what is lacking, as long as it is granted. -/
  meets : o.Meets demands m
  safe : ∀ d ∈ demands, d.Safe
  /-- Reserving fails for lack of memory only. -/
  outOfMemory : ∀ fault, o.fault = some fault → ∃ refusal, fault = .outOfMemory refusal
  /-- Where everything is granted, it fails exactly if some demand does not fit. -/
  unlimited : m.limit = none →
    o.fault = if ∀ d ∈ demands, d.Fits then none else some (.outOfMemory .overflow)
  /-- Success or not, there are as many slots as before. -/
  length : (writer? o.value).map Writer.length = (writer? a).map Writer.length
  byteLength : (writer? o.value).map Writer.byteLength = (writer? a).map Writer.byteLength
  finish : (writer? o.value).map Writer.finish = (writer? a).map Writer.finish

/-- Whatever is alike is the same to see. -/
theorem Outcome.Meets.provides {σ : Type} {writer? : σ → Option Writer} {demands : List Demand}
    {o : Outcome σ} {a : σ} {m : Ledger} {v w : Writer} (h : o.Meets demands m)
    (hsafe : ∀ d ∈ demands, d.Safe) (hvalue : writer? o.value = some v) (ha : writer? a = some w)
    (halike : v ≈ w) : Provides writer? demands o a m where
  meets := h
  safe := hsafe
  outOfMemory fault hfault := Demand.outOfMemory_of_meetAll (h.fault_eq.symm.trans hfault)
  unlimited hlimit := h.fault_eq.trans (Demand.meetAll_of_unlimited hlimit)
  length := by rw [hvalue, ha, Option.map_some, Option.map_some, Writer.length_eq halike]
  byteLength := by
    rw [hvalue, ha, Option.map_some, Option.map_some, Writer.byteLength_eq v w halike]
  finish := by rw [hvalue, ha, Option.map_some, Option.map_some, Writer.finish_eq v w halike]

/-- Reserving in a bounded writer provides what is demanded. -/
theorem Writer.Bounded.provides {w : Writer} (h : w.Bounded) (n : Nat) (m : Ledger) :
    Provides some (w.demands n) (w.reserve n m) w m :=
  (h.meets_reserve n m).provides (h.safe_demands n) rfl rfl (Writer.idle_reserve n w m)

namespace Column

variable {c : Column} {progress : Progress} {w : Writer}

/-- A column that works provides what is demanded of its writer. -/
theorem provides_run (hstate : c.state = .usable progress w) (op : ColumnOp)
    (hop : op.adds = false) {demands : List Demand} {m : Ledger}
    (hmeets : (op.work c.hint w m).Meets demands m) (hsafe : ∀ d ∈ demands, d.Safe) :
    Provides Column.writer? demands (op.run c m) c m := by
  have hwriter : c.writer? = some w := by rw [Column.writer?, hstate]
  have halike := ColumnOp.idle_work c.hint hop w m
  rw [op.run_eq, Column.apply_eq hstate]
  rcases hwork : op.work c.hint w m with ⟨w', m', _ | fault⟩ <;> rw [hwork] at hmeets halike
  · exact Outcome.Meets.provides hmeets hsafe rfl hwriter halike
  · exact Outcome.Meets.provides hmeets hsafe rfl hwriter halike

end Column

/-- What operations lead to, whether they succeed or not, on whatever ledgers. -/
inductive Borrower.Reached : Borrower → Prop where
  | made {b : Borrower} {m m' : Ledger} (blueprint : Blueprint) : blueprint.make m = (.ok b, m') →
      Reached b
  /-- A list writer is made around a writer. -/
  | wrapped {child w : Writer} {m m' : Ledger} (capacity : Nat) (nullable : Bool) :
      Reached (.writer child) → Writer.newList capacity child nullable m = (.ok w, m') →
      Reached (.writer w)
  | operated {b : Borrower} (op : Operation) (m : Ledger) : Reached b → Reached (op.run b m).value
  /-- The writers inside are there as well. -/
  | inside {b : Borrower} {w : Writer} (way : List Inward) : Reached b → b.inner? way = some w →
      Reached (.writer w)

/-- Every borrower that is reached by making it and by any operations is bounded. -/
theorem Borrower.Reached.bounded {b : Borrower} (h : b.Reached) : b.Bounded := by
  induction h with
  | @made b m m' blueprint hmake =>
    have hmade := (blueprint.deal_make.trail 0 m).1
    rwa [hmake] at hmade
  | @wrapped child w m m' capacity nullable _ hnew ih =>
    have hmade := ((Writer.deal_newList capacity (show child.Bounded from ih) nullable).trail 0 m).1
    rwa [hnew] at hmade
  | @operated b op m _ ih => exact ((op.deals_run b ih).trail 0 m).1
  | inside way _ hinner ih => exact ih.inner way hinner

/-- **Reserving provides what is demanded.** In whatever writer is reached, and in whatever column
that works still, reserving for slots or for items of lists meets the demands of its parts one after
the other. It fails for lack of memory only, and then at the first demand that cannot be met;
whether it succeeds or fails, the slots and their bytes are as before. -/
theorem provides_of_reached (n : Nat) (m : Ledger) :
    (∀ {w : Writer}, Borrower.Reached (.writer w) →
      Provides some (w.demands n) (w.reserve n m) w m) ∧
      ∀ {c : Column} {progress : Progress} {w : Writer}, Borrower.Reached (.column c) →
        c.state = .usable progress w →
        Provides Column.writer? (w.demands n ++ w.guessDemands n c.hint) (c.reserve n m) c m ∧
          ((∃ slots nullable child, w = .list slots nullable child) →
            Provides Column.writer? (w.itemDemands n) (c.reserveItems n m) c m) := by
  refine ⟨fun {w} h => Writer.Bounded.provides h.bounded n m, fun {c progress w} h hstate => ?_⟩
  have hw : w.Bounded := h.bounded w (by rw [Column.writer?, hstate]; rfl)
  refine ⟨Column.provides_run hstate (.reserve n) rfl (hw.meets_guess n c.hint m)
    (hw.safe_guess n c.hint), ?_⟩
  rintro ⟨slots, nullable, child, rfl⟩
  exact Column.provides_run hstate (.reserveItems n) rfl
    ((Writer.Bounded.meets_reserve n hw.2 m).map _) (Writer.Bounded.safe_demands n hw.2)

/-- Rows of a flag and a number of eight bytes. -/
private def rows : Layout :=
  .struct (.cons "flag" .boolean false (.cons "number" (.number .float64) false .nil))

/-- An empty writer of rows. -/
private def rowWriter : Writer :=
  match Writer.newWith 0 0 rows {} with
  | (.ok w, _) => w
  | (.error _, _) => .struct (.new 0) .nil

/-- A column of lists of rows, with an enormous guess of rows per list. -/
private def guessing : Column :=
  match Column.new (.list rows false) {} with
  | (.ok c, _) => c.withHint 0x1000000000000000
  | (.error _, _) => { layout := rows, state := .finished }

/-- Room for so many rows that only the flags have room: the numbers are refused, and
nothing of it can be seen.  The items of a list are refused for the guess of them. -/
theorem provides_of_many_rows :
    (rowWriter.reserve 0x1000000000000000 {}).fault = some (.outOfMemory .overflow) ∧
      (rowWriter.reserve 0x1000000000000000 {}).ledger.requests = [0x200000000000000] ∧
      (rowWriter.reserve 0x1000000000000000 {}).value.finish = rowWriter.finish ∧
      (guessing.reserve 1 {}).fault = some (.outOfMemory .overflow) ∧
      (guessing.reserve 0 {}).fault = none ∧
      (guessing.reserveItems 5 {}).fault = none := by
  have hwriter : Borrower.Reached (.writer rowWriter) := .made (.writer rows 0 0) rfl
  have hnew : (Blueprint.column (.list rows false)).make {} = (.ok (.column _), _) := rfl
  have hcolumn : Borrower.Reached (.column guessing) :=
    .operated (.hint 0x1000000000000000) {} (.made _ hnew)
  have hrows := (provides_of_reached 0x1000000000000000 {}).1 hwriter
  have hstate : guessing.state = .usable .fresh _ := rfl
  have hlists (n : Nat) := (provides_of_reached n {}).2 hcolumn hstate
  refine ⟨(hrows.unlimited rfl).trans (if_neg (by decide)), ?_, ?_,
    ((hlists 1).1.unlimited rfl).trans (if_neg (by decide)),
    ((hlists 0).1.unlimited rfl).trans (if_pos (by decide)),
    (((hlists 5).2 ⟨_, _, _, rfl⟩).unlimited rfl).trans (if_pos (by decide))⟩
  · exact (congrArg (fun o : Outcome Unit => o.ledger.requests) hrows.meets).trans (by decide)
  · exact Option.some.inj hrows.finish

end Columnar
