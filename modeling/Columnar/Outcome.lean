import Columnar.Fault
/-!
# Outcomes and histories

An operation on a piece of storage may stop half way, when the ledger refuses memory or an
argument does not fit.  What it did before stays done.  So its outcome always has a value, the
storage as the operation leaves it, and the ledger with it; the fault tells whether the
operation came to its end.  `Outcome.map` carries the outcome of a part over to the whole that
the part belongs to, and `Outcome.andThen` goes on only after success.  `Outcome.Ensures` is
what is known of the value after success; there is one rule for each way to build an outcome.

A history runs operations on one piece of storage, one after the other.  Each may find the
ledger in another state, since others use it as well, and each may end with a fault: whoever
runs them can go on with what an operation left.  A history keeps, for each operation, what it
started from.  So it tells which operations failed, and a claim about a failed one can speak of
the storage that it found.
-/

namespace Columnar

/-- How an operation on a value ended: with the value and the ledger as it left them, and with a
fault if it did not come to its end. -/
structure Outcome (σ : Type) where
  /-- The value as the operation leaves it. -/
  value : σ
  ledger : Ledger
  /-- Why the operation stopped early, if it did. -/
  fault : Option Fault := none

namespace Outcome

variable {σ τ : Type}

/-- The operation came to its end. -/
def done (value : σ) (m : Ledger) : Outcome σ := ⟨value, m, none⟩

/-- The operation stopped. -/
def stopped (value : σ) (m : Ledger) (fault : Fault) : Outcome σ := ⟨value, m, some fault⟩

/-- The outcome of an operation on a part, carried over to the whole around it. -/
def map (whole : σ → τ) (o : Outcome σ) : Outcome τ :=
  ⟨whole o.value, o.ledger, o.fault⟩

/-- Goes on with the next operation, unless this one stopped. -/
def andThen (o : Outcome σ) (next : σ → Ledger → Outcome σ) : Outcome σ :=
  match o.fault with
  | none => next o.value o.ledger
  | some _ => o

/-- One operation on each of two parts of a whole, the second only after
success. -/
def both {σ' : Type} (whole : σ → σ' → τ) (b : σ') (first : Outcome σ)
    (second : Ledger → Outcome σ') : Outcome τ :=
  match first.fault with
  | some _ => first.map fun a => whole a b
  | none => (second first.ledger).map (whole first.value)

/-- Goes on in one way after success and in another after a fault. -/
def elim {ρ : Type} (o : Outcome σ) (next : σ → Ledger → ρ) (stop : σ → Ledger → Fault → ρ) : ρ :=
  match o.fault with
  | none => next o.value o.ledger
  | some fault => stop o.value o.ledger fault

/-- Whether the operation came to its end. -/
def succeeded (o : Outcome σ) : Bool := o.fault.isNone

@[simp] theorem value_done (a : σ) (m : Ledger) : (done a m).value = a := rfl

@[simp] theorem ledger_done (a : σ) (m : Ledger) : (done a m).ledger = m := rfl

@[simp] theorem fault_done (a : σ) (m : Ledger) : (done a m).fault = none := rfl

@[simp] theorem value_stopped (a : σ) (m : Ledger) (f : Fault) :
    (stopped a m f).value = a := rfl

@[simp] theorem ledger_stopped (a : σ) (m : Ledger) (f : Fault) :
    (stopped a m f).ledger = m := rfl

@[simp] theorem fault_stopped (a : σ) (m : Ledger) (f : Fault) :
    (stopped a m f).fault = some f := rfl

@[simp] theorem value_map (g : σ → τ) (o : Outcome σ) : (o.map g).value = g o.value := rfl

@[simp] theorem ledger_map (g : σ → τ) (o : Outcome σ) : (o.map g).ledger = o.ledger := rfl

@[simp] theorem fault_map (g : σ → τ) (o : Outcome σ) : (o.map g).fault = o.fault := rfl

/-- After success the next operation runs. -/
theorem andThen_of_none {o : Outcome σ} (h : o.fault = none)
    (next : σ → Ledger → Outcome σ) : o.andThen next = next o.value o.ledger := by
  simp [andThen, h]

/-- After a fault nothing more happens. -/
theorem andThen_of_some {o : Outcome σ} {f : Fault} (h : o.fault = some f)
    (next : σ → Ledger → Outcome σ) : o.andThen next = o := by
  simp [andThen, h]

/-- After success only the one way is taken. -/
theorem elim_of_none {ρ : Type} {o : Outcome σ} (h : o.fault = none) (next : σ → Ledger → ρ)
    (stop : σ → Ledger → Fault → ρ) : o.elim next stop = next o.value o.ledger := by
  simp [elim, h]

/-- After a fault only the other. -/
theorem elim_of_some {ρ : Type} {o : Outcome σ} {f : Fault} (h : o.fault = some f)
    (next : σ → Ledger → ρ) (stop : σ → Ledger → Fault → ρ) :
    o.elim next stop = stop o.value o.ledger f := by
  simp [elim, h]

/-- A chain goes on, or stops where it is. -/
theorem andThen_eq_elim (o : Outcome σ) (next : σ → Ledger → Outcome σ) :
    o.andThen next = o.elim next stopped := by
  rcases o with ⟨a, m, _ | f⟩ <;> rfl

/-- The second part is gone on with, or the whole is stopped. -/
theorem both_eq_elim {σ' : Type} (whole : σ → σ' → τ) (b : σ') (first : Outcome σ)
    (second : Ledger → Outcome σ') :
    both whole b first second =
      first.elim (fun a m => (second m).map (whole a)) fun a m => stopped (whole a b) m := by
  rcases first with ⟨a, m, _ | f⟩ <;> rfl

/-- A chain succeeds exactly when both its operations do. -/
theorem fault_andThen_eq_none_iff {o : Outcome σ} {next : σ → Ledger → Outcome σ} :
    (o.andThen next).fault = none ↔
      o.fault = none ∧ (next o.value o.ledger).fault = none := by
  cases h : o.fault with
  | none => simp [andThen, h]
  | some f => simp [andThen, h]

/-- Whatever comes after a fault is not done. -/
theorem foldl_stopped {α : Type} (op : α → σ → Ledger → Outcome σ) (items : List α) (a : σ)
    (m : Ledger) (f : Fault) :
    items.foldl (fun o item => o.andThen (op item)) (stopped a m f) = stopped a m f := by
  induction items with
  | nil => rfl
  | cons item items ih => exact ih

/-- The value has the property if the operation came to its end. -/
def Ensures (o : Outcome σ) (P : σ → Prop) : Prop := o.fault = none → P o.value

/-- What is ensured of the value after success can be weakened. -/
theorem Ensures.imp {o : Outcome σ} {P Q : σ → Prop} (h : o.Ensures P)
    (hPQ : ∀ a, P a → Q a) : o.Ensures Q :=
  fun hok => hPQ _ (h hok)

/-- Whoever comes to an end at once ensures what holds of the value. -/
theorem ensures_done {a : σ} {m : Ledger} {P : σ → Prop} (h : P a) : (done a m).Ensures P :=
  fun _ => h

/-- An operation that stops ensures anything of the value after success, since there is no success.
-/
theorem ensures_stopped {a : σ} {m : Ledger} {f : Fault} {P : σ → Prop} :
    (stopped a m f).Ensures P := by
  intro hok
  simp at hok

/-- The whole has a property that the part gives it. -/
theorem ensures_map {o : Outcome σ} {whole : σ → τ} {P : τ → Prop}
    (h : o.Ensures fun a => P (whole a)) : (o.map whole).Ensures P :=
  h

/-- A chain ensures what its second operation ensures after the first. -/
theorem Ensures.andThen {o : Outcome σ} {next : σ → Ledger → Outcome σ} {P Q : σ → Prop}
    (h : o.Ensures P) (hnext : ∀ a m, P a → (next a m).Ensures Q) :
    (o.andThen next).Ensures Q := by
  intro hok
  obtain ⟨hfirst, hsecond⟩ := fault_andThen_eq_none_iff.1 hok
  rw [andThen_of_none hfirst]
  exact hnext _ _ (h hfirst) hsecond

/-- Of two operations on parts of a whole the second ensures what holds of the
whole. -/
theorem ensures_both {σ' : Type} {whole : σ → σ' → τ} {b : σ'} {first : Outcome σ}
    {second : Ledger → Outcome σ'} {P : τ → Prop}
    (h : first.fault = none → (second first.ledger).Ensures fun b' => P (whole first.value b')) :
    (both whole b first second).Ensures P := by
  intro hok
  rw [both_eq_elim] at hok ⊢
  cases hfirst : first.fault with
  | none =>
    rw [elim_of_none hfirst] at hok ⊢
    exact h hfirst hok
  | some fault =>
    rw [elim_of_some hfirst] at hok
    exact nomatch hok

/-- A chain of operations ensures what each one carries on.  `I b` is what is
known after the operations that lead to `b`. -/
theorem Ensures.foldl {α β : Type} {I : β → σ → Prop} {step : β → α → β}
    {op : α → σ → Ledger → Outcome σ} {items : List α} {o : Outcome σ} {b : β}
    (h : o.Ensures (I b))
    (hstep : ∀ item ∈ items, ∀ b a m, I b a → (op item a m).Ensures (I (step b item))) :
    (items.foldl (fun o item => o.andThen (op item)) o).Ensures (I (items.foldl step b)) := by
  induction items generalizing o b with
  | nil => exact h
  | cons item items ih =>
    have hfirst : (o.andThen (op item)).Ensures (I (step b item)) :=
      h.andThen fun a m ha => hstep item List.mem_cons_self b a m ha
    exact ih hfirst fun other hother => hstep other (List.mem_cons_of_mem item hother)

/-- A chain of operations, each of which finds something for its item and carries it on,
ensures that all the items found something.  `I cs` is what is known after operations that
found `cs`, one after the other. -/
theorem Ensures.foldl_found {α γ : Type} {I : List γ → σ → Prop}
    {op : α → σ → Ledger → Outcome σ} {find : α → Option γ} {items : List α} {o : Outcome σ}
    {found : List γ} (h : o.Ensures (I found))
    (hstep : ∀ item ∈ items, ∀ found a m, I found a →
      (op item a m).Ensures fun a' => ∃ c, find item = some c ∧ I (found ++ [c]) a') :
    (items.foldl (fun o item => o.andThen (op item)) o).Ensures fun a =>
      ∃ cs : List γ, items.map find = cs.map some ∧ I (found ++ cs) a := by
  -- What is carried on is what was found so far, for the operations so far.
  have hall : (items.foldl (fun o item => o.andThen (op item)) o).Ensures fun a =>
      ∃ cs : List γ, (items.foldl (fun done item => done ++ [item]) []).map find = cs.map some ∧
        I (found ++ cs) a := by
    refine Ensures.foldl
      (I := fun (done : List α) a =>
        ∃ cs : List γ, done.map find = cs.map some ∧ I (found ++ cs) a)
      (h.imp fun a ha => ⟨[], rfl, by rwa [List.append_nil]⟩) ?_
    rintro item hitem done a m ⟨cs, hcs, ha⟩
    refine (hstep item hitem _ a m ha).imp fun a' ha' => ?_
    obtain ⟨c, hc, hnext⟩ := ha'
    refine ⟨cs ++ [c], ?_, by rwa [← List.append_assoc]⟩
    rw [List.map_append, List.map_append, hcs, List.map_singleton, hc, List.map_singleton]
  have hdone : items.foldl (fun done item => done ++ [item]) [] = items := by
    simp [← List.flatMap_def]
  rwa [hdone] at hall

end Outcome

/-- A whole that is made of two parts. -/
structure Split (σ σ' τ : Type) where
  whole : σ → σ' → τ
  first : τ → σ
  second : τ → σ'
  whole_eq (w : τ) : whole (first w) (second w) = w
  first_whole (a : σ) (b : σ') : first (whole a b) = a
  second_whole (a : σ) (b : σ') : second (whole a b) = b

/-- The end of a construction: the value, or the fault that prevented it.  A
construction that fails holds nothing of the ledger. -/
abbrev Made (σ : Type) : Type := Except Fault σ × Ledger

/-- Only one thing is made. -/
theorem Made.ok_inj {σ : Type} {a b : σ} {m m' : Ledger}
    (h : ((.ok a, m) : Made σ) = (.ok b, m')) : a = b :=
  Except.ok.inj (congrArg Prod.fst h)

/-- Boxes a constructed leaf, or whatever is around a constructed part. -/
def Made.map {σ τ : Type} (whole : σ → τ) : Made σ → Made τ
  | (.ok a, m) => (.ok (whole a), m)
  | (.error fault, m) => (.error fault, m)

/-- Whatever was made has a part that was made. -/
theorem Made.eq_ok_of_map {σ τ : Type} {whole : σ → τ} {made : Made σ} {b : τ} {m : Ledger}
    (h : made.map whole = (.ok b, m)) : ∃ a, made = (.ok a, m) ∧ whole a = b := by
  rcases made with ⟨result, m'⟩
  cases result with
  | ok a =>
    obtain ⟨rfl, rfl⟩ : whole a = b ∧ m' = m := by simpa [Made.map] using h
    exact ⟨a, rfl, rfl⟩
  | error fault => simp [Made.map] at h

/-- Goes on with what was made, or with the fault that prevented it. -/
def Made.elim {σ ρ : Type} (made : Made σ) (next : σ → Ledger → ρ) (stop : Fault → Ledger → ρ) :
    ρ :=
  match made.1 with
  | .ok a => next a made.2
  | .error fault => stop fault made.2

/-- Goes on with what was made.  After a fault `rest`, which is held elsewhere, is
given back. -/
def Made.chain {σ τ : Type} (made : Made σ) (rest : Nat) (next : σ → Ledger → Made τ) : Made τ :=
  made.elim next fun fault m => (.error fault, m.giveBack rest)

/-- Whatever was made in two steps was made in the second, out of the first. -/
theorem Made.eq_ok_of_chain {σ τ : Type} {made : Made σ} {rest : Nat}
    {next : σ → Ledger → Made τ} {b : τ} {m : Ledger} (h : made.chain rest next = (.ok b, m)) :
    ∃ a m', made = (.ok a, m') ∧ next a m' = (.ok b, m) := by
  rcases made with ⟨result, m'⟩
  cases result with
  | ok a => exact ⟨a, m', rfl, h⟩
  | error fault => simp [Made.chain, Made.elim] at h

/-- Goes on to make something of what an operation left, unless it stopped: then
the room of what it left is given back. -/
def Outcome.make {σ τ : Type} (o : Outcome σ) (room : σ → Nat) (next : σ → Ledger → Made τ) :
    Made τ :=
  o.elim next fun a m fault => (.error fault, m.giveBack (room a))

/-- Whatever was made of an outcome was made after success. -/
theorem Outcome.eq_ok_of_make {σ τ : Type} {o : Outcome σ} {room : σ → Nat}
    {next : σ → Ledger → Made τ} {b : τ} {m : Ledger} (h : o.make room next = (.ok b, m)) :
    o.fault = none ∧ next o.value o.ledger = (.ok b, m) := by
  unfold Outcome.make at h
  cases hfault : o.fault with
  | none => exact ⟨rfl, by rwa [elim_of_none hfault] at h⟩
  | some fault => simp [elim_of_some hfault] at h

/-- One operation of a history, with the storage and the ledger that it found. -/
structure Step (Op σ : Type) where
  op : Op
  before : σ
  ledger : Ledger

variable {Op σ : Type}

/-- How the operation ended. -/
def Step.outcome (run : Op → σ → Ledger → Outcome σ) (s : Step Op σ) : Outcome σ :=
  run s.op s.before s.ledger

/-- The storage that a history of operations leads to. -/
inductive History (run : Op → σ → Ledger → Outcome σ) (start : σ) :
    List (Step Op σ) → σ → Prop where
  | here : History run start [] start
  | step {steps : List (Step Op σ)} {a : σ} (op : Op) (m : Ledger) : History run start steps a →
      History run start (steps ++ [⟨op, a, m⟩]) (run op a m).value

/-- Every operation of the history came to its end. -/
def Smooth (run : Op → σ → Ledger → Outcome σ) (steps : List (Step Op σ)) : Prop :=
  ∀ s ∈ steps, (s.outcome run).fault = none

variable {run : Op → σ → Ledger → Outcome σ}

instance (steps : List (Step Op σ)) : Decidable (Smooth run steps) :=
  inferInstanceAs (Decidable (∀ s ∈ steps, (s.outcome run).fault = none))

/-- A smooth history ends with an operation that came to its end. -/
theorem smooth_append_singleton {steps : List (Step Op σ)} {s : Step Op σ} :
    Smooth run (steps ++ [s]) ↔ Smooth run steps ∧ (s.outcome run).fault = none := by
  simp only [Smooth, List.forall_mem_append, List.forall_mem_singleton]

section Invariants

variable {I : σ → Prop} {start b : σ} {steps : List (Step Op σ)}

/-- What holds at first and is kept by every operation, done or not, holds after any history of
operations. -/
theorem History.keeps (h : History run start steps b) (hstart : I start)
    (hrun : ∀ op a m, I a → I (run op a m).value) : I b := by
  induction h with
  | here => exact hstart
  | step op m _ ih => exact hrun op _ m ih

/-- It holds before each of its steps as well. -/
theorem History.keeps_before (h : History run start steps b) (hstart : I start)
    (hrun : ∀ op a m, I a → I (run op a m).value) : ∀ s ∈ steps, I s.before := by
  induction h with
  | here => exact nofun
  | step op m hearlier ih =>
    exact List.forall_mem_append.2
      ⟨ih, List.forall_mem_singleton.2 (hearlier.keeps hstart hrun)⟩

end Invariants

/-- What the operations that came to their end make of something, one after the other. -/
def effectOf {α : Type} (run : Op → σ → Ledger → Outcome σ) (edit : Op → α → α)
    (steps : List (Step Op σ)) (a : α) : α :=
  (steps.filter fun s => (s.outcome run).succeeded).foldl (fun a s => edit s.op a) a

section Effects

variable {α : Type} {edit : Op → α → α} (steps : List (Step Op σ)) {s : Step Op σ} (a : α)

/-- A last operation that comes to its end is the last to make something. -/
theorem effectOf_append_of_none (h : (s.outcome run).fault = none) :
    effectOf run edit (steps ++ [s]) a = edit s.op (effectOf run edit steps a) := by
  simp [effectOf, List.filter_append, Outcome.succeeded, h]

/-- A last operation that fails makes nothing. -/
theorem effectOf_append_of_some {fault : Fault} (h : (s.outcome run).fault = some fault) :
    effectOf run edit (steps ++ [s]) a = effectOf run edit steps a := by
  simp [effectOf, List.filter_append, Outcome.succeeded, h]

end Effects

/-- Operations that all find the same ledger. -/
def callsOn (m : Ledger) (ops : List Op) : List (Op × Ledger) := ops.map fun op => (op, m)

/-- The steps of calls, each an operation with the ledger that it finds. -/
def stepsOf (run : Op → σ → Ledger → Outcome σ) : σ → List (Op × Ledger) → List (Step Op σ)
  | _, [] => []
  | a, (op, m) :: calls => ⟨op, a, m⟩ :: stepsOf run (run op a m).value calls

/-- The steps of calls run their operations. -/
theorem ops_stepsOf (a : σ) (calls : List (Op × Ledger)) :
    (stepsOf run a calls).map (·.op) = calls.map Prod.fst := by
  induction calls generalizing a with
  | nil => rfl
  | cons call calls ih => exact congrArg (call.1 :: ·) (ih _)

/-- What calls leave. -/
def leftBy (run : Op → σ → Ledger → Outcome σ) (start : σ) (calls : List (Op × Ledger)) : σ :=
  calls.foldl (fun a call => (run call.1 a call.2).value) start

/-- Calls continue a history. -/
theorem History.calls {start a : σ} {steps : List (Step Op σ)} (h : History run start steps a)
    (calls : List (Op × Ledger)) :
    History run start (steps ++ stepsOf run a calls) (leftBy run a calls) := by
  induction calls generalizing steps a with
  | nil => rwa [stepsOf, List.append_nil]
  | cons call calls ih =>
    have hrest := ih (h.step call.1 call.2)
    rwa [List.append_assoc] at hrest

/-- Calls that are made one after the other on one value make a history that leads to what they
leave. -/
theorem history_of_calls (start : σ) (calls : List (Op × Ledger)) :
    History run start (stepsOf run start calls) (leftBy run start calls) :=
  History.here.calls calls

end Columnar
