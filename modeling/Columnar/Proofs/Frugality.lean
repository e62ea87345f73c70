import Columnar.Outcome
import Columnar.Proofs.Dealing
/-!
# Frugal operations

Once room is reserved, adding asks the ledger for masks only: a mask is made with
the first null, which is later than the room for its slots was planned.  So an
operation is called frugal if it asks at most once for each mask that is missing,
and after success just once for each mask that it made.  Where it is free, because
it adds no null, it asks for nothing.

`Outcome.Frugal` has one rule for each way to build an outcome, and `Covered` tells
what follows for operations one after the other: `covered_of_ready` needs no more
than an invariant that is as good as the operations that are still to come.
-/

namespace Columnar

/-- The ledger after it was asked for these sizes, one after the other. -/
def Ledger.askAll (m : Ledger) (sizes : List Nat) : Ledger :=
  sizes.foldl (fun m n => (m.ask n).2) m

/-- Whatever is asked for is recorded. -/
theorem Ledger.requests_askAll (m : Ledger) (sizes : List Nat) :
    (m.askAll sizes).requests = sizes.reverse ++ m.requests := by
  induction sizes generalizing m with
  | nil => rfl
  | cons n sizes ih => exact (ih _).trans (by simp)

/-- Storage with masks that are made with the first null. -/
class Maskable (σ : Type) where
  /-- How many masks were not made yet. -/
  unmasked : σ → Nat

open Maskable

namespace Outcome

/-- The ledger was asked for nothing but masks.  The operation finds `before` masks
that were not made; if it is `free` it needs none of them.  It may stop for `lax`
reasons, or because a mask is refused. -/
structure Frugal {σ : Type} [Maskable σ] (o : Outcome σ) (m : Ledger) (before : Nat)
    (free : Prop) (lax : Fault → Prop) (P : σ → Prop) : Prop where
  /-- It asks at most once for each mask, and after success once for each it made. -/
  asks : ∃ sizes, o.ledger = m.askAll sizes ∧ sizes.length ≤ before ∧ (free → sizes = []) ∧
    (o.fault = none → sizes.length + unmasked o.value = before)
  stops : ∀ fault, o.fault = some fault →
    lax fault ∨ ¬ free ∧ ∃ refusal, fault = .outOfMemory refusal
  ensures : o.Ensures P

section Rules

variable {σ σ' τ : Type} [Maskable σ] [Maskable σ'] [Maskable τ] {m : Ledger} {before : Nat}
  {free : Prop} {lax : Fault → Prop} {P Q : σ → Prop}

/-- Whoever comes to an end at once asks for nothing. -/
theorem frugal_done {a : σ} (hcount : unmasked a = before) (h : P a) :
    (done a m).Frugal m before free lax P :=
  ⟨⟨[], rfl, Nat.zero_le _, fun _ => rfl, fun _ => (Nat.zero_add _).trans hcount⟩, nofun,
    ensures_done h⟩

/-- Nor does whoever stops at once. -/
theorem frugal_stopped {a : σ} {fault : Fault} (h : lax fault) :
    (stopped a m fault).Frugal m before free lax P :=
  ⟨⟨[], rfl, Nat.zero_le _, fun _ => rfl, nofun⟩,
    fun _ hfault => .inl (Option.some.inj hfault ▸ h), ensures_stopped⟩

/-- Of an operation that stopped with a fault nothing is ensured, so whatever else could be ensured
of it holds as well. -/
theorem Frugal.of_fault {o : Outcome σ} {fault : Fault} (h : o.Frugal m before free lax P)
    (hfault : o.fault = some fault) : o.Frugal m before free lax Q :=
  ⟨h.asks, h.stops, fun hok => absurd (hfault.symm.trans hok) (Option.some_ne_none fault)⟩

/-- A frugal operation is frugal for any weaker property and under any stronger condition. -/
theorem Frugal.imp {o : Outcome σ} {free' : Prop} (h : o.Frugal m before free lax P)
    (hPQ : ∀ a, P a → Q a) (hfree : free' → free) : o.Frugal m before free' lax Q := by
  obtain ⟨sizes, hledger, hle, hnone, hcount⟩ := h.asks
  refine ⟨⟨sizes, hledger, hle, fun h' => hnone (hfree h'), hcount⟩, fun fault hfault => ?_,
    h.ensures.imp hPQ⟩
  exact (h.stops fault hfault).imp_right fun ⟨hnot, hrefused⟩ =>
    ⟨fun h' => hnot (hfree h'), hrefused⟩

/-- More reasons to stop may be had. -/
theorem Frugal.relax {o : Outcome σ} {lax' : Fault → Prop} (h : o.Frugal m before free lax P)
    (hlax : ∀ fault, lax fault → lax' fault) : o.Frugal m before free lax' P :=
  ⟨h.asks, fun fault hfault => (h.stops fault hfault).imp_left (hlax fault), h.ensures⟩

/-- Around a part there are `rest` masks more. -/
theorem Frugal.map {o : Outcome σ} {whole : σ → τ} {R : τ → Prop} {rest : Nat}
    (h : o.Frugal m before free lax fun a => R (whole a))
    (hcount : ∀ a, unmasked (whole a) = unmasked a + rest) :
    (o.map whole).Frugal m (before + rest) free lax R := by
  obtain ⟨sizes, hledger, hle, hnone, hdone⟩ := h.asks
  refine ⟨⟨sizes, hledger, by omega, hnone, fun hok => ?_⟩, h.stops, h.ensures⟩
  have hmade := hdone hok
  rw [value_map, hcount]
  omega

/-- Around a part there may be no masks at all. -/
theorem Frugal.boxed {o : Outcome σ} {whole : σ → τ} {R : τ → Prop}
    (h : o.Frugal m before free lax fun a => R (whole a))
    (hcount : ∀ a, unmasked (whole a) = unmasked a) :
    (o.map whole).Frugal m before free lax R :=
  h.map fun a => (hcount a).trans (Nat.add_zero _).symm

/-- Two frugal operations one after the other are frugal, and ask for the masks of both at most. -/
theorem Frugal.andThen {o : Outcome σ} {next : σ → Ledger → Outcome σ}
    (h : o.Frugal m before free lax P)
    (hnext : ∀ a m, P a → (next a m).Frugal m (unmasked a) free lax Q) :
    (o.andThen next).Frugal m before free lax Q := by
  cases hfault : o.fault with
  | some fault =>
    rw [andThen_of_some hfault]
    exact h.of_fault hfault
  | none =>
    rw [andThen_of_none hfault]
    obtain ⟨sizes, hledger, hle, hnone, hdone⟩ := h.asks
    have hsecond := hnext o.value o.ledger (h.ensures hfault)
    obtain ⟨more, hledger', hle', hnone', hdone'⟩ := hsecond.asks
    have hmade := hdone hfault
    refine ⟨⟨sizes ++ more, ?_, ?_, ?_, ?_⟩, hsecond.stops, hsecond.ensures⟩
    · rw [hledger', hledger]
      exact List.foldl_append.symm
    · rw [List.length_append]
      omega
    · intro hfree
      rw [hnone hfree, hnone' hfree, List.nil_append]
    · intro hok
      have hmade' := hdone' hok
      rw [List.length_append]
      omega

/-- A whole has the masks of its two parts. -/
theorem Frugal.both {whole : σ → σ' → τ} {b : σ'} {first : Outcome σ}
    {second : Ledger → Outcome σ'} {P' : σ' → Prop} {R : τ → Prop}
    (h : first.Frugal m before free lax P)
    (hsecond : ∀ m, (second m).Frugal m (unmasked b) free lax P')
    (hcount : ∀ a b, unmasked (whole a b) = unmasked a + unmasked b)
    (hR : ∀ a b, P a → P' b → R (whole a b)) :
    (Outcome.both whole b first second).Frugal m (before + unmasked b) free lax R := by
  have hchain : Outcome.both whole b first second =
      (first.map fun a => whole a b).andThen fun _ m => (second m).map (whole first.value) := by
    rw [both_eq_elim, andThen_eq_elim]
    rcases first with ⟨a, m', _ | fault⟩ <;> rfl
  have hfirst : (first.map fun a => whole a b).Frugal m (before + unmasked b) free lax
      fun w => w = whole first.value b ∧ P first.value := by
    refine Frugal.map ⟨h.asks, h.stops, fun hok => ⟨rfl, h.ensures hok⟩⟩ fun a => hcount a b
  rw [hchain]
  refine hfirst.andThen ?_
  rintro _ m' ⟨rfl, hP⟩
  rw [hcount, Nat.add_comm]
  refine ((hsecond m').imp (fun b' hP' => hR _ b' hP hP') id).map fun b' => ?_
  rw [hcount, Nat.add_comm]

/-- A chain of operations is frugal if each one is.  `I items` is what is known
while these items are still to come. -/
theorem Frugal.foldl {α : Type} {I : List α → σ → Prop} {op : α → σ → Ledger → Outcome σ}
    {items : List α} {o : Outcome σ} (h : o.Frugal m before free lax (I items))
    (hstep : ∀ item ∈ items, ∀ rest a m, I (item :: rest) a →
      (op item a m).Frugal m (unmasked a) free lax (I rest)) :
    (items.foldl (fun o item => o.andThen (op item)) o).Frugal m before free lax (I []) := by
  induction items generalizing o with
  | nil => exact h
  | cons item items ih =>
    have hfirst : (o.andThen (op item)).Frugal m before free lax (I items) :=
      h.andThen fun a m ha => hstep item List.mem_cons_self items a m ha
    exact ih hfirst fun other hother => hstep other (List.mem_cons_of_mem item hother)

/-- A free operation leaves the ledger as it found it. -/
theorem Frugal.ledger_eq {o : Outcome σ} (h : o.Frugal m before free lax P) (hfree : free) :
    o.ledger = m := by
  obtain ⟨sizes, hledger, -, hnone, -⟩ := h.asks
  rw [hledger, hnone hfree]
  rfl

end Rules

end Outcome

variable {Op σ : Type} {run : Op → σ → Ledger → Outcome σ}

/-- How often the ledger was asked in a step. -/
def Step.asked (run : Op → σ → Ledger → Outcome σ) (s : Step Op σ) : Nat :=
  (s.outcome run).ledger.requests.length - s.ledger.requests.length

/-- How often the ledger was asked in all these steps. -/
def askedIn (run : Op → σ → Ledger → Outcome σ) : List (Step Op σ) → Nat
  | [] => 0
  | s :: steps => s.asked run + askedIn run steps

/-- The last step asks on top of the earlier ones. -/
theorem askedIn_append_singleton (steps : List (Step Op σ)) (s : Step Op σ) :
    askedIn run (steps ++ [s]) = askedIn run steps + s.asked run := by
  induction steps with
  | nil => exact Nat.add_comm _ _
  | cons first steps ih => rw [List.cons_append, askedIn, askedIn, ih, Nat.add_assoc]

variable [Maskable σ]

/-- A step that makes masks makes one request for each of them and no other. -/
theorem Step.asked_add_unmasked (s : Step Op σ) {free : Prop} {lax : Fault → Prop} {P : σ → Prop}
    (h : (s.outcome run).Frugal s.ledger (unmasked s.before) free lax P)
    (hok : (s.outcome run).fault = none) :
    s.asked run + unmasked (s.outcome run).value = unmasked s.before := by
  obtain ⟨sizes, hledger, -, -, hdone⟩ := h.asks
  have hmade := hdone hok
  have hasked : s.asked run = sizes.length := by
    rw [Step.asked, hledger, Ledger.requests_askAll, List.length_append, List.length_reverse,
      Nat.add_sub_cancel]
  omega

/-- What was reserved is enough for these operations: they ask for masks only. -/
structure Covered (run : Op → σ → Ledger → Outcome σ) (free : Op → Prop) (lax : Fault → Prop)
    (start : σ) (ops : List Op) : Prop where
  /-- While all goes well, the next operation asks once for each mask that it makes,
  and for nothing if it is free. -/
  step : ∀ steps a, History run start steps a → Smooth run steps →
    ∀ op, steps.map (·.op) ++ [op] <+: ops →
    ∀ m, (run op a m).Frugal m (unmasked a) (free op) lax fun _ => True
  /-- Altogether they ask once for each mask that they make. -/
  total : ∀ steps a, History run start steps a → Smooth run steps → steps.map (·.op) <+: ops →
    askedIn run steps + unmasked a = unmasked start
  /-- If all are free, all are done and nothing is asked for, unless one of them stops
  for a lax reason. -/
  free : (∀ op ∈ ops, free op) → ∀ steps a, History run start steps a →
    steps.map (·.op) <+: ops →
    (Smooth run steps ∧ ∀ s ∈ steps, (s.outcome run).ledger = s.ledger) ∨
      ∃ s ∈ steps, ∃ fault, (s.outcome run).fault = some fault ∧ lax fault

section Runs

variable {free : Op → Prop} {lax : Fault → Prop} {I : List Op → σ → Prop} {start : σ}

/-- What is good for operations is good for the rest of them after some. -/
private theorem ready_of_history
    (hstep : ∀ op rest a m, I (op :: rest) a →
      (run op a m).Frugal m (unmasked a) (free op) lax (I rest))
    {steps : List (Step Op σ)} {a : σ} (h : History run start steps a) (hok : Smooth run steps)
    {rest : List Op} (hready : I (steps.map (·.op) ++ rest) start) : I rest a := by
  induction h generalizing rest with
  | here => exact hready
  | step op m _ ih =>
    obtain ⟨hearlier, hlast⟩ := smooth_append_singleton.1 hok
    rw [List.map_append, List.append_assoc] at hready
    exact (hstep op rest _ m (ih hearlier hready)).ensures hlast

/-- An invariant that is good for operations, one after the other, covers them.  `I ops`
is what is known while these operations are still to come. -/
theorem covered_of_ready {ops : List Op}
    (hstep : ∀ op rest a m, I (op :: rest) a →
      (run op a m).Frugal m (unmasked a) (free op) lax (I rest))
    (hready : I ops start) : Covered run free lax start ops := by
  have hnext : ∀ steps a, History run start steps a → Smooth run steps →
      ∀ op, steps.map (·.op) ++ [op] <+: ops →
      ∀ m, (run op a m).Frugal m (unmasked a) (free op) lax fun _ => True := by
    rintro steps a hsteps hok op ⟨rest, rfl⟩ m
    rw [List.append_assoc] at hready
    exact (hstep op rest a m (ready_of_history hstep hsteps hok hready)).imp
      (fun _ _ => trivial) id
  refine ⟨hnext, ?_, ?_⟩
  · intro steps a hsteps hok hops
    induction hsteps with
    | here => exact Nat.zero_add _
    | @step steps a op m hsteps ih =>
      obtain ⟨hearlier, hlast⟩ := smooth_append_singleton.1 hok
      rw [List.map_append] at hops
      have hbefore := ih hearlier ((List.prefix_append _ _).trans hops)
      have hasked := Step.asked_add_unmasked ⟨op, a, m⟩
        (hnext steps a hsteps hearlier op hops m) hlast
      calc askedIn run (steps ++ [⟨op, a, m⟩]) + unmasked (run op a m).value
          = askedIn run steps + (Step.asked run ⟨op, a, m⟩ + unmasked (run op a m).value) := by
            rw [askedIn_append_singleton, Nat.add_assoc]
        _ = askedIn run steps + unmasked a := congrArg (askedIn run steps + ·) hasked
        _ = unmasked start := hbefore
  · intro hfree steps a hsteps hops
    induction hsteps with
    | here => exact .inl ⟨fun _ hs => absurd hs List.not_mem_nil,
        fun _ hs => absurd hs List.not_mem_nil⟩
    | @step steps a op m hsteps ih =>
      rw [List.map_append] at hops
      rcases ih ((List.prefix_append _ _).trans hops) with ⟨hok, hasked⟩ | ⟨s, hs, hstopped⟩
      · have hlast := hnext steps a hsteps hok op hops m
        have hop : free op := hfree op (hops.subset (List.mem_append_right _ List.mem_cons_self))
        cases hfault : (run op a m).fault with
        | none =>
          refine .inl ⟨smooth_append_singleton.2 ⟨hok, hfault⟩, ?_⟩
          exact List.forall_mem_append.2 ⟨hasked, List.forall_mem_singleton.2 (hlast.ledger_eq hop)⟩
        | some fault =>
          have hlax := (hlast.stops fault hfault).resolve_right fun hnot => hnot.1 hop
          exact .inr ⟨_, List.mem_append_right _ List.mem_cons_self, fault, hfault, hlax⟩
      · exact .inr ⟨s, List.mem_append_left _ hs, hstopped⟩

end Runs

end Columnar
