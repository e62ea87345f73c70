import Columnar.Proofs.Sizes
import Columnar.Proofs.Storing
/-!
# Offsets are sound by construction

Offsets may be trusted without a check when they are finished.  Whatever was done to
them, the first is zero, they never descend, and what is remembered as the last one is
the last one.

A slot may not be ended for three reasons: the end is no offset, it comes before the last
one, or there is no memory for it.  In each case all stays as it was, so the offsets are
those of just the slots that were ended: `Offsets.Ended`.
-/

namespace Columnar

namespace OffsetsOp

variable {o : Offsets} {stop : Nat}

/-- However a slot is to be ended, the end is appended. -/
theorem run_eq_append {op : OffsetsOp} (hstop : op.stop? o = some stop) (hcount : op.Countable o)
    (m : Ledger) : op.run o m = o.append stop m := by
  cases op with
  | reserve n => exact nomatch hstop
  | append stop' =>
    obtain rfl := Option.some.inj hstop
    rfl
  | appendLength n =>
    obtain rfl := Option.some.inj hstop
    exact Offsets.appendLength_eq hcount m

/-- An operation does all of its work or none of it. -/
theorem atomic_run (op : OffsetsOp) (o : Offsets) (m : Ledger) : (op.run o m).Atomic o m := by
  cases op with
  | reserve n => exact o.atomic_reserve m n
  | append stop => exact o.atomic_append m stop
  | appendLength n => exact o.atomic_appendLength m n

/-- What one operation on offsets comes to: it makes of the ends what it is meant to, or it is
refused for one of three reasons and changes nothing. -/
structure Behaves (op : OffsetsOp) (o : Offsets) (m : Ledger) : Prop where
  /-- The words that offsets are stored as follow, and all sizes on the way are words. -/
  words : op.runWords? o.stored m = some ((op.run o m).map Offsets.stored)
  /-- After a fault all is as it was, and as much is lent. -/
  traceless : (op.run o m).Atomic o m
  /-- An end that is no offset is refused. -/
  large (stop : Nat) : op.stop? o = some stop → Offsets.maxOffset < stop →
    op.run o m = .stopped o m (.invalidArgument (.offsetTooLarge stop))
  /-- So is one that comes before the last end. -/
  descending (stop : Nat) : op.stop? o = some stop → stop ≤ Offsets.maxOffset →
    stop < o.lastEnd → op.run o m = .stopped o m (.invalidState (.offsetDescends stop o.last))
  /-- Any other end is refused just where there is no memory to push it. -/
  fitting (stop : Nat) : op.stop? o = some stop → stop ≤ Offsets.maxOffset → o.lastEnd ≤ stop →
    (op.run o m).fault = (o.ends.push (stop : Int) m).fault

theorem behaves (op : OffsetsOp) (h : o.Sound) (hcount : op.Countable o) (m : Ledger) :
    op.Behaves o m where
  words := op.runWords?_stored h hcount m
  traceless := op.atomic_run o m
  large stop hstop hlarge := by
    rw [run_eq_append hstop hcount, Offsets.append, if_pos hlarge]
  descending stop hstop hmax hbefore := by
    have hdescends : (stop : Int) < o.last := by
      rw [← h.lastEnd_eq]
      exact Int.ofNat_lt.2 hbefore
    rw [run_eq_append hstop hcount, Offsets.append, if_neg (Nat.not_lt.2 hmax), if_pos hdescends]
  fitting stop hstop hmax hle := by
    rw [run_eq_append hstop hcount, Offsets.append_eq hle hmax]
    rcases o.ends.push (stop : Int) m with ⟨ends, m', _ | fault⟩ <;> rfl

/-- An operation that comes to its end does to the ends of slots what it is meant to do. -/
theorem ensures_edit (op : OffsetsOp) (h : o.Sound) (hcount : op.Countable o) {stops : List Nat}
    (hstops : o.ends.items = 0 :: stops.map Int.ofNat) (m : Ledger) :
    (op.run o m).Ensures fun o' => o'.ends.items = 0 :: (op.edit stops).map Int.ofNat := by
  have hended (stop : Nat) : (o.append stop m).Ensures fun o' =>
      o'.ends.items = 0 :: (stops ++ [stop]).map Int.ofNat := by
    refine (o.ensures_append stop m).imp fun o' ⟨_, _, _, hitems⟩ => ?_
    rw [hitems, hstops, List.map_append]
    rfl
  cases op with
  | reserve n =>
    intro _
    exact (o.reserve_eq n m).1.trans hstops
  | append stop => exact hended stop
  | appendLength n =>
    -- The last end that is remembered is the last of those that were put.
    have hlast : stops.getLast?.getD 0 = o.lastEnd := by
      have hlast := h.last_eq
      rw [hstops, List.getLast?_cons, List.getLast?_map] at hlast
      rw [Offsets.lastEnd, ← Option.some.inj hlast]
      cases stops.getLast? <;> rfl
    rw [run_eq_append rfl hcount, edit, hlast]
    exact hended (o.lastEnd + n)

end OffsetsOp

namespace Offsets

variable {o : Offsets}

/-- What offsets have come to after any steps, the refused ones among them. -/
structure Ended (steps : List (Step OffsetsOp Offsets)) (o : Offsets) : Prop where
  /-- The offsets are zero and the ends of the slots that were ended, in order. -/
  items_eq : o.ends.items = 0 :: (effectOf OffsetsOp.run OffsetsOp.edit steps []).map Int.ofNat
  /-- There is an offset, each is a word that is not negative, and they never descend. -/
  fit : Chunk.OffsetsFit o.ends.items o.lastEnd
  /-- The next slot starts at the last of the stored offsets. -/
  last_eq : o.ends.items.getLast? = some (o.lastEnd : Int)
  /-- There is one offset more than there are slots. -/
  length_eq : o.ends.items.length = o.length + 1
  /-- The words that are stored are finished as the offsets. -/
  finish_eq : o.stored.finish? = some o.ends.items
  /-- They tell as many slots. -/
  storedLength_eq : o.stored.length? = some o.length
  /-- They tell the same start of the next slot. -/
  storedEnd_eq : o.stored.lastEnd = o.lastEnd
  /-- In each step the operation came to what it is meant to come to. -/
  behaves : ∀ s ∈ steps, s.op.Behaves s.before s.ledger

/-- In each step of a history on sound offsets the operation behaves. -/
theorem Sound.behaves_of_history {start : Offsets} (hstart : start.Sound)
    {steps : List (Step OffsetsOp Offsets)} (h : History OffsetsOp.run start steps o)
    (hcount : ∀ s ∈ steps, s.op.Countable s.before) :
    ∀ s ∈ steps, s.op.Behaves s.before s.ledger := by
  have hbefore : ∀ s ∈ steps, s.before.Sound :=
    h.keeps_before hstart fun op _ m ha => ha.run op m
  intro s hs
  exact s.op.behaves (hbefore s hs) (hcount s hs) s.ledger

/-- A history on new offsets ends the slots that it is to end. -/
theorem Sound.items_of_history {start : Offsets} (hstart : start.Sound)
    (hempty : start.ends.items = [0]) {steps : List (Step OffsetsOp Offsets)}
    (h : History OffsetsOp.run start steps o) (hcount : ∀ s ∈ steps, s.op.Countable s.before) :
    o.ends.items = 0 :: (effectOf OffsetsOp.run OffsetsOp.edit steps []).map Int.ofNat := by
  induction h with
  | here => exact hempty
  | @step steps a op m hearlier ih =>
    obtain ⟨hcounts, hlast⟩ := List.forall_mem_append.1 hcount
    have hcountable : op.Countable a := hlast _ List.mem_cons_self
    have hitems := ih hcounts
    cases hfault : (Step.outcome OffsetsOp.run ⟨op, a, m⟩).fault with
    | none =>
      rw [effectOf_append_of_none steps [] hfault]
      exact op.ensures_edit (hstart.of_history hearlier) hcountable hitems m hfault
    | some fault =>
      rw [effectOf_append_of_some steps [] hfault, (op.atomic_run a m fault hfault).1]
      exact hitems

/-- **Offsets are sound by construction.**  They are made in words, for any number of
slots.  Whatever is done to them, as long as each end that is given by a length is a
size, and wherever an end or the ledger is refused: the offsets are zero and the ends of
just the slots that were ended, in order.  None is negative and they never descend, the
last is where the next slot starts, and there is one more than there are slots.  All this
is what the stored words tell, so they may be finished unchecked.  An end is refused for
one of three reasons, and whatever fails changes nothing. -/
theorem ended_of_history :
    (∀ (capacity : Nat) (m : Ledger),
      OffsetWords.new? capacity m = some ((new capacity m).map Offsets.stored)) ∧
    ∀ {capacity : Nat} {m m' : Ledger} {start o : Offsets} {steps : List (Step OffsetsOp Offsets)},
      new capacity m = (.ok start, m') → History OffsetsOp.run start steps o →
      (∀ s ∈ steps, s.op.Countable s.before) → o.Ended steps := by
  refine ⟨new?_eq, ?_⟩
  intro capacity m m' start o steps hnew hhistory hcount
  obtain ⟨hstart, hempty⟩ := sound_new hnew
  have hsound := hstart.of_history hhistory
  exact
    { items_eq := hstart.items_of_history hempty hhistory hcount
      fit := hsound.fit
      last_eq := hsound.lastEnd_eq.symm ▸ hsound.last_eq
      length_eq := hsound.length_eq
      finish_eq := hsound.finish?_stored
      storedLength_eq := hsound.length?_stored
      storedEnd_eq := hsound.lastEnd_stored
      behaves := hstart.behaves_of_history hhistory hcount }

/-- An end before the last one and one that is no offset.  Then there is no memory for one
more slot.  Once there is, a slot is ended there, and an empty one behind it. -/
private def lateEnds : List (OffsetsOp × Ledger) :=
  [(.append 2, {}), (.append (maxOffset + 1), {}), (.append 20, { limit := some 64, lent := 64 }),
    (.reserve 2, { limit := some 64, lent := 64 }), (.append 20, {}), (.appendLength 0, {})]

/-- Fifteen slots of one item each, which fill the first step of room, and then the late
ends. -/
private def refusedEnds : List (OffsetsOp × Ledger) :=
  callsOn {} (List.replicate 15 (.appendLength 1)) ++ lateEnds

/-- Offsets without slots, with the first step of room. -/
private def firstStep : Offsets := { ends := { items := [0], loan := ⟨64⟩ } }

/-- Of the late operations on offsets the first four fail, for an end too large, one before the last
and memory that is lacking, and the offsets are zero and the ends of the others. -/
theorem ended_of_refusals :
    ∃ m', new 0 {} = (.ok firstStep, m') ∧
      (∀ s ∈ stepsOf OffsetsOp.run firstStep refusedEnds, s.op.Countable s.before) ∧
      (leftBy OffsetsOp.run firstStep refusedEnds).Ended
        (stepsOf OffsetsOp.run firstStep refusedEnds) ∧
      (leftBy OffsetsOp.run firstStep refusedEnds).ends.items =
        [0, 1, 2, 3, 4, 5, 6, 7, 8, 9, 10, 11, 12, 13, 14, 15, 20, 20] ∧
      ((stepsOf OffsetsOp.run firstStep refusedEnds).drop 15).map
        (fun s => (s.outcome OffsetsOp.run).succeeded) =
          [false, false, false, false, true, true] := by
  have hnew : new 0 {} = (.ok firstStep, (new 0 {}).2) := rfl
  have hcount : ∀ s ∈ stepsOf OffsetsOp.run firstStep refusedEnds, s.op.Countable s.before := by
    decide +kernel
  exact ⟨_, hnew, hcount, ended_of_history.2 hnew (history_of_calls _ _) hcount,
    by decide +kernel, by decide +kernel⟩

end Offsets

end Columnar
