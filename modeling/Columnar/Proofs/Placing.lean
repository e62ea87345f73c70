import Columnar.Proofs.Columns
import Columnar.Proofs.Finishing
import Columnar.Proofs.Reserving
/-!
# Columns of values that were not made for them

A column takes values of any type that find a place in its layout, and asks
nothing about nulls when it takes them.  So it keeps exactly the slots that the
operations of its history add: `Column.Runs.keeps`.  Whether they may be there
is found out at the end, where it is too late to refuse one: the column is
finished exactly if its layout admits all its slots.
-/

namespace Columnar

/-- What a successful operation adds to a writer is the slot that it has a place for. -/
theorem ColumnOp.ensures_work (op : ColumnOp) (hint : Nat) {layout : Layout}
    {w : Writer} {slots : List (Option layout.Cell)} (h : w.Holds layout slots) (m : Ledger) :
    (op.work hint w m).Ensures fun w' =>
      (op.adds = true → (op.place layout).isSome) ∧
        w'.Holds layout (slots ++ (op.place layout).toList) := by
  have hadded : ∀ {o : Outcome Writer},
      o.Ensures (fun w' => ∃ slot, op.place layout = some slot ∧
        w'.Holds layout (slots ++ [slot])) →
      o.Ensures fun w' => (op.adds = true → (op.place layout).isSome) ∧
        w'.Holds layout (slots ++ (op.place layout).toList) := by
    intro o ho
    refine ho.imp ?_
    rintro w' ⟨slot, hslot, h'⟩
    rw [hslot]
    exact ⟨fun _ => rfl, h'⟩
  cases op with
  | reserve n =>
    refine (Column.ensures_work_reserve h n hint m).imp fun _ h' => ⟨Bool.noConfusion, ?_⟩
    rwa [place, Option.toList_none, List.append_nil]
  | reserveItems n =>
    refine (Column.ensures_onItems_reserve h n m).imp fun _ h' => ⟨Bool.noConfusion, ?_⟩
    rwa [place, Option.toList_none, List.append_nil]
  | appendNull => exact hadded ((h.appendNull m).imp fun _ h' => ⟨none, rfl, h'⟩)
  | append type value => exact hadded (type.ensures_place value slots w m h)
  | appendList type items =>
    exact hadded ((ValueType.collection type).ensures_place (.populated items) slots w m h)
  | appendAbsent =>
    cases hlist : layout.isList with
    | true =>
      obtain ⟨item, nullable, rfl⟩ := Column.exists_of_isList hlist
      exact hadded ((h.appendAbsent m).imp fun _ h' => ⟨some [], rfl, h'⟩)
    | false => exact (Column.not_appendAbsent h hlist m).imp fun _ hfalse => hfalse.elim

/-- The slot that the operation adds is one that the layout admits. -/
def ColumnOp.Respects (layout : Layout) (op : ColumnOp) : Prop :=
  ∀ slot ∈ op.place layout, ∀ cell ∈ slot, layout.Admits cell

namespace Column

/-- The column works and holds slots, admitted or not. -/
def Keeps (layout : Layout) (c : Column) (slots : List (Option layout.Cell)) : Prop :=
  c.layout = layout ∧ ∃ (progress : Progress) (writer : Writer),
    c.state = .usable progress writer ∧ writer.Holds layout slots

namespace Keeps

variable {layout : Layout} {c : Column} {slots : List (Option layout.Cell)}

/-- A column counts one slot for each that it keeps. -/
theorem length_eq (h : Keeps layout c slots) : c.length = slots.length := by
  obtain ⟨-, progress, writer, hstate, hwriter⟩ := h
  have hwriter? : c.writer? = some writer := by rw [writer?, hstate]
  rw [Column.length, hwriter?]
  exact hwriter.length_eq

/-- An operation that is done leads from slots to slots. -/
theorem run (h : Keeps layout c slots) {op : ColumnOp} {m : Ledger}
    (hok : (op.run c m).fault = none) :
    (op.adds = true → (op.place layout).isSome) ∧
      Keeps layout (op.run c m).value (slots ++ (op.place layout).toList) := by
  obtain ⟨hlayout, before, writer, hstate, hwriter⟩ := h
  rw [op.run_eq] at hok ⊢
  obtain ⟨hwork, hnext⟩ := apply_of_fault_eq_none hstate hok
  obtain ⟨hplace, hwriter'⟩ := op.ensures_work c.hint hwriter m hwork
  refine ⟨hplace, ?_, _, _, hnext, hwriter'⟩
  rw [apply_eq hstate, Outcome.elim_of_none hwork]
  exact hlayout

/-- A column is finished with the canonical chunk of admitted slots, and with a null
that may not be there of others. -/
theorem finish_eq (h : Keeps layout c slots) (m : Ledger) :
    (layout.AdmitsAll slots → (c.finish m).1 = .ok (layout.chunk slots)) ∧
      (¬ layout.AdmitsAll slots →
        ∃ flaw, (c.finish m).1 = .error (.flaw flaw) ∧ flaw.isUnmaskedNull = true) := by
  obtain ⟨-, progress, writer, hstate, hwriter⟩ := h
  rw [finish, hstate]
  dsimp only
  constructor
  · intro hadmits
    rw [hwriter.finish_eq hadmits]
  · intro hnot
    obtain ⟨flaw, hflaw, hnull⟩ := hwriter.refused hnot
    exact ⟨flaw, by rw [hflaw], hnull⟩

end Keeps

/-- A column that was just made keeps no slots, since nothing was added to it. -/
theorem keeps_new {layout : Layout} {m m' : Ledger} {c : Column} (h : new layout m = (.ok c, m')) :
    Keeps layout c [] := by
  obtain ⟨hlayout, -, hwriter⟩ := holds_new h
  exact ⟨hlayout, hwriter⟩

/-- The slots that operations add to a new column, one after the other. -/
def slotsOf (layout : Layout) (ops : List ColumnOp) : List (Option layout.Cell) :=
  ops.filterMap (ColumnOp.place layout)

/-- One operation more adds its slot, if it has one. -/
theorem slotsOf_append (layout : Layout) (ops : List ColumnOp) (op : ColumnOp) :
    slotsOf layout (ops ++ [op]) = slotsOf layout ops ++ (op.place layout).toList := by
  rw [slotsOf, List.filterMap_append, slotsOf]
  cases hplace : op.place layout <;> simp [hplace]

/-- A column keeps the slots that its history adds, each of which has a place. -/
theorem Runs.keeps {layout : Layout} {m m' : Ledger} {start c : Column} {ops : List ColumnOp}
    (hnew : new layout m = (.ok start, m')) (hruns : start.Runs ops c) :
    (∀ op ∈ ops, op.adds = true → (op.place layout).isSome) ∧
      Keeps layout c (slotsOf layout ops) := by
  induction hruns with
  | here => exact ⟨fun _ hop => absurd hop List.not_mem_nil, keeps_new hnew⟩
  | hinted hint _ ih => exact ih
  | step op m _ hok ih =>
    obtain ⟨hplaces, hkeeps⟩ := ih
    obtain ⟨hplace, hnext⟩ := hkeeps.run hok
    rw [slotsOf_append]
    exact ⟨List.forall_mem_append.2 ⟨hplaces, List.forall_mem_singleton.2 hplace⟩, hnext⟩

/-- The layout admits all slots exactly if every operation adds an admitted one. -/
theorem admitsAll_slotsOf_iff {layout : Layout} {ops : List ColumnOp} :
    layout.AdmitsAll (slotsOf layout ops) ↔ ∀ op ∈ ops, op.Respects layout := by
  constructor
  · intro h op hop slot hslot
    exact h slot (List.mem_filterMap.2 ⟨op, hop, hslot⟩)
  · intro h slot hslot
    obtain ⟨op, hop, hplace⟩ := List.mem_filterMap.1 hslot
    exact h op hop slot hplace

/-- **What a column is finished with.**  A column takes only values that have a place
in its layout, and it keeps their slots.  It is finished with its chunk if the layout
admits all slots.  If not, an item or a field is null that must not be, with no null around
it, and finishing breaks off; no operation was refused for it.  So a column can be finished
exactly if every operation adds an admitted slot. -/
theorem finish_of_runs {layout : Layout} {m₀ m₁ : Ledger} {start c : Column} {ops : List ColumnOp}
    (hnew : new layout m₀ = (.ok start, m₁)) (hruns : start.Runs ops c) (m : Ledger) :
    (∀ op ∈ ops, op.adds = true → (op.place layout).isSome) ∧
      c.length = (slotsOf layout ops).length ∧
      (layout.AdmitsAll (slotsOf layout ops) →
        (c.finish m).1 = .ok (layout.chunk (slotsOf layout ops))) ∧
      (¬ layout.AdmitsAll (slotsOf layout ops) →
        ∃ flaw, (c.finish m).1 = .error (.flaw flaw) ∧ flaw.isUnmaskedNull = true) ∧
      (layout.AdmitsAll (slotsOf layout ops) ↔ ∀ op ∈ ops, op.Respects layout) := by
  obtain ⟨hplaces, hkeeps⟩ := hruns.keeps hnew
  obtain ⟨hadmitted, hrefused⟩ := hkeeps.finish_eq m
  exact ⟨hplaces, hkeeps.length_eq, hadmitted, hrefused, admitsAll_slotsOf_iff⟩

/-- Numbers, some of which may be missing. -/
private def gapType : ValueType := .option (.number .uint16)

/-- A new column of lists of numbers, none of which may be missing. -/
private def strictColumn : Column :=
  match new (.list (.number .uint16) false) {} with
  | (.ok c, _) => c
  | (.error _, _) => { layout := .boolean, state := .finished }

/-- Lists of numbers that could be missing, but are not, are finished in a column
where none may be. -/
theorem finish_of_strict :
    ∃ (c : Column) (ops : List ColumnOp), strictColumn.Runs ops c ∧ ops.length = 2 ∧
      (c.finish {}).1 =
        .ok ((Layout.list (.number .uint16) false).chunk [some [some 7#16], none]) := by
  have hnew : new (.list (.number .uint16) false) {} =
      (.ok strictColumn, (new (.list (.number .uint16) false) {}).2) := rfl
  have hstart : strictColumn.Runs [] strictColumn := .here
  have hlist := hstart.step (.appendList gapType [some 7#16]) {} rfl
  have hruns := hlist.step (.append gapType none) {} rfl
  have hrespects : ∀ op ∈ [ColumnOp.appendList gapType [some 7#16], .append gapType none],
      op.Respects (.list (.number .uint16) false) := by
    refine List.forall_mem_cons.2 ⟨?_, List.forall_mem_singleton.2 ?_⟩
    · intro slot hslot items hitems item hitem
      obtain rfl : some [some 7#16] = slot := Option.some.inj hslot
      obtain rfl : [some 7#16] = items := Option.some.inj hitems
      obtain rfl := List.mem_singleton.1 hitem
      exact ⟨fun _ => rfl, fun _ _ => trivial⟩
    · intro slot hslot items hitems
      obtain rfl : none = slot := Option.some.inj hslot
      exact nomatch hitems
  obtain ⟨-, -, hfinish, -, hadmits⟩ := finish_of_runs hnew hruns {}
  exact ⟨_, _, hruns, rfl, hfinish (hadmits.2 hrespects)⟩

/-- A list with a missing number is taken by the same column, which cannot be finished
any more. -/
theorem finish_of_gap_fails :
    ∃ (m : Ledger) (c : Column), new (.list (.number .uint16) false) {} = (.ok strictColumn, m) ∧
      strictColumn.Runs [.appendList gapType [none]] c ∧
      (c.finish {}).1 = .error (.flaw .nullItem) := by
  have hstart : strictColumn.Runs [] strictColumn := .here
  exact ⟨_, _, rfl, hstart.step (.appendList gapType [none]) {} rfl, rfl⟩

end Column

end Columnar
