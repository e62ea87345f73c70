import Columnar.Proofs.Filling
import Columnar.Proofs.Placing
/-!
# Two paths to one slot

A value is added to a column by the column's own operations for nulls and lists, or as a
value like any other.  Both do the same, on whatever column and in whatever state.

Where the column is one of lists, a value that is added brings as many items as it counts.
So filling makes room for just the items that it then adds.
-/

namespace Columnar

/-- How many items a writer of lists has, in the writer of its items; other writers have none to
count. -/
def Writer.items? : Writer → Option Nat
  | .list _ _ child => some child.length
  | _ => none

/-- How many items a column of lists has in its writer, as long as it is not finished. -/
def Column.items? (c : Column) : Option Nat := c.writer?.bind Writer.items?

/-- Where the operation succeeds on lists, there are `n` items more. -/
def AddsItems (n : Nat) (op : Writer → Ledger → Outcome Writer) : Prop :=
  ∀ (w : Writer) (m : Ledger) (held : Nat), w.items? = some held →
    (op w m).Ensures fun w' => w'.items? = some (held + n)

/-- Operations that add a slot each add as many as there are. -/
theorem AddsSlot.foldl {ops : List (Writer → Ledger → Outcome Writer)}
    (hops : ∀ op ∈ ops, AddsSlot op) {o : Outcome Writer} {held : Nat}
    (h : o.Ensures fun w => w.length = held) :
    (ops.foldl (fun o op => o.andThen op) o).Ensures fun w => w.length = held + ops.length := by
  induction ops generalizing o held with
  | nil => exact h
  | cons op ops ih =>
    obtain ⟨hop, hrest⟩ := List.forall_mem_cons.1 hops
    have hfirst : (o.andThen op).Ensures fun w => w.length = held + 1 :=
      h.andThen fun w m hw => hw ▸ hop w m
    have hall := ih hrest hfirst
    rwa [Nat.add_assoc, Nat.add_comm 1] at hall

namespace Writer

/-- A writer that counts items is one of lists. -/
theorem exists_of_items? {w : Writer} {held : Nat} (h : w.items? = some held) :
    ∃ slots nullable child, w = .list slots nullable child ∧ child.length = held := by
  cases w with
  | list slots nullable child => exact ⟨slots, nullable, child, rfl, Option.some.inj h⟩
  | _ => exact nomatch h

/-- An operation on a writer of lists that leaves the writer of the items alone adds no items. -/
theorem addsItems_zero {op : Writer → Ledger → Outcome Writer}
    (h : ∀ slots nullable child m, (op (.list slots nullable child) m).value.items? =
      some child.length) : AddsItems 0 op := by
  intro w m held hheld
  obtain ⟨slots, nullable, child, rfl, rfl⟩ := exists_of_items? hheld
  exact fun _ => h slots nullable child m

/-- What stops on lists adds any number of items. -/
theorem addsItems_stopped (n : Nat) {op : Writer → Ledger → Outcome Writer}
    (h : ∀ slots nullable child m, (op (.list slots nullable child) m).fault ≠ none) :
    AddsItems n op := by
  intro w m held hheld hok
  obtain ⟨slots, nullable, child, rfl, -⟩ := exists_of_items? hheld
  exact absurd hok (h slots nullable child m)

/-- A list of items adds them to those there are, and is closed behind them. -/
theorem addsItems_appendList {items : List (Writer → Ledger → Outcome Writer)}
    (hitems : ∀ item ∈ items, AddsSlot item) : AddsItems items.length (appendList items) := by
  intro w m held hheld
  obtain ⟨slots, nullable, child, rfl, rfl⟩ := exists_of_items? hheld
  have hstart : (Outcome.done child m).Ensures fun w => w.length = child.length :=
    Outcome.ensures_done rfl
  have hadded := AddsSlot.foldl hitems hstart
  refine Outcome.Ensures.andThen
    (P := fun w => w.items? = some (child.length + items.length)) ?_ ?_
  · exact Outcome.ensures_map (hadded.imp fun child' hchild => congrArg some hchild)
  · intro w' m' hw'
    obtain ⟨slots', nullable', child', rfl, -⟩ := exists_of_items? hw'
    exact fun _ => hw'

end Writer

/-- A value brings as many items as it counts, to lists of whatever layout. -/
theorem ValueType.addsItems_write (type : ValueType) (value : type.Datum) :
    AddsItems (type.itemCount value) (type.write value) := by
  cases type with
  | option type =>
    cases value with
    | none => exact Writer.addsItems_zero fun _ _ _ _ => rfl
    | some value => exact type.addsItems_write value
  | collection type =>
    cases value with
    | unset => exact Writer.addsItems_zero fun _ _ _ _ => rfl
    | empty => exact Writer.addsItems_zero fun _ _ _ _ => rfl
    | populated items =>
      have hitems : ∀ op ∈ items.map fun item => type.write item, AddsSlot op := by
        intro op hop
        obtain ⟨item, -, rfl⟩ := List.mem_map.1 hop
        exact type.addsSlot_write item
      have hadds := Writer.addsItems_appendList hitems
      rw [List.length_map] at hadds
      exact hadds
  | named title type => exact type.addsItems_write value
  | boolean | number | text | bytes | record =>
    exact Writer.addsItems_stopped _ fun _ _ _ _ => Option.some_ne_none _

namespace Column

/-- A column counts the items that its writer counts. -/
theorem items?_of_usable {c : Column} {before : Progress} {writer : Writer}
    (h : c.state = .usable before writer) : c.items? = writer.items? := by
  rw [items?, writer?, h, Option.bind_some]

/-- Items that are added to the writer are added to the column. -/
theorem ensures_items_apply {n : Nat} {op : Writer → Ledger → Outcome Writer} (hop : AddsItems n op)
    {c : Column} {held : Nat} (hheld : c.items? = some held) (progress : Progress) (m : Ledger) :
    (c.apply progress op m).Ensures fun c' => c'.items? = some (held + n) := by
  obtain ⟨layout, hint, state⟩ := c
  cases state with
  | finished => exact nomatch hheld
  | failed writer => exact Outcome.ensures_stopped
  | usable before writer =>
    rw [apply_eq rfl]
    intro hok
    cases hfault : (op writer m).fault with
    | some fault =>
      rw [Outcome.elim_of_some hfault] at hok
      exact nomatch hok
    | none =>
      rw [Outcome.elim_of_none hfault]
      exact hop writer m held hheld hfault

/-- A column of lists that takes a value has as many items more as the value counts. -/
theorem ensures_items (type : ValueType) (value : type.Datum) {c : Column} {held : Nat}
    (hheld : c.items? = some held) (m : Ledger) :
    (type.writeSlot value c m).Ensures fun c' =>
      c'.items? = some (held + type.itemCount value) := by
  rw [type.writeSlot_eq_append]
  exact ensures_items_apply (type.addsItems_write value) hheld .filling m

/-- A column of lists that takes values one after the other has as many items more as the
values count. -/
theorem ensures_items_foldl {type : ValueType} {records : List type.Datum} {o : Outcome Column}
    {held : Nat} (h : o.Ensures fun c => c.items? = some held) :
    (records.foldl (fun o record => o.andThen (type.writeSlot record)) o).Ensures fun c =>
      c.items? = some (held + type.itemTotal records) := by
  induction records generalizing o held with
  | nil => exact h
  | cons record records ih =>
    rw [List.foldl_cons, ValueType.itemTotal, ← Nat.add_assoc]
    exact ih (h.andThen fun c m hheld => ensures_items type record hheld m)

/-- Making room for items of a column of lists adds none. -/
theorem ensures_items_reserveItems {c : Column} {held : Nat} (hheld : c.items? = some held)
    (n : Nat) (m : Ledger) :
    (c.reserveItems n m).Ensures fun c' => c'.items? = some held := by
  have hnone : AddsItems 0 (Writer.onItems (Writer.reserve n)) :=
    Writer.addsItems_zero fun _ _ child m =>
      congrArg some (Writer.length_eq (Writer.idle_reserve n child m))
  exact ensures_items_apply hnone hheld .reserved m

/-- A writer that counts items holds slots of a layout of lists. -/
theorem isList_of_items? {layout : Layout} {w : Writer} {slots : List (Option layout.Cell)}
    (h : w.Holds layout slots) {held : Nat} (hheld : w.items? = some held) :
    layout.isList = true := by
  obtain ⟨ends, nullable, child, rfl, -⟩ := Writer.exists_of_items? hheld
  cases layout with
  | list item nullable => rfl
  | struct fields =>
    obtain ⟨validity, columns, heq, -⟩ := h
    exact nomatch heq
  | boolean | number | binary | utf8 =>
    obtain ⟨leaf, heq, -⟩ := h
    exact nomatch heq

/-- A column that works and counts items is one of lists. -/
theorem Keeps.isList_of_items? {layout : Layout} {c : Column} {slots : List (Option layout.Cell)}
    (h : Keeps layout c slots) {held : Nat} (hheld : c.items? = some held) :
    c.layout.isList = true := by
  obtain ⟨hlayout, progress, writer, hstate, hwriter⟩ := h
  rw [items?_of_usable hstate] at hheld
  rw [hlayout]
  exact Column.isList_of_items? hwriter hheld

end Column

/-- What filling adds to lists that work is what it makes room for. -/
theorem Component.ensures_items_fill {r : Registry} {c : Component} {layout : Layout}
    {column : Column} {slots : List (Option layout.Cell)} (h : column.Keeps layout slots)
    {held : Nat} (hheld : column.items? = some held) (records : List c.Datum) (count : Nat)
    (m : Ledger) :
    (c.fill r column records count m).Ensures fun column' =>
      column'.items? = some (held + c.type.itemTotal (records.take count)) ∧
      c.fill r column records count m =
        (records.take count).foldl (fun o record => o.andThen (c.type.writeSlot record))
          (column.reserveItems (c.type.itemTotal (records.take count)) m) := by
  have hlist := h.isList_of_items? hheld
  by_cases hmisfit : records.length < count ∨ column.layout ≠ (r.entryFor c).layout
  · obtain ⟨cause, hfill⟩ := fill_of_misfit (m := m) hmisfit
    rw [hfill]
    exact Outcome.ensures_stopped
  · rw [not_or, Nat.not_lt, not_not] at hmisfit
    rw [fill_of_fits hmisfit.1 hmisfit.2]
    obtain ⟨hroom, -⟩ | ⟨hroom, -⟩ | ⟨-, hnot⟩ := c.type.makeRoom_eq (records.take count) column
    · rw [hroom]
      have hready := Column.ensures_items_reserveItems hheld
        (c.type.itemTotal (records.take count)) m
      exact (Column.ensures_items_foldl hready).imp fun _ hitems => ⟨hitems, rfl⟩
    · -- Nothing is added once the sum broke off.
      rw [hroom]
      intro hok
      rw [Outcome.foldl_stopped] at hok
      exact nomatch hok
    · rw [hlist] at hnot
      exact nomatch hnot

/-- What becomes of the items of lists that work and have so many. -/
structure Column.Counts (c : Column) (held : Nat) : Prop where
  /-- A value that is added brings exactly the items that it counts. -/
  added (type : ValueType) (value : type.Datum) (m : Ledger) :
    (type.writeSlot value c m).Ensures fun c' => c'.items? = some (held + type.itemCount value)
  /-- Filling makes room for exactly the items that it then adds. -/
  filled (r : Registry) (component : Component) (records : List component.Datum) (count : Nat)
    (m : Ledger) :
    (component.fill r c records count m).Ensures fun c' =>
      c'.items? = some (held + component.type.itemTotal (records.take count)) ∧
      component.fill r c records count m =
        (records.take count).foldl (fun o record => o.andThen (component.type.writeSlot record))
          (c.reserveItems (component.type.itemTotal (records.take count)) m)

/-- **A slot is added like a value.**  A value that is added by the operations of the
column comes to the same as one that is added to its writer, on whatever column.  Lists
that take a value have exactly as many items more as the value counts, so filling makes
room for just the items that it adds. -/
theorem ValueType.slot_paths_agree :
    (∀ (type : ValueType) (value : type.Datum) (c : Column) (m : Ledger),
      type.writeSlot value c m = c.append (type.write value) m) ∧
    (∀ (type : ValueType) (value : type.Datum) (c : Column) (m : Ledger) (held : Nat),
      c.items? = some held → (type.writeSlot value c m).Ensures fun c' =>
        c'.items? = some (held + type.itemCount value)) ∧
    ∀ {layout : Layout} {m₀ m₁ : Ledger} {start c : Column} {ops : List ColumnOp} {held : Nat},
      Column.new layout m₀ = (.ok start, m₁) → start.Runs ops c →
      c.items? = some held → c.Counts held := by
  refine ⟨ValueType.writeSlot_eq_append, ?_, ?_⟩
  · intro type value c m held hheld
    exact Column.ensures_items type value hheld m
  · intro layout m₀ m₁ start c ops held hnew hruns hheld
    obtain ⟨-, hkeeps⟩ := hruns.keeps hnew
    constructor
    · intro type value m
      exact Column.ensures_items type value hheld m
    · intro r component records count m
      exact Component.ensures_items_fill hkeeps hheld records count m

/-- Levels that may be missing, under a name. -/
private def levelsComponent : Component where
  name := "samples.Levels"
  type := .named "Levels" (.option (.collection (.number .uint16)))

/-- Two levels, none at all, levels that are not set, and one level. -/
private def levelsRecords : List levelsComponent.Datum :=
  [some (.populated [1#16, 2#16]), none, some .unset, some (.populated [3#16])]

/-- A new column of levels. -/
private def levelsColumn : Column :=
  match Column.new levelsComponent.type.layout {} with
  | (.ok c, _) => c
  | (.error _, _) => { layout := .boolean, state := .finished }

/-- The column with the first record in it. -/
private def startedLevels : Column :=
  ((ColumnOp.append levelsComponent.type (some (.populated [1#16, 2#16]))).run
    levelsColumn {}).value

/-- A column with two levels is filled with three records of four, among which there are
two levels again. -/
theorem ValueType.slot_paths_agree_levels :
    startedLevels.items? = some 2 ∧ startedLevels.Counts 2 ∧
      (levelsComponent.type.writeSlot (some (.populated [3#16])) startedLevels {}).value.items? =
        some 3 ∧
      (levelsComponent.fill {} startedLevels levelsRecords 3 {}).value.items? = some 4 := by
  obtain ⟨-, hitems, hcounts⟩ := ValueType.slot_paths_agree
  have hnew : Column.new levelsComponent.type.layout {} =
      (.ok levelsColumn, (Column.new levelsComponent.type.layout {}).2) := rfl
  have hruns : levelsColumn.Runs
      [.append levelsComponent.type (some (.populated [1#16, 2#16]))] startedLevels :=
    .step (.append levelsComponent.type _) {} .here rfl
  have hcounts : startedLevels.Counts 2 := hcounts hnew hruns rfl
  exact ⟨rfl, hcounts,
    hitems levelsComponent.type (some (.populated [3#16])) startedLevels {} 2 rfl rfl,
    (hcounts.filled {} levelsComponent levelsRecords 3 {} rfl).1⟩

end Columnar
