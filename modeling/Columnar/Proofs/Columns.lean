import Columnar.Operations
import Columnar.Proofs.Cells
import Columnar.Proofs.Finishing
import Columnar.Proofs.Writing
/-!
# Columns that are filled without a fault can be finished

`Column.Holds` says that a column still works and holds slots that its layout
admits.  A new column holds none, and every operation that succeeds adds its
slot or leaves the slots alone: `ColumnOp.ensures_run`.  By induction over the
history every column that is reached holds some slots, and so it finishes
with their canonical chunk.
-/

namespace Columnar

/-- Slots that the layout admits, with one more that it admits, are all admitted. -/
theorem Layout.AdmitsAll.push {layout : Layout} {slots : List (Option layout.Cell)}
    (h : layout.AdmitsAll slots) {slot : Option layout.Cell}
    (hslot : ∀ cell ∈ slot, layout.Admits cell) : layout.AdmitsAll (slots ++ [slot]) := by
  intro other hother
  rcases List.mem_append.1 hother with hold | hnew
  · exact h other hold
  · obtain rfl := List.mem_singleton.1 hnew
    exact hslot

/-- Lists of values are admitted where their items may be null if they can. -/
theorem ValueType.admits_cells (type : ValueType) (items : List type.Datum) :
    (Layout.list type.layout type.isNullable).Admits (items.map type.cell) := by
  have hitems := (ValueType.collection type).admits_cell (.populated items)
  exact hitems _ rfl

namespace Column

/-- The column works and holds slots of a layout that admits them. -/
def Holds (layout : Layout) (c : Column) (slots : List (Option layout.Cell)) : Prop :=
  c.layout = layout ∧ layout.AdmitsAll slots ∧
    ∃ (progress : Progress) (writer : Writer),
      c.state = .usable progress writer ∧ writer.Holds layout slots

/-- A column that was just made is fresh and holds no slots, so there is an empty writer in it. -/
theorem holds_new {layout : Layout} {m m' : Ledger} {c : Column} (h : new layout m = (.ok c, m')) :
    Holds layout c [] := by
  unfold Column.new at h
  split at h
  · simp at h
  · obtain ⟨writer, hwriter, rfl⟩ := Made.eq_ok_of_map h
    exact ⟨rfl, fun _ hslot => absurd hslot List.not_mem_nil, .fresh, writer, rfl,
      Writer.holds_new layout hwriter⟩

/-- A new guess of items per list changes no slots of a column. -/
theorem Holds.withHint {layout : Layout} {c : Column} {slots : List (Option layout.Cell)}
    (h : Holds layout c slots) (hint : Nat) : Holds layout (c.withHint hint) slots :=
  h

/-- A column counts as many slots as it holds. -/
theorem Holds.length_eq {layout : Layout} {c : Column} {slots : List (Option layout.Cell)}
    (h : Holds layout c slots) : c.length = slots.length := by
  obtain ⟨-, -, progress, writer, hstate, hwriter⟩ := h
  have hwriter? : c.writer? = some writer := by rw [writer?, hstate]
  rw [Column.length, hwriter?]
  exact hwriter.length_eq

/-- Whatever an operation does to the slots of the writer it does to the
slots of the column. -/
theorem Holds.apply {layout : Layout} {c : Column} {slots slots' : List (Option layout.Cell)}
    (h : Holds layout c slots) {op : Writer → Ledger → Outcome Writer}
    (hop : ∀ (w : Writer) (m : Ledger), w.Holds layout slots →
      (op w m).Ensures fun w' => w'.Holds layout slots')
    (hadmits : layout.AdmitsAll slots') (progress : Progress) (m : Ledger) :
    (c.apply progress op m).Ensures fun c' => Holds layout c' slots' := by
  obtain ⟨hlayout, -, before, writer, hstate, hwriter⟩ := h
  rw [Column.apply_eq hstate]
  have hdone := hop writer m hwriter
  cases hfault : (op writer m).fault with
  | none =>
    rw [Outcome.elim_of_none hfault]
    exact Outcome.ensures_done ⟨hlayout, hadmits, _, _, rfl, hdone hfault⟩
  | some fault =>
    rw [Outcome.elim_of_some hfault]
    exact Outcome.ensures_stopped

/-- Making room for items leaves the slots of the lists alone. -/
theorem ensures_onItems_reserve : {layout : Layout} → {w : Writer} →
    {slots : List (Option layout.Cell)} → w.Holds layout slots → (n : Nat) → (m : Ledger) →
    (w.onItems (Writer.reserve n) m).Ensures fun w' => w'.Holds layout slots
  | .boolean, _, _, ⟨_, rfl, _⟩, _, _ => Outcome.ensures_stopped
  | .number _, _, _, ⟨_, rfl, _⟩, _, _ => Outcome.ensures_stopped
  | .binary, _, _, ⟨_, rfl, _⟩, _, _ => Outcome.ensures_stopped
  | .utf8, _, _, ⟨_, rfl, _⟩, _, _ => Outcome.ensures_stopped
  | .struct _, _, _, ⟨_, _, rfl, _, _⟩, _, _ => Outcome.ensures_stopped
  | .list _ _, _, _, ⟨ends, _, rfl, hends, hchild⟩, n, m =>
    fun _ => ⟨ends, _, rfl, hends, hchild.reserve n m⟩

/-- Reserving in a column leaves the slots of its writer alone, also where it goes on to the items.
-/
theorem ensures_work_reserve {layout : Layout} {w : Writer} {slots : List (Option layout.Cell)}
    (h : w.Holds layout slots) (n hint : Nat) (m : Ledger) :
    ((ColumnOp.reserve n).work hint w m).Ensures fun w' => w'.Holds layout slots := by
  have hown : (w.reserve n m).Ensures fun w' => w'.Holds layout slots := fun _ => h.reserve n m
  rw [ColumnOp.work]
  refine hown.andThen ?_
  intro w' m' hw'
  split
  · split
    · exact Outcome.ensures_stopped
    · exact ensures_onItems_reserve hw' _ m'
  · exact Outcome.ensures_done hw'

/-- Reserving leaves the slots of a column alone. -/
theorem Holds.reserve {layout : Layout} {c : Column} {slots : List (Option layout.Cell)}
    (h : Holds layout c slots) (n : Nat) (m : Ledger) :
    (c.reserve n m).Ensures fun c' => Holds layout c' slots :=
  h.apply (fun _ m hw => ensures_work_reserve hw n c.hint m) h.2.1 .reserved m

/-- Making room for items of lists leaves the slots of a column alone. -/
theorem Holds.reserveItems {layout : Layout} {c : Column} {slots : List (Option layout.Cell)}
    (h : Holds layout c slots) (n : Nat) (m : Ledger) :
    (c.reserveItems n m).Ensures fun c' => Holds layout c' slots :=
  h.apply (fun _ m hw => ensures_onItems_reserve hw n m) h.2.1 .reserved m

/-- A null that is added to a column is its last slot. -/
theorem Holds.appendNull {layout : Layout} {c : Column} {slots : List (Option layout.Cell)}
    (h : Holds layout c slots) (m : Ledger) :
    (c.appendNull m).Ensures fun c' => Holds layout c' (slots ++ [none]) :=
  h.apply (fun _ m hw => hw.appendNull m) (h.2.1.push nofun) .filling m

/-- A list without items that is added to a column of lists is its last slot. -/
theorem Holds.appendAbsent {item : Layout} {nullable : Bool} {c : Column}
    {slots : List (Option (List (Option item.Cell)))} (h : Holds (.list item nullable) c slots)
    (m : Ledger) :
    (c.appendAbsent m).Ensures fun c' =>
      Holds (.list item nullable) c' (slots ++ [some []]) := by
  refine h.apply (fun _ m hw => hw.appendAbsent m) (h.2.1.push ?_) .filling m
  intro cell hcell
  obtain rfl : [] = cell := Option.some.inj hcell
  exact nofun

/-- A list of items that is added to a column of such lists is its last slot. -/
theorem Holds.appendList {type : ValueType} {c : Column}
    {slots : List (Option (List (Option type.layout.Cell)))}
    (h : Holds (.list type.layout type.isNullable) c slots) (items : List type.Datum) (m : Ledger) :
    (c.appendList (items.map fun item => type.write item) m).Ensures fun c' =>
      Holds (.list type.layout type.isNullable) c'
        (slots ++ [some (items.map type.cell)]) := by
  refine h.apply ?_ (h.2.1.push ?_) .filling m
  · intro w m hw
    exact (ValueType.collection type).ensures_write (.populated items) w slots hw m
  · intro cell hcell
    obtain rfl : items.map type.cell = cell := Option.some.inj hcell
    exact type.admits_cells items

/-- A value that is added to a column of the layout of its type is the last slot there. -/
theorem Holds.append {type : ValueType} {c : Column} {slots : List (Option type.layout.Cell)}
    (h : Holds type.layout c slots) (value : type.Datum) (m : Ledger) :
    (c.append (type.write value) m).Ensures fun c' =>
      Holds type.layout c' (slots ++ [type.cell value]) :=
  h.apply (fun w m hw => type.ensures_write value w slots hw m)
    (h.2.1.push (type.admits_cell value)) .filling m

/-- A writer of another layout refuses lists. -/
theorem not_appendAbsent : {layout : Layout} → {w : Writer} →
    {slots : List (Option layout.Cell)} → w.Holds layout slots → layout.isList = false →
    (m : Ledger) → (w.appendAbsent m).Ensures fun _ => False
  | .boolean, _, _, ⟨_, rfl, _⟩, _, _ => Outcome.ensures_stopped
  | .number _, _, _, ⟨_, rfl, _⟩, _, _ => Outcome.ensures_stopped
  | .binary, _, _, ⟨_, rfl, _⟩, _, _ => Outcome.ensures_stopped
  | .utf8, _, _, ⟨_, rfl, _⟩, _, _ => Outcome.ensures_stopped
  | .struct _, _, _, ⟨_, _, rfl, _, _⟩, _, _ => Outcome.ensures_stopped
  | .list _ _, _, _, _, hlist, _ => Bool.noConfusion hlist

/-- A layout of lists is one of some items. -/
theorem exists_of_isList {layout : Layout} (h : layout.isList = true) :
    ∃ item nullable, layout = .list item nullable := by
  cases layout with
  | list item nullable => exact ⟨item, nullable, rfl⟩
  | _ => exact Bool.noConfusion h

end Column

/-- Every operation that succeeds leads from slots to slots. -/
theorem ColumnOp.ensures_run {layout : Layout} {c : Column} {slots : List (Option layout.Cell)}
    (h : Column.Holds layout c slots) (op : ColumnOp) (hfits : op.Fits layout) (m : Ledger) :
    (op.run c m).Ensures fun c' => ∃ slots', Column.Holds layout c' slots' := by
  cases op with
  | reserve n => exact (h.reserve n m).imp fun _ h' => ⟨slots, h'⟩
  | reserveItems n => exact (h.reserveItems n m).imp fun _ h' => ⟨slots, h'⟩
  | appendNull => exact (h.appendNull m).imp fun _ h' => ⟨_, h'⟩
  | appendAbsent =>
    cases hlist : layout.isList with
    | true =>
      obtain ⟨item, nullable, rfl⟩ := Column.exists_of_isList hlist
      exact (h.appendAbsent m).imp fun _ h' => ⟨_, h'⟩
    | false =>
      refine (h.apply ?_ h.2.1 .filling m).imp fun _ h' => ⟨slots, h'⟩
      intro w m hw
      exact (Column.not_appendAbsent hw hlist m).imp fun _ hfalse => hfalse.elim
  | append type value =>
    obtain rfl := hfits
    exact (h.append value m).imp fun _ h' => ⟨_, h'⟩
  | appendList type items =>
    obtain rfl := hfits
    exact (Column.Holds.appendList h items m).imp fun _ h' => ⟨_, h'⟩

namespace Column

/-- Every column that is reached from slots holds slots. -/
theorem Reaches.exists_holds {layout : Layout} {start c : Column}
    {slots : List (Option layout.Cell)} (hreaches : start.Reaches c)
    (h : Holds layout start slots) : ∃ slots', Holds layout c slots' := by
  induction hreaches with
  | refl => exact ⟨slots, h⟩
  | step op m _ hfits hok ih =>
    obtain ⟨slots', hslots'⟩ := ih
    rw [hslots'.1] at hfits
    exact op.ensures_run hslots' hfits m hok

/-- A column that holds slots finishes with their canonical chunk, which is sound. -/
theorem Holds.finish_eq {layout : Layout} {c : Column} {slots : List (Option layout.Cell)}
    (h : Holds layout c slots) (m : Ledger) :
    c.finish m = (.ok (layout.chunk slots), { c with state := .finished }, c.release m) ∧
      (layout.chunk slots).Sound := by
  obtain ⟨-, hadmits, progress, writer, hstate, hwriter⟩ := h
  refine ⟨?_, hwriter.sound_chunk hadmits⟩
  rw [finish, hstate]
  dsimp only
  rw [hwriter.finish_eq hadmits]

/-- Whatever history of successful operations leads to a column, it can be
finished: the parts of the chunk fit together at every depth, its offsets are
tight, it has as many slots as the column counts, and its datatype is that of
the layout. -/
theorem finish_of_reaches {layout : Layout} {m₀ m₁ : Ledger} {start c : Column} {hint : Nat}
    (hnew : new layout m₀ = (.ok start, m₁)) (hreaches : (start.withHint hint).Reaches c)
    (m : Ledger) :
    ∃ chunk, c.finish m = (.ok chunk, { c with state := .finished }, c.release m) ∧
      chunk.Sound ∧ chunk.Tight ∧ chunk.length = c.length ∧
      chunk.dataType = layout.toDataType := by
  obtain ⟨slots, hslots⟩ := hreaches.exists_holds ((holds_new hnew).withHint hint)
  obtain ⟨hfinish, hsound⟩ := hslots.finish_eq m
  refine ⟨layout.chunk slots, hfinish, hsound, layout.tight_chunk slots, ?_,
    layout.dataType_chunk slots⟩
  rw [layout.length_chunk, hslots.length_eq]

/-- Records of a weight and a label, which may be missing. -/
private def markType : ValueType :=
  .option (.record "Mark" (.cons "weight" (.number .uint16) (.cons "label" .text .nil)))

/-- A new column of lists of marks. -/
private def markColumn : Column :=
  match new (.list markType.layout true) {} with
  | (.ok c, _) => c
  | (.error _, _) => { layout := .boolean, state := .finished }

/-- A list of a mark and a missing mark, a null in the place of a list and a
list without marks make three slots, which can be finished. -/
theorem finish_of_marks :
    ∃ (c : Column) (m : Ledger) (chunk : Chunk),
      new (.list markType.layout true) {} = (.ok markColumn, m) ∧
        (markColumn.withHint 3).Reaches c ∧
        c.finish {} = (.ok chunk, { c with state := .finished }, c.release {}) ∧
        chunk.Sound ∧ chunk.Tight ∧ chunk.length = c.length ∧
        chunk.dataType = (Layout.list markType.layout true).toDataType ∧ c.length = 3 := by
  have hnew : new (.list markType.layout true) {} =
      (.ok markColumn, (new (.list markType.layout true) {}).2) := rfl
  have hstart : (markColumn.withHint 3).Reaches (markColumn.withHint 3) := .refl
  have hreserved := hstart.step (.reserve 2) {} trivial rfl
  have hlist := hreserved.step (.appendList markType [some (7#16, "a", ()), none]) {} rfl rfl
  have hnull := hlist.step .appendNull {} trivial rfl
  have habsent := hnull.step .appendAbsent {} trivial rfl
  obtain ⟨chunk, hfinish, hsound, htight, hlength, htype⟩ := finish_of_reaches hnew habsent {}
  exact ⟨_, _, chunk, hnew, habsent, hfinish, hsound, htight, hlength, htype, rfl⟩

end Column

end Columnar
