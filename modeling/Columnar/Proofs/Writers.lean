import Columnar.Layout.Cell
import Columnar.Proofs.Leaves
import Columnar.Writer.Append
/-!
# Writers hold slots of their layout

`Writer.Holds` ties a writer, with all the writers inside it, to the slots
that were added to it: the items of all lists, one after the other, are the
slots of the child of a list, and every column of a struct has a slot for each
row, a null where the row is null.

A new writer holds no slots, reserving leaves the slots alone, and adding a
null, closing a list or closing a row adds the slot it is meant to add.
-/

namespace Columnar

mutual

/-- The writer has the given layout and holds the given slots: its parts are what these slots make
of them, at every depth. -/
def Writer.Holds : (layout : Layout) → Writer → List (Option layout.Cell) → Prop
  | .boolean, w, slots => ∃ leaf : BooleanWriter, w = .boolean leaf ∧ leaf.Holds slots
  | .number kind, w, slots =>
    ∃ leaf : NumberWriter kind, w = .number kind leaf ∧ leaf.Holds slots
  | .binary, w, slots => ∃ leaf : BytesWriter, w = .binary leaf ∧ leaf.Holds slots
  | .utf8, w, (slots : List (Option String)) =>
    ∃ leaf : BytesWriter, w = .utf8 leaf ∧ leaf.Holds (slots.map (·.map Text.encode))
  | .list item nullable, w, (slots : List (Option (List (Option item.Cell)))) =>
    ∃ (ends : Slots) (child : Writer), w = .list ends nullable child ∧ ends.Holds slots ∧
      Writer.Holds item child (slotLists slots).flatten
  | .struct fields, w, (rows : List (Option fields.Cells)) =>
    ∃ (validity : Validity) (columns : Writers), w = .struct validity columns ∧
      validity.Shows (rows.map Option.isSome) ∧ Writers.Hold fields columns rows

/-- The writers of the columns have the given fields and hold the given rows, field by field. -/
def Writers.Hold : (fields : LayoutFields) → Writers → List (Option fields.Cells) → Prop
  | .nil, columns, _ => columns = .nil
  | .cons name layout nullable rest, columns,
      (rows : List (Option (Option layout.Cell × rest.Cells))) =>
    ∃ (column : Writer) (others : Writers), columns = .cons name nullable column others ∧
      Writer.Holds layout column (rows.map (·.bind Prod.fst)) ∧
      Writers.Hold rest others (rows.map (·.map Prod.snd))

end

mutual

/-- A new writer for a layout holds no slots, wherever its memory came from. -/
theorem Writer.holds_new : (layout : Layout) → {m m' : Ledger} → {w : Writer} →
    Writer.new layout m = (.ok w, m') → w.Holds layout []
  | .boolean, m, m', w, h => by
    rw [Writer.new] at h
    obtain ⟨leaf, hleaf, rfl⟩ := Made.eq_ok_of_map h
    exact ⟨leaf, rfl, BooleanWriter.holds_new hleaf⟩
  | .number kind, m, m', w, h => by
    rw [Writer.new] at h
    obtain ⟨leaf, hleaf, rfl⟩ := Made.eq_ok_of_map h
    exact ⟨leaf, rfl, NumberWriter.holds_new hleaf⟩
  | .binary, m, m', w, h => by
    rw [Writer.new] at h
    obtain ⟨leaf, hleaf, rfl⟩ := Made.eq_ok_of_map h
    exact ⟨leaf, rfl, BytesWriter.holds_new hleaf⟩
  | .utf8, m, m', w, h => by
    rw [Writer.new] at h
    obtain ⟨leaf, hleaf, rfl⟩ := Made.eq_ok_of_map h
    exact ⟨leaf, rfl, BytesWriter.holds_new hleaf⟩
  | .list item nullable, m, m', w, h => by
    rw [Writer.new_list] at h
    obtain ⟨child, _, hchild, hlist⟩ := Made.eq_ok_of_chain h
    rw [Writer.newList_eq] at hlist
    obtain ⟨ends, _, hends, hmade⟩ := Made.eq_ok_of_chain hlist
    obtain rfl := Made.ok_inj hmade
    exact ⟨ends, child, rfl, Slots.holds_new hends, Writer.holds_new item hchild⟩
  | .struct fields, m, m', w, h => by
    rw [Writer.new] at h
    obtain ⟨columns, hcolumns, rfl⟩ := Made.eq_ok_of_map h
    exact ⟨.new 0, columns, rfl, Validity.shows_new 0, Writers.hold_new fields hcolumns⟩

/-- New writers for the fields of a struct hold no rows. -/
theorem Writers.hold_new : (fields : LayoutFields) → {m m' : Ledger} → {columns : Writers} →
    Writers.new fields m = (.ok columns, m') → columns.Hold fields []
  | .nil, m, m', columns, h => by
    rw [Writers.new] at h
    obtain rfl := Made.ok_inj h
    rfl
  | .cons name layout nullable rest, m, m', columns, h => by
    rw [Writers.new_cons] at h
    obtain ⟨column, _, hcolumn, hrest⟩ := Made.eq_ok_of_chain h
    obtain ⟨others, _, hothers, hmade⟩ := Made.eq_ok_of_chain hrest
    obtain rfl := Made.ok_inj hmade
    exact ⟨column, others, rfl, Writer.holds_new layout hcolumn, Writers.hold_new rest hothers⟩

end

/-- A new writer that is made with room holds no slots either. -/
theorem Writer.holds_newWith {capacity content : Nat} : {layout : Layout} → {m m' : Ledger} →
    {w : Writer} → Writer.newWith capacity content layout m = (.ok w, m') → w.Holds layout []
  | .boolean, m, m', w, h => by
    rw [Writer.newWith] at h
    obtain ⟨leaf, hleaf, rfl⟩ := Made.eq_ok_of_map h
    exact ⟨leaf, rfl, BooleanWriter.holds_new hleaf⟩
  | .number kind, m, m', w, h => by
    rw [Writer.newWith] at h
    obtain ⟨leaf, hleaf, rfl⟩ := Made.eq_ok_of_map h
    exact ⟨leaf, rfl, NumberWriter.holds_new hleaf⟩
  | .binary, m, m', w, h => by
    rw [Writer.newWith] at h
    obtain ⟨leaf, hleaf, rfl⟩ := Made.eq_ok_of_map h
    exact ⟨leaf, rfl, BytesWriter.holds_new hleaf⟩
  | .utf8, m, m', w, h => by
    rw [Writer.newWith] at h
    obtain ⟨leaf, hleaf, rfl⟩ := Made.eq_ok_of_map h
    exact ⟨leaf, rfl, BytesWriter.holds_new hleaf⟩
  | .list item nullable, m, m', w, h => by
    rw [Writer.newWith_list] at h
    obtain ⟨child, _, hchild, hlist⟩ := Made.eq_ok_of_chain h
    rw [Writer.newList_eq] at hlist
    obtain ⟨ends, _, hends, hmade⟩ := Made.eq_ok_of_chain hlist
    obtain rfl := Made.ok_inj hmade
    exact ⟨ends, child, rfl, Slots.holds_new hends, Writer.holds_new item hchild⟩
  | .struct fields, _, _, _, h => Writer.holds_new (.struct fields) h

/-- A writer counts as many slots as it holds. -/
theorem Writer.Holds.length_eq : {layout : Layout} → {w : Writer} →
    {slots : List (Option layout.Cell)} → w.Holds layout slots → w.length = slots.length
  | .boolean, _, _, ⟨_, rfl, h⟩ => h.validity.length_eq.trans (List.length_map _)
  | .number _, _, _, ⟨_, rfl, h⟩ => h.validity.length_eq.trans (List.length_map _)
  | .binary, _, _, ⟨_, rfl, h⟩ => h.ends.validity.length_eq.trans (List.length_map _)
  | .utf8, _, _, ⟨_, rfl, h⟩ =>
    (h.ends.validity.length_eq.trans (List.length_map _)).trans (List.length_map _)
  | .list _ _, _, _, ⟨_, _, rfl, h, _⟩ => h.validity.length_eq.trans (List.length_map _)
  | .struct _, _, _, ⟨_, _, rfl, h, _⟩ => h.length_eq.trans (List.length_map _)

/-- A writer holds no more slots than there are sizes. -/
theorem Writer.Holds.length_le : {layout : Layout} → {w : Writer} →
    {slots : List (Option layout.Cell)} → w.Holds layout slots → slots.length ≤ Size.max
  | .boolean, _, _, ⟨_, rfl, h⟩ => Validity.Shows.slots_le h.validity
  | .number _, _, _, ⟨_, rfl, h⟩ => Validity.Shows.slots_le h.validity
  | .binary, _, _, ⟨_, rfl, h⟩ => Validity.Shows.slots_le h.ends.validity
  | .utf8, _, _, ⟨_, rfl, h⟩ =>
    Nat.le_trans (Nat.le_of_eq (List.length_map _).symm) (Validity.Shows.slots_le h.ends.validity)
  | .list _ _, _, _, ⟨_, _, rfl, h, _⟩ => Validity.Shows.slots_le h.validity
  | .struct _, _, _, ⟨_, _, rfl, h, _⟩ => Validity.Shows.slots_le h

mutual

/-- Reserving leaves the slots alone, even where it fails. -/
theorem Writer.Holds.reserve (n : Nat) : {layout : Layout} → {w : Writer} →
    {slots : List (Option layout.Cell)} → w.Holds layout slots → (m : Ledger) →
    (w.reserve n m).value.Holds layout slots
  | .boolean, _, _, ⟨_, rfl, h⟩, m => ⟨_, rfl, h.reserve n m⟩
  | .number _, _, _, ⟨_, rfl, h⟩, m => ⟨_, rfl, h.reserve n m⟩
  | .binary, _, _, ⟨_, rfl, h⟩, m => ⟨_, rfl, h.reserve n m⟩
  | .utf8, _, _, ⟨_, rfl, h⟩, m => ⟨_, rfl, h.reserve n m⟩
  | .list _ _, _, _, ⟨_, child, rfl, h, hchild⟩, m => ⟨_, child, rfl, h.reserve n m, hchild⟩
  | .struct _, _, _, ⟨validity, columns, rfl, h, hcolumns⟩, m => by
    rw [Writer.reserve]
    split
    · exact ⟨_, columns, rfl, h.reserve n m, hcolumns⟩
    · exact ⟨_, _, rfl, h.reserve n m, hcolumns.reserve n _⟩

/-- Reserving leaves the rows alone, even where it fails. -/
theorem Writers.Hold.reserve (n : Nat) : {fields : LayoutFields} → {columns : Writers} →
    {rows : List (Option fields.Cells)} → columns.Hold fields rows → (m : Ledger) →
    (columns.reserve n m).value.Hold fields rows
  | .nil, _, _, rfl, _ => rfl
  | .cons .., _, _, ⟨column, others, rfl, hcolumn, hothers⟩, m => by
    rw [Writers.reserve]
    split
    · exact ⟨_, others, rfl, hcolumn.reserve n m, hothers⟩
    · exact ⟨_, _, rfl, hcolumn.reserve n m, hothers.reserve n _⟩

end

mutual

/-- A null that is added to a writer is its last slot, whatever its kind. -/
theorem Writer.Holds.appendNull : {layout : Layout} → {w : Writer} →
    {slots : List (Option layout.Cell)} → w.Holds layout slots → (m : Ledger) →
    (w.appendNull m).Ensures fun w' => w'.Holds layout (slots ++ [none])
  | .boolean, _, _, ⟨_, rfl, h⟩, m =>
    Outcome.ensures_map ((h.append none m).imp fun _ h' => ⟨_, rfl, h'⟩)
  | .number _, _, _, ⟨_, rfl, h⟩, m =>
    Outcome.ensures_map ((h.append none m).imp fun _ h' => ⟨_, rfl, h'⟩)
  | .binary, _, _, ⟨_, rfl, h⟩, m =>
    Outcome.ensures_map ((h.append none m).imp fun _ h' => ⟨_, rfl, h'⟩)
  | .utf8, _, (slots : List (Option String)), ⟨leaf, rfl, h⟩, m => by
    have hlast : (leaf.append none m).Ensures fun leaf' =>
        leaf'.Holds ((slots ++ [(none : Option String)]).map (·.map Text.encode)) := by
      rw [List.map_append]
      exact h.append none m
    exact Outcome.ensures_map (hlast.imp fun _ h' => ⟨_, rfl, h'⟩)
  | .list item nullable, _, (slots : List (Option (List (Option item.Cell)))),
      ⟨ends, child, rfl, h, hchild⟩, m => by
    have hlast : (ends.closeEmpty false m).Ensures fun ends' =>
        ends'.Holds (slots ++ [(none : Option (List (Option item.Cell)))]) :=
      h.closeEmpty none rfl m
    rw [Writer.appendNull]
    refine Outcome.ensures_map (hlast.imp fun ends' h' => ⟨ends', child, rfl, h', ?_⟩)
    show child.Holds item
      (slotLists (slots ++ [(none : Option (List (Option item.Cell)))])).flatten
    rw [Slots.flatten_slotLists_append, Option.getD_none, List.append_nil]
    exact hchild
  | .struct fields, _, (rows : List (Option fields.Cells)),
      ⟨validity, columns, rfl, h, hcolumns⟩, m => by
    intro hok
    rw [Writer.appendNull] at hok ⊢
    have hnulls := hcolumns.appendNull m
    cases hfirst : (columns.appendNull m).fault with
    | some fault => simp [hfirst] at hok
    | none =>
      simp only [hfirst] at hok ⊢
      have hlast : (validity.append false (columns.appendNull m).ledger).value.Shows
          ((rows ++ [none]).map Option.isSome) := by
        rw [List.map_append]
        exact h.append false _ hok
      exact ⟨_, _, rfl, hlast, hnulls hfirst⟩

/-- A null row that is added to the columns of a struct is the last one in each. -/
theorem Writers.Hold.appendNull : {fields : LayoutFields} → {columns : Writers} →
    {rows : List (Option fields.Cells)} → columns.Hold fields rows → (m : Ledger) →
    (columns.appendNull m).Ensures fun columns' => columns'.Hold fields (rows ++ [none])
  | .nil, _, _, rfl, _ => Outcome.ensures_done rfl
  | .cons name layout nullable rest, _, (rows : List (Option (Option layout.Cell × rest.Cells))),
      ⟨column, others, rfl, hcolumn, hothers⟩, m => by
    intro hok
    rw [Writers.appendNull] at hok ⊢
    have hnull := hcolumn.appendNull m
    cases hfirst : (column.appendNull m).fault with
    | some fault => simp [hfirst] at hok
    | none =>
      simp only [hfirst] at hok ⊢
      have hlast : (column.appendNull m).value.Holds layout
          ((rows ++ [(none : Option (Option layout.Cell × rest.Cells))]).map
            (·.bind Prod.fst)) := by
        rw [List.map_append]
        exact hnull hfirst
      have hrest : (others.appendNull (column.appendNull m).ledger).value.Hold rest
          ((rows ++ [(none : Option (Option layout.Cell × rest.Cells))]).map
            (·.map Prod.snd)) := by
        rw [List.map_append]
        exact hothers.appendNull _ hok
      exact ⟨_, _, rfl, hlast, hrest⟩

end

namespace Writer.Holds

variable {w : Writer}

/-- A boolean that is added is the last slot of a writer of booleans. -/
theorem appendBoolean {slots : List (Option Bool)} (h : w.Holds .boolean slots)
    (value : Option Bool) (m : Ledger) :
    (w.appendBoolean value m).Ensures fun w' => w'.Holds .boolean (slots ++ [value]) := by
  obtain ⟨leaf, rfl, h⟩ := h
  exact Outcome.ensures_map ((h.append value m).imp fun leaf' h' => ⟨leaf', rfl, h'⟩)

/-- A number that is added is the last slot of a writer of its type. -/
theorem appendNumber {kind : NumberType} {slots : List (Option kind.Carrier)}
    (h : w.Holds (.number kind) slots) (value : Option kind.Carrier) (m : Ledger) :
    (w.appendNumber kind value m).Ensures fun w' =>
      w'.Holds (.number kind) (slots ++ [value]) := by
  obtain ⟨leaf, rfl, h⟩ := h
  have hrun : (Writer.number kind leaf).appendNumber kind value m =
      (leaf.append value m).map (.number kind) := dif_pos rfl
  rw [hrun]
  exact Outcome.ensures_map ((h.append value m).imp fun leaf' h' => ⟨leaf', rfl, h'⟩)

/-- A byte string that is added is the last slot of a writer of byte strings. -/
theorem appendBytes {slots : List (Option (List UInt8))} (h : w.Holds .binary slots)
    (value : Option (List UInt8)) (m : Ledger) :
    (w.appendBytes value m).Ensures fun w' => w'.Holds .binary (slots ++ [value]) := by
  obtain ⟨leaf, rfl, h⟩ := h
  exact Outcome.ensures_map ((h.append value m).imp fun leaf' h' => ⟨leaf', rfl, h'⟩)

/-- A text that is added is the last slot of a writer of texts, as its bytes. -/
theorem appendText {slots : List (Option String)} (h : w.Holds .utf8 slots)
    (value : Option String) (m : Ledger) :
    (w.appendText value m).Ensures fun w' => w'.Holds .utf8 (slots ++ [value]) := by
  obtain ⟨leaf, rfl, h⟩ := h
  have htext : (leaf.append (value.map Text.encode) m).Ensures fun leaf' =>
      leaf'.Holds ((slots ++ [value]).map (·.map Text.encode)) := by
    rw [List.map_append]
    exact h.append _ m
  exact Outcome.ensures_map (htext.imp fun leaf' h' => ⟨leaf', rfl, h'⟩)

end Writer.Holds

/-- A list without items that is added to a writer of lists is its last slot. -/
theorem Writer.Holds.appendAbsent {item : Layout} {nullable : Bool} {w : Writer}
    {slots : List (Option (List (Option item.Cell)))} (h : w.Holds (.list item nullable) slots)
    (m : Ledger) :
    (w.appendAbsent m).Ensures fun w' =>
      w'.Holds (.list item nullable) (slots ++ [some []]) := by
  obtain ⟨ends, child, rfl, hends, hchild⟩ := h
  have hlast : (ends.closeEmpty true m).Ensures fun ends' =>
      ends'.Holds (slots ++ [some []]) := hends.closeEmpty (some []) rfl m
  rw [Writer.appendAbsent]
  refine Outcome.ensures_map (hlast.imp fun ends' hends' => ⟨ends', child, rfl, hends', ?_⟩)
  show child.Holds item (slotLists (slots ++ [some []])).flatten
  rw [Slots.flatten_slotLists_append, Option.getD_some, List.append_nil]
  exact hchild

/-- A list that is left out ends where it starts, like one without items. -/
theorem Writer.Holds.appendAbsent_eq {item : Layout} {nullable : Bool} {w : Writer}
    {slots : List (Option (List (Option item.Cell)))} (h : w.Holds (.list item nullable) slots)
    (m : Ledger) : w.appendAbsent m = w.closeList m := by
  obtain ⟨ends, child, rfl, hends, hchild⟩ := h
  rw [Writer.appendAbsent, Writer.closeList, hends.closeEmpty_eq, hchild.length_eq]

/-- A list is closed with the items that were added since the last closing. -/
theorem Writer.ensures_closeList {item : Layout} {nullable : Bool} {ends : Slots} {child : Writer}
    {slots : List (Option (List (Option item.Cell)))} {items : List (Option item.Cell)}
    (hends : ends.Holds slots) (hchild : child.Holds item ((slotLists slots).flatten ++ items))
    (m : Ledger) :
    ((Writer.list ends nullable child).closeList m).Ensures fun w' =>
      w'.Holds (.list item nullable) (slots ++ [some items]) := by
  have hlength : child.length = (slotLists slots).flatten.length + items.length := by
    rw [hchild.length_eq, List.length_append]
  rw [Writer.closeList]
  refine Outcome.ensures_map ((hends.close (some items) hlength m).imp fun ends' hends' => ?_)
  refine ⟨ends', child, rfl, hends', ?_⟩
  show child.Holds item (slotLists (slots ++ [some items])).flatten
  rw [Slots.flatten_slotLists_append, Option.getD_some]
  exact hchild

/-- A list of items, each added by an operation of its own that finds a slot for it,
is the last slot. -/
theorem Writer.Holds.appendList {α : Type} {item : Layout} {nullable : Bool} {w : Writer}
    {slots : List (Option (List (Option item.Cell)))} (h : w.Holds (.list item nullable) slots)
    {items : List α} {op : α → Writer → Ledger → Outcome Writer}
    {find : α → Option (Option item.Cell)}
    (hop : ∀ x ∈ items, ∀ (slots : List (Option item.Cell)) (w : Writer) (m : Ledger),
      w.Holds item slots → (op x w m).Ensures fun w' =>
        ∃ slot, find x = some slot ∧ w'.Holds item (slots ++ [slot]))
    (m : Ledger) :
    (w.appendList (items.map op) m).Ensures fun w' =>
      ∃ cells : List (Option item.Cell), items.map find = cells.map some ∧
        w'.Holds (.list item nullable) (slots ++ [some cells]) := by
  obtain ⟨ends, child, rfl, hends, hchild⟩ := h
  have hitems : ((items.map op).foldl (fun (o : Outcome Writer) op => o.andThen op)
      (.done child m)).Ensures fun child' => ∃ cells : List (Option item.Cell),
        items.map find = cells.map some ∧
          child'.Holds item ((slotLists slots).flatten ++ cells) := by
    rw [List.foldl_map]
    exact Outcome.Ensures.foldl_found (I := fun slots (child : Writer) => child.Holds item slots)
      (Outcome.ensures_done hchild) hop
  refine (Outcome.ensures_map (P := fun w' : Writer => ∃ child' cells,
      w' = .list ends nullable child' ∧ items.map find = cells.map some ∧
        child'.Holds item ((slotLists slots).flatten ++ cells))
    (hitems.imp fun child' ⟨cells, hcells, hchild'⟩ =>
      ⟨child', cells, rfl, hcells, hchild'⟩)).andThen ?_
  rintro w' m' ⟨child', cells, rfl, hcells, hchild'⟩
  exact (Writer.ensures_closeList hends hchild' m').imp fun w'' h' => ⟨cells, hcells, h'⟩

/-- A row is closed once every column has its slot for it. -/
theorem Writer.ensures_closeRow {fields : LayoutFields} {validity : Validity} {columns : Writers}
    {rows : List (Option fields.Cells)} {row : fields.Cells}
    (hvalidity : validity.Shows (rows.map Option.isSome))
    (hcolumns : columns.Hold fields (rows ++ [some row])) (m : Ledger) :
    ((Writer.struct validity columns).closeRow m).Ensures fun w' =>
      w'.Holds (.struct fields) (rows ++ [some row]) := by
  unfold Writer.closeRow
  dsimp only
  split
  · exact Outcome.ensures_stopped
  split
  · exact Outcome.ensures_stopped
  · have hlast : (validity.append true m).Ensures fun validity' =>
        validity'.Shows ((rows ++ [some row]).map Option.isSome) := by
      rw [List.map_append]
      exact hvalidity.append true m
    exact Outcome.ensures_map (hlast.imp fun validity' hvalidity' =>
      ⟨validity', columns, rfl, hvalidity', hcolumns⟩)

end Columnar
