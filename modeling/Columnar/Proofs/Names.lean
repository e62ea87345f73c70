import Columnar.Operations
import Columnar.Proofs.Correspondence
import Columnar.Proofs.Naming
import Columnar.Proofs.Placing
import Columnar.Proofs.RoundTrip
/-!
# Names and places agree

In all that is made for an accepted layout, whatever is done to it, the name of a field leads
where its place leads: to the same writer, and to the same operation on it.  This holds at the
end of every way inside, since the layouts of the writers are those inside the layout.

So what was written by place is found by name.  The fields of a record are written to the
columns in their places, and the columns that are found by their names when the record is read
back are the same ones.
-/

namespace Columnar

namespace LayoutFields

/-- The names of the fields of a struct are the first parts of the members of their list. -/
theorem names_eq_map (fields : LayoutFields) : fields.names = fields.toList.map Prod.fst := by
  cases fields with
  | nil => rfl
  | cons name layout nullable rest => exact congrArg (name :: ·) rest.names_eq_map

/-- A field at a place has one of the names. -/
theorem mem_names {fields : LayoutFields} {i : Nat} {field : String × Layout × Bool}
    (h : fields.toList[i]? = some field) : field.1 ∈ fields.names := by
  rw [names_eq_map]
  exact List.mem_map_of_mem (List.mem_of_getElem? h)

end LayoutFields

namespace Writers

/-- Where names differ, the place of a name is where the field stands. -/
theorem place?_eq_some : {ws : Writers} → {i : Nat} → {field : String × Layout × Bool} →
    ws.layouts.names.Nodup → ws.layouts.toList[i]? = some field → ws.place? field.1 = some i
  | .nil, _, _, _, h => by simp [layouts, LayoutFields.toList] at h
  | .cons name nullable column rest, 0, _, _, h => by
    obtain rfl := Option.some.inj h
    exact if_pos rfl
  | .cons name nullable column rest, i + 1, field, hnames, h => by
    obtain ⟨hname, hrest⟩ := List.nodup_cons.1 hnames
    have hfield : rest.layouts.toList[i]? = some field := h
    have hne : name ≠ field.1 := fun heq => hname (heq ▸ LayoutFields.mem_names hfield)
    rw [place?, if_neg hne, place?_eq_some hrest hfield, Option.map_some]

/-- An operation at a place matters only on the column there. -/
theorem onPlace?_congr {op op' : Writer → Ledger → Outcome Writer} {column : Writer} :
    {ws : Writers} → {i : Nat} → ws.get? i = some column → {m : Ledger} →
    op column m = op' column m → ws.onPlace? op i m = ws.onPlace? op' i m
  | .nil, _, h, _, _ => by simp [get?] at h
  | .cons .., 0, h, m, hop => by
    obtain rfl := Option.some.inj h
    rw [onPlace?, onPlace?, hop]
  | .cons _ _ _ rest, i + 1, h, m, hop => by
    have hrest : rest.get? i = some column := h
    rw [onPlace?, onPlace?, onPlace?_congr hrest hop]

end Writers

namespace Writer

/-- A writer of the layout of a struct is a struct. -/
theorem exists_of_layout_struct {w : Writer} {fields : LayoutFields}
    (h : w.layout = .struct fields) : ∃ validity columns, w = .struct validity columns ∧
      columns.layouts = fields := by
  cases w with
  | struct validity columns => exact ⟨validity, columns, rfl, Layout.struct.inj h⟩
  | _ =>
    rw [layout] at h
    exact nomatch h

/-- Following a way with one step more in front is following the way from where that step leads. -/
theorem find_cons (inward : Inward) (way : List Inward) (w : Writer) :
    w.find (inward :: way) = (w.find [inward]).bind (·.find way) := by
  cases inward with
  | items => cases w <;> rfl
  | field i =>
    cases w with
    | struct validity columns =>
      rw [find, find]
      cases columns.get? i <;> rfl
    | _ => rfl
  | named name =>
    cases w with
    | struct validity columns =>
      rw [find, find]
      cases (columns.place? name).bind fun i => columns.get? i <;> rfl
    | _ => rfl

/-- A way goes on from where it has led. -/
theorem find_append {node : Writer} (way rest : List Inward) {w : Writer}
    (h : w.find way = .ok node) : w.find (way ++ rest) = node.find rest := by
  induction way generalizing w with
  | nil =>
    obtain rfl := Except.ok.inj h
    rfl
  | cons inward way ih =>
    rw [find_cons] at h
    obtain ⟨inner, hstep, hrest⟩ := exists_of_bind h
    rw [List.cons_append, find_cons, hstep]
    exact ih hrest

/-- An operation one step inside matters only on the writer there. -/
theorem inside_step_congr {op op' : Writer → Ledger → Outcome Writer} {w inner : Writer}
    {inward : Inward} (h : w.find [inward] = .ok inner) {m : Ledger}
    (hop : op inner m = op' inner m) : w.inside op [inward] m = w.inside op' [inward] m := by
  have hfield : ∀ {validity : Validity} {columns : Writers} {i : Nat},
      columns.get? i = some inner → (Writer.struct validity columns).onField i op m =
        (Writer.struct validity columns).onField i op' m := by
    intro validity columns i hcolumn
    rw [onField, onField, Writers.onPlace?_congr hcolumn hop]
  cases inward with
  | items =>
    cases w with
    | list slots nullable child =>
      obtain rfl := Except.ok.inj h
      exact congrArg (Outcome.map (Writer.list slots nullable)) hop
    | _ => cases h
  | field i =>
    cases w with
    | struct validity columns =>
      rw [find] at h
      cases hcolumn : columns.get? i with
      | none =>
        rw [hcolumn] at h
        cases h
      | some column =>
        rw [hcolumn] at h
        obtain rfl := Except.ok.inj h
        exact hfield hcolumn
    | _ => cases h
  | named name =>
    cases w with
    | struct validity columns =>
      rw [find] at h
      cases hcolumn : (columns.place? name).bind fun i => columns.get? i with
      | none =>
        rw [hcolumn] at h
        cases h
      | some column =>
        rw [hcolumn] at h
        obtain rfl := Except.ok.inj h
        obtain ⟨i, hplace, hget⟩ := Option.bind_eq_some_iff.1 hcolumn
        show (Writer.struct validity columns).onFieldNamed name op m =
          (Writer.struct validity columns).onFieldNamed name op' m
        rw [onFieldNamed, onFieldNamed, hplace]
        exact hfield hget
    | _ => cases h

/-- Two ways that part at a writer do the same to the whole if they do to that writer. -/
theorem inside_congr {op : Writer → Ledger → Outcome Writer} {node : Writer}
    {rest rest' : List Inward}
    (hnode : ∀ m, node.inside op rest m = node.inside op rest' m) (way : List Inward) {w : Writer}
    (h : w.find way = .ok node) (m : Ledger) :
    w.inside op (way ++ rest) m = w.inside op (way ++ rest') m := by
  induction way generalizing w m with
  | nil =>
    obtain rfl := Except.ok.inj h
    exact hnode m
  | cons inward way ih =>
    rw [find_cons] at h
    obtain ⟨inner, hstep, hnode⟩ := exists_of_bind h
    have hinside : ∀ rest, w.inside op (inward :: (way ++ rest)) m =
        w.inside (Writer.inside op (way ++ rest)) [inward] m := by
      intro rest
      cases inward <;> rfl
    rw [List.cons_append, List.cons_append, hinside, hinside]
    exact inside_step_congr hstep (ih hnode m)

/-- Inside a writer of the layout, the name of a field leads where its place leads. -/
structure NamesLead (layout : Layout) (w : Writer) : Prop where
  /-- At the place of a field there is a writer of the layout of the field. -/
  found {way : List Inward} {i : Nat} {field : String × Layout × Bool} :
    layout.HasField way i field →
    ∃ column, w.find (way ++ [.field i]) = .ok column ∧ column.layout = field.2.1
  /-- By its name the same writer is found, and all that is inside it. -/
  find_eq {way : List Inward} {i : Nat} {field : String × Layout × Bool} :
    layout.HasField way i field →
    ∀ rest, w.find (way ++ .named field.1 :: rest) = w.find (way ++ .field i :: rest)
  /-- Whatever is done there by name is done by place. -/
  inside_eq {way : List Inward} {i : Nat} {field : String × Layout × Bool} :
    layout.HasField way i field →
    ∀ op rest m, w.inside op (way ++ .named field.1 :: rest) m =
      w.inside op (way ++ .field i :: rest) m

/-- A field stands in a writer where it stands in the layout, and under its name only. -/
theorem exists_of_hasField {w : Writer} (hdistinct : w.layout.Distinct) {way : List Inward}
    {i : Nat} {field : String × Layout × Bool} (h : w.layout.HasField way i field) :
    ∃ validity columns column, w.find way = .ok (.struct validity columns) ∧
      columns.place? field.1 = some i ∧ columns.get? i = some column ∧
      column.layout = field.2.1 := by
  obtain ⟨fields, hway, hfield⟩ := h
  have hlayout := w.layout_find way
  rw [hway] at hlayout
  obtain ⟨node, hfind, hstruct⟩ := Option.map_eq_some_iff.1 hlayout
  obtain ⟨validity, columns, rfl, rfl⟩ := exists_of_layout_struct hstruct
  have hcolumn := columns.layouts_getElem? i
  rw [hfield] at hcolumn
  obtain ⟨column, hget, hcolumn⟩ := Option.map_eq_some_iff.1 hcolumn.symm
  refine ⟨validity, columns, column, ?_, ?_, hget, hcolumn⟩
  · cases hresult : w.find way with
    | error fault =>
      rw [hresult] at hfind
      exact nomatch hfind
    | ok found =>
      rw [hresult] at hfind
      exact congrArg Except.ok (Option.some.inj hfind)
  · exact Writers.place?_eq_some (hdistinct way _ hway) hfield

/-- Where no struct repeats a name, names lead where places lead. -/
theorem namesLead {w : Writer} (hdistinct : w.layout.Distinct) : w.NamesLead w.layout := by
  constructor
  · intro way i field hfield
    obtain ⟨validity, columns, column, hfind, -, hget, hcolumn⟩ :=
      exists_of_hasField hdistinct hfield
    refine ⟨column, ?_, hcolumn⟩
    rw [find_append way _ hfind, find, hget]
    rfl
  · intro way i field hfield rest
    obtain ⟨validity, columns, column, hfind, hplace, hget, -⟩ :=
      exists_of_hasField hdistinct hfield
    rw [find_append way _ hfind, find_append way _ hfind, find, find, hplace, Option.bind_some,
      hget]
  · intro way i field hfield op rest m
    obtain ⟨validity, columns, column, hfind, hplace, -⟩ := exists_of_hasField hdistinct hfield
    refine inside_congr (fun m => ?_) way hfind m
    rw [inside, inside, onFieldNamed, hplace]

end Writer

namespace Column

/-- The writer of the column, if there is one, is of the layout. -/
def WritesLayout (layout : Layout) (c : Column) : Prop :=
  ∀ writer ∈ c.writer?, writer.layout = layout

/-- What is done to a column keeps the layout of its writer. -/
theorem keepsLayout_work (op : ColumnOp) (hint : Nat) : KeepsLayout (op.work hint) := by
  cases op with
  | reserve n =>
    refine KeepsLayout.andThen (Writer.layout_reserve n) fun w m => ?_
    cases w with
    | list slots nullable child =>
      dsimp only
      cases Size.mul? n hint with
      | none => rfl
      | some items => exact Writer.keepsLayout_onItems (Writer.layout_reserve items) _ m
    | _ => rfl
  | reserveItems n => exact Writer.keepsLayout_onItems (Writer.layout_reserve n)
  | appendAbsent => exact Writer.keepsLayout_appendAbsent
  | appendNull => exact Writer.layout_appendNull
  | append type value => exact type.keepsLayout_write value
  | appendList type items =>
    refine Writer.keepsLayout_appendList fun op hop => ?_
    obtain ⟨item, -, rfl⟩ := List.mem_map.1 hop
    exact type.keepsLayout_write item

theorem WritesLayout.apply {layout : Layout} {c : Column} (h : c.WritesLayout layout)
    {op : Writer → Ledger → Outcome Writer} (hop : KeepsLayout op) (progress : Progress)
    (m : Ledger) : (c.apply progress op m).value.WritesLayout layout := by
  obtain ⟨own, hint, state⟩ := c
  cases state with
  | finished => exact h
  | failed writer => exact h
  | usable before writer =>
    have hwriter : (op writer m).value.layout = layout :=
      (hop writer m).trans (h writer rfl)
    rw [apply_eq rfl]
    cases hfault : (op writer m).fault with
    | none =>
      rw [Outcome.elim_of_none hfault]
      rintro _ ⟨⟩
      exact hwriter
    | some fault =>
      rw [Outcome.elim_of_some hfault]
      rintro _ ⟨⟩
      exact hwriter

/-- No call on a column changes the layout of its writer. -/
theorem WritesLayout.call {layout : Layout} {c : Column} (h : c.WritesLayout layout)
    (call : ColumnCall) (m : Ledger) : (call.run c m).2.1.WritesLayout layout := by
  cases call with
  | work op =>
    show (op.run c m).value.WritesLayout layout
    rw [op.run_eq]
    exact h.apply (keepsLayout_work op c.hint) op.progress m
  | withHint hint => exact h
  | finish =>
    obtain ⟨own, hint, state⟩ := c
    cases state with
    | finished => exact h
    | failed writer => exact h
    | usable before writer => exact nofun

/-- Whatever becomes of a new column, its writer is of its layout. -/
theorem writesLayout_of_lives {layout : Layout} {m m' : Ledger} {start c : Column}
    {events : List ColumnEvent} (hnew : new layout m = (.ok start, m'))
    (hlives : start.Lives events c) : c.WritesLayout layout := by
  induction hlives with
  | here =>
    rw [new, check_of_new hnew] at hnew
    obtain ⟨writer, hwriter, rfl⟩ := Made.eq_ok_of_map hnew
    rintro _ ⟨⟩
    exact Writer.layout_new layout hwriter
  | step call m _ ih => exact ih.call call m

end Column

/-- The value of every field was added to the column at its place, and to that one
only. -/
def FieldTypes.Placed (fields : FieldTypes) (row : fields.Row) (before after : Writers) : Prop :=
  ∀ i (f : RecordField fields.Row), fields.toList[i]? = some f →
    ∃ column m, before.get? i = some column ∧
      (f.type.write (f.value row) column m).fault = none ∧
      after.get? i = some (f.type.write (f.value row) column m).value

/-- A record is added field by field, each to the column at its place. -/
theorem FieldTypes.placed_write (fields : FieldTypes) (row : fields.Row) (start count : Nat)
    (ws : Writers) (m : Ledger) :
    (fields.write row start count ws m).Ensures (fields.Placed row ws) := by
  cases fields with
  | nil => exact fun _ _ _ h => by simp [toList] at h
  | cons name type rest =>
    obtain ⟨value, row⟩ := row
    cases ws with
    | nil => exact Outcome.ensures_stopped
    | cons own nullable column columns =>
      rw [write_cons]
      refine Outcome.ensures_both fun hfirst => ?_
      refine (rest.placed_write row (start + 1) count columns _).imp fun others hothers => ?_
      intro i f hf
      cases i with
      | zero =>
        obtain rfl := Option.some.inj hf
        exact ⟨column, m, rfl, hfirst, rfl⟩
      | succ i =>
        obtain ⟨f, hrest, rfl⟩ := exists_of_getElem?_succ hf
        exact hothers i f hrest

/-- Closing a row leaves the columns as they are. -/
theorem Writer.ensures_closeRow_struct (validity : Validity) (columns : Writers) (m : Ledger) :
    ((Writer.struct validity columns).closeRow m).Ensures fun w =>
      ∃ validity', w = .struct validity' columns := by
  rw [closeRow_struct]
  split
  · exact Outcome.ensures_stopped
  · split
    · exact Outcome.ensures_stopped
    · exact Outcome.ensures_map fun _ => ⟨_, rfl⟩

/-- A record is added to a struct only, by place. -/
theorem ValueType.placed_write (title : String) (fields : FieldTypes) (row : fields.Row)
    (w : Writer) (m : Ledger) :
    ((ValueType.record title fields).write row w m).Ensures fun w' =>
      ∃ validity columns validity' columns', w = .struct validity columns ∧
        w' = .struct validity' columns' ∧ fields.Placed row columns columns' := by
  cases w with
  | struct validity columns =>
    simp only [ValueType.write]
    refine Outcome.Ensures.andThen
      (P := fun w' =>
        ∃ columns', w' = .struct validity columns' ∧ fields.Placed row columns columns')
      (Outcome.ensures_map ?_) ?_
    · exact (fields.placed_write row 0 columns.count columns m).imp fun columns' h => ⟨_, rfl, h⟩
    · rintro _ m' ⟨columns', rfl, h⟩
      refine (Writer.ensures_closeRow_struct validity columns' m').imp ?_
      rintro _ ⟨validity', rfl⟩
      exact ⟨_, _, _, _, rfl, rfl, h⟩
  | _ => exact Outcome.ensures_stopped

/-- The columns of a struct are finished each on its own, under their names. -/
theorem Writers.find?_finish : {ws : Writers} → {chunks : Chunks} → ws.finish = .ok chunks →
    {name : String} → {i : Nat} → ws.place? name = some i → {column : Writer} →
    ws.get? i = some column → ∃ chunk, column.finish = .ok chunk ∧ chunks.find? name = some chunk
  | .nil, _, _, _, _, hplace, _, _ => nomatch hplace
  | .cons own nullable first rest, chunks, h, name, i, hplace, column, hget => by
    rw [Writers.finish] at h
    cases hfirst : first.finish with
    | error flaw =>
      rw [hfirst] at h
      exact nomatch h
    | ok chunk =>
      rw [hfirst] at h
      cases hrest : rest.finish with
      | error flaw =>
        rw [hrest] at h
        exact nomatch h
      | ok others =>
        rw [hrest] at h
        obtain rfl := Except.ok.inj h
        rw [place?] at hplace
        rw [Chunks.find?]
        by_cases hname : own = name
        · rw [if_pos hname] at hplace ⊢
          obtain rfl := Option.some.inj hplace
          obtain rfl := Option.some.inj hget
          exact ⟨chunk, hfirst, rfl⟩
        · rw [if_neg hname] at hplace ⊢
          obtain ⟨j, hj, rfl⟩ := Option.map_eq_some_iff.1 hplace
          exact find?_finish hrest hj hget

/-- A struct is assembled over the columns that are given. -/
theorem Chunk.exists_of_assembleStruct {rows : Nat} {columns : Chunks} {validity : Option Mask}
    {chunk : Chunk} (h : assembleStruct rows columns validity = .ok chunk) :
    ∃ length mask, chunk = .struct length columns mask := by
  unfold assembleStruct at h
  dsimp only at h
  split at h
  · exact nomatch h
  · cases hcolumns : checkColumns _ validity columns with
    | error flaw =>
      rw [hcolumns] at h
      exact nomatch h
    | ok _ =>
      rw [hcolumns] at h
      exact ⟨_, _, (Except.ok.inj h).symm⟩

namespace FieldTypes

/-- The layout of a record has a field for each of its fields. -/
theorem layoutFields_getElem? : {fields : FieldTypes} → {i : Nat} → {f : RecordField fields.Row} →
    fields.toList[i]? = some f →
    fields.layoutFields.toList[i]? = some (f.name, f.type.layout, f.type.isNullable)
  | .nil, _, _, h => by simp [toList] at h
  | .cons name type rest, 0, _, h => by
    obtain rfl := Option.some.inj h
    rfl
  | .cons name type rest, i + 1, _, h => by
    obtain ⟨f, hf, rfl⟩ := exists_of_getElem?_succ h
    show rest.layoutFields.toList[i]? = some (f.name, f.type.layout, f.type.isNullable)
    exact layoutFields_getElem? hf

/-- The normal form of a record has the normal forms of its values. -/
theorem value_normal : {fields : FieldTypes} → {i : Nat} → {f : RecordField fields.Row} →
    fields.toList[i]? = some f → (row : fields.Row) →
    f.value (fields.normal row) = f.type.normal (f.value row)
  | .nil, _, _, h, _ => by simp [toList] at h
  | .cons name type rest, 0, _, h, (value, row) => by
    obtain rfl := Option.some.inj h
    rfl
  | .cons name type rest, i + 1, _, h, (value, row) => by
    obtain ⟨f, hf, rfl⟩ := exists_of_getElem?_succ h
    exact value_normal hf row

/-- What a row of columns means is what the columns mean that are found by name. -/
theorem exists_find?_of_meaning {columns : Chunks} {k : Nat} : {fields : FieldTypes} →
    {row : fields.Row} → fields.meaning columns k = some row → {i : Nat} →
    {f : RecordField fields.Row} → fields.toList[i]? = some f →
    ∃ column, columns.find? f.name = some column ∧ f.type.meaning column k = some (f.value row)
  | .nil, _, _, _, _, h => by simp [toList] at h
  | .cons name type rest, (value, row), hrow, i, _, h => by
    rw [meaning] at hrow
    cases hfind : columns.find? name with
    | none =>
      rw [hfind] at hrow
      exact nomatch hrow
    | some column =>
      rw [hfind] at hrow
      dsimp only at hrow
      cases hvalue : type.meaning column k with
      | none =>
        rw [hvalue] at hrow
        exact nomatch hrow
      | some found =>
        cases hrest : rest.meaning columns k with
        | none =>
          rw [hvalue, hrest] at hrow
          exact nomatch hrow
        | some others =>
          rw [hvalue, hrest] at hrow
          obtain ⟨rfl, rfl⟩ := Prod.mk.inj (Option.some.inj hrow)
          cases i with
          | zero =>
            obtain rfl := Option.some.inj h
            exact ⟨column, hfind, hvalue⟩
          | succ i =>
            obtain ⟨f, hf, rfl⟩ := exists_of_getElem?_succ h
            exact exists_find?_of_meaning hrest hf

end FieldTypes

/-- A column that was made for values of a type is finished with their meaning: the slot
of a value means its normal form. -/
theorem Column.meaning_of_runs {type : ValueType} {m₀ m₁ : Ledger} {start c : Column}
    {ops : List ColumnOp} (hnew : new type.layout m₀ = (.ok start, m₁)) (hruns : start.Runs ops c)
    {m : Ledger} {chunk : Chunk}
    (hfinish : (c.finish m).1 = .ok chunk) {k : Nat} {value : type.Datum}
    (hslot : (slotsOf type.layout ops)[k]? = some (type.cell value)) :
    type.meaning chunk k = some (type.normal value) := by
  obtain ⟨-, hkeeps⟩ := hruns.keeps hnew
  obtain ⟨hadmitted, hrefused⟩ := hkeeps.finish_eq m
  by_cases hadmits : type.layout.AdmitsAll (slotsOf type.layout ops)
  · obtain rfl := Except.ok.inj (hfinish.symm.trans (hadmitted hadmits))
    obtain ⟨-, progress, writer, -, hwriter⟩ := hkeeps
    have hsound := hwriter.sound_chunk hadmits
    have hfits := type.layout.fits_of_sound hsound (type.layout.dataType_chunk _)
    have hcheck := check_of_new hnew
    have hlt : k < (type.layout.chunk (slotsOf type.layout ops)).length := by
      rw [type.layout.length_chunk]
      exact (List.getElem?_eq_some_iff.1 hslot).1
    rw [type.meaning_eq hcheck hfits hlt, type.layout.cells_chunk, hslot, Option.bind_some,
      type.ofCell_cell]
  · obtain ⟨flaw, hflaw, -⟩ := hrefused hadmits
    exact nomatch hfinish.symm.trans hflaw

/-- What is written of records by place is found by name. -/
structure FieldTypes.FoundByName (title : String) (fields : FieldTypes) : Prop where
  /-- A record is added to structs only, and each value to the column at its place. -/
  placed (row : fields.Row) (w : Writer) (m : Ledger) :
    ((ValueType.record title fields).write row w m).Ensures fun w' =>
      ∃ validity columns validity' columns', w = .struct validity columns ∧
        w' = .struct validity' columns' ∧ fields.Placed row columns columns'
  /-- What becomes of the column at the place is found under the name. -/
  found {w : Writer} {chunk : Chunk} : w.layout = (ValueType.record title fields).layout →
    w.finish = .ok chunk → ∃ validity columns length chunks mask,
      w = .struct validity columns ∧ chunk = .struct length chunks mask ∧
      ∀ (i : Nat) (f : RecordField fields.Row), fields.toList[i]? = some f →
        ∃ column part, columns.get? i = some column ∧ column.finish = .ok part ∧
          chunks.find? f.name = some part
  /-- So a record that was added to a column means there, name by name, the values that
  it has place by place. -/
  means {m₀ m₁ m : Ledger} {start c : Column} {ops : List ColumnOp} {chunk : Chunk} {k : Nat}
    {row : fields.Row} : Column.new (ValueType.record title fields).layout m₀ = (.ok start, m₁) →
    start.Runs ops c → (c.finish m).1 = .ok chunk →
    (Column.slotsOf (ValueType.record title fields).layout ops)[k]? =
      some ((ValueType.record title fields).cell row) →
    ∃ length, ∃ chunks : Chunks, ∃ mask, chunk = .struct length chunks mask ∧
      ∀ (i : Nat) (f : RecordField fields.Row), fields.toList[i]? = some f →
        ∃ part, chunks.find? f.name = some part ∧
          f.type.meaning part k = some (f.type.normal (f.value row))

/-- Where the names of a record differ, its values are found by name. -/
theorem FieldTypes.foundByName (title : String) {fields : FieldTypes}
    (hnames : fields.layoutFields.names.Nodup) : fields.FoundByName title := by
  refine ⟨ValueType.placed_write title fields, ?_, ?_⟩
  · intro w chunk hlayout hfinish
    obtain ⟨validity, columns, rfl, hcolumns⟩ := Writer.exists_of_layout_struct hlayout
    rw [Writer.finish] at hfinish
    cases hparts : columns.finish with
    | error flaw =>
      rw [hparts] at hfinish
      exact nomatch hfinish
    | ok chunks =>
      rw [hparts] at hfinish
      obtain ⟨length, mask, rfl⟩ := Chunk.exists_of_assembleStruct hfinish
      refine ⟨validity, columns, length, chunks, mask, rfl, rfl, fun i f hf => ?_⟩
      have hfield := layoutFields_getElem? hf
      rw [← hcolumns] at hfield hnames
      have hcolumn := columns.layouts_getElem? i
      rw [hfield] at hcolumn
      obtain ⟨column, hget, -⟩ := Option.map_eq_some_iff.1 hcolumn.symm
      obtain ⟨part, hpart, hfind⟩ :=
        Writers.find?_finish hparts (Writers.place?_eq_some hnames hfield) hget
      exact ⟨column, part, hget, hpart, hfind⟩
  · intro m₀ m₁ m start c ops chunk k row hnew hruns hfinish hslot
    have hmeaning := Column.meaning_of_runs hnew hruns hfinish hslot
    cases chunk with
    | struct length chunks mask =>
      refine ⟨length, chunks, mask, rfl, fun i f hf => ?_⟩
      have hrow : fields.meaning chunks k = some (fields.normal row) := by
        rw [ValueType.meaning] at hmeaning
        exact (Option.ite_none_left_eq_some.1 hmeaning).2
      rw [← value_normal hf row]
      exact exists_find?_of_meaning hrow hf
    | _ => exact nomatch hmeaning

/-- **Names and places agree.**  A layout is accepted exactly if no struct in it repeats a
name, otherwise the first repetition is reported, and a column is refused for it before
the ledger is asked for anything.  In whatever becomes of a writer or a column that is
made for an accepted layout, the name of a field leads where its place leads, in all
structs inside.  So the values of a record whose names differ are written by place and
found by name. -/
theorem Layout.names_agree :
    (∀ layout : Layout, layout.Judges) ∧
    (∀ {layout : Layout} {m m' : Ledger} {start w : Writer}
      {steps : List (Step (List Inward × WriterOp) Writer)}, layout.check = .ok () →
      Writer.new layout m = (.ok start, m') → History WriterOp.runAt start steps w →
      w.NamesLead layout) ∧
    (∀ {layout : Layout} {m m' : Ledger} {start c : Column} {events : List ColumnEvent},
      Column.new layout m = (.ok start, m') → start.Lives events c →
      ∀ w ∈ c.writer?, w.NamesLead layout) ∧
    ∀ (title : String) {fields : FieldTypes}, fields.layoutFields.names.Nodup →
      fields.FoundByName title := by
  refine ⟨Layout.judges, ?_, ?_, fun title _ hnames => FieldTypes.foundByName title hnames⟩
  · intro layout m m' start w steps hcheck hnew hhistory
    obtain rfl : w.layout = layout :=
      (WriterOp.layout_of_history hhistory).trans (Writer.layout_new layout hnew)
    exact Writer.namesLead (w.layout.check_eq_ok_iff.1 hcheck)
  · intro layout m m' start c events hnew hlives w hw
    have hcheck := Column.check_of_new hnew
    obtain rfl := Column.writesLayout_of_lives hnew hlives w hw
    exact Writer.namesLead (w.layout.check_eq_ok_iff.1 hcheck)

/-- A number, and flags that may be missing. -/
private def scoreFields : FieldTypes :=
  .cons "id" (.number .uint16) (.cons "flags" (.collection (.option .boolean)) .nil)

/-- Scores of these fields. -/
private def scoreType : ValueType := .record "Score" scoreFields

/-- A score with one flag. -/
private def score : scoreFields.Row := (7#16, .populated [some true], ())

/-- A new writer of scores. -/
private def scoreWriter : Writer :=
  match Writer.new scoreType.layout {} with
  | (.ok w, _) => w
  | (.error _, _) => .struct (.new 0) .nil

/-- A new column of scores. -/
private def scoreColumn : Column :=
  match Column.new scoreType.layout {} with
  | (.ok c, _) => c
  | (.error _, _) => { layout := .boolean, state := .finished }

/-- The columns of the score, each with one slot. -/
private def scoreChunks : Chunks :=
  .cons "id" false (.number .uint16 [7#16] none)
    (.cons "flags" false (.list Layout.itemName true [0, 1] (.boolean [true] none) none) .nil)

/-- A flag is added, a field is not there and a row is not closed: names lead where places
lead still.  They do in a column that the score was added to, and what is found in its
chunk under the name of a field is the value that the score has at the place. -/
theorem Layout.names_agree_scores :
    (leftBy WriterOp.runAt scoreWriter (callsOn {}
      [([.named "flags", .items], .appendBoolean (some true)), ([.field 2], .appendNull),
        ([], .closeRow)])).NamesLead scoreType.layout ∧
    ∃ (c : Column) (w : Writer), scoreColumn.Runs [.append scoreType score] c ∧
      c.writer? = some w ∧ w.NamesLead scoreType.layout ∧
      (c.finish {}).1 = .ok (.struct 1 scoreChunks none) ∧
      ∀ (i : Nat) (f : RecordField scoreFields.Row), scoreFields.toList[i]? = some f →
        ∃ part, scoreChunks.find? f.name = some part ∧
          f.type.meaning part 0 = some (f.type.normal (f.value score)) := by
  obtain ⟨-, hwriters, hcolumns, hrecords⟩ := Layout.names_agree
  have hwriter : Writer.new scoreType.layout {} =
      (.ok scoreWriter, (Writer.new scoreType.layout {}).2) := rfl
  have hcolumn : Column.new scoreType.layout {} =
      (.ok scoreColumn, (Column.new scoreType.layout {}).2) := rfl
  have hruns : scoreColumn.Runs [.append scoreType score]
      ((ColumnOp.append scoreType score).run scoreColumn {}).value :=
    .step (.append scoreType score) {} .here rfl
  have hlives : scoreColumn.Lives _ ((ColumnOp.append scoreType score).run scoreColumn {}).value :=
    .step (.work (.append scoreType score)) {} .here
  have hfinish : (((ColumnOp.append scoreType score).run scoreColumn {}).value.finish {}).1 =
      .ok (.struct 1 scoreChunks none) := rfl
  have hslot : (Column.slotsOf scoreType.layout [.append scoreType score])[0]? =
      some (scoreType.cell score) := rfl
  obtain ⟨length, chunks, mask, hchunk, hfound⟩ :=
    (hrecords "Score" (by decide)).means hcolumn hruns hfinish hslot
  obtain ⟨-, rfl, -⟩ := Chunk.struct.inj hchunk
  exact ⟨hwriters rfl hwriter (history_of_calls _ _), _, _, hruns, rfl,
    hcolumns hcolumn hlives _ rfl, hfinish, hfound⟩

end Columnar
