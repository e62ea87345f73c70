import Columnar.Layout.Cell
import Columnar.Names
import Columnar.Outcome
/-!
# Layouts, datatypes and writers correspond

A layout is read back from its datatype, so layouts with one datatype are the
same.  Going back from an arbitrary datatype succeeds exactly when none of its
nodes is foreign, and only the names of items are lost; otherwise the first
foreign node is named.

A new writer has the layout that it was made for, and no operation changes the
layout of a writer or of one inside it, whether it comes to its end or not.
-/

namespace Columnar

/-- What going back from a datatype may come to: a layout that stands for it but
for the names of items, or the first of its nodes that is foreign. -/
def DataType.Answers (type : DataType) : Except DataType Layout → Prop
  | .ok layout =>
    type.nodes.find? DataType.isForeign = none ∧ layout.toDataType = type.withItemNames
  | .error node => type.nodes.find? DataType.isForeign = some node

/-- What going back from the fields of a struct may come to. -/
def DataFields.Answers (fields : DataFields) : Except DataType LayoutFields → Prop
  | .ok layouts =>
    fields.nodes.find? DataType.isForeign = none ∧ layouts.toDataFields = fields.withItemNames
  | .error node => fields.nodes.find? DataType.isForeign = some node

/-- A foreign node comes before all that is inside it. -/
theorem DataType.answers_of_isForeign {type : DataType} (h : type.isForeign) :
    type.Answers (Layout.ofDataType type) := by
  cases type <;> simp_all [DataType.Answers, Layout.ofDataType, DataType.nodes, DataType.isForeign]

mutual

/-- Going back comes to a layout or to the first foreign node. -/
theorem DataType.answers_ofDataType : (type : DataType) → type.Answers (Layout.ofDataType type)
  | .boolean => ⟨rfl, rfl⟩
  | .number _ => ⟨rfl, rfl⟩
  | .utf8 => ⟨rfl, rfl⟩
  | .binary => ⟨rfl, rfl⟩
  | .list item type nullable => by
    have hsearch : (DataType.list item type nullable).nodes.find? DataType.isForeign =
        type.nodes.find? DataType.isForeign := by
      simp [DataType.nodes, DataType.isForeign]
    have hitem := type.answers_ofDataType
    cases hlayout : Layout.ofDataType type with
    | ok layout =>
      rw [hlayout] at hitem
      obtain ⟨hnone, htype⟩ := hitem
      simp only [Layout.ofDataType, hlayout]
      exact ⟨hsearch.trans hnone, by rw [Layout.toDataType, htype, DataType.withItemNames]⟩
    | error node =>
      rw [hlayout] at hitem
      simp only [Layout.ofDataType, hlayout]
      exact hsearch.trans hitem
  | .struct fields => by
    have hsearch : (DataType.struct fields).nodes.find? DataType.isForeign =
        fields.nodes.find? DataType.isForeign := by
      simp [DataType.nodes, DataType.isForeign]
    have hfields := fields.answers_ofDataFields
    cases hlayouts : LayoutFields.ofDataFields fields with
    | ok layouts =>
      rw [hlayouts] at hfields
      obtain ⟨hnone, htypes⟩ := hfields
      simp only [Layout.ofDataType, hlayouts]
      exact ⟨hsearch.trans hnone, by rw [Layout.toDataType, htypes, DataType.withItemNames]⟩
    | error node =>
      rw [hlayouts] at hfields
      simp only [Layout.ofDataType, hlayouts]
      exact hsearch.trans hfields
  | .foreign _ => DataType.answers_of_isForeign rfl
  | .fixedSizeBinary _ => DataType.answers_of_isForeign rfl
  | .largeList .. => DataType.answers_of_isForeign rfl
  | .fixedSizeList .. => DataType.answers_of_isForeign rfl
  | .dictionary .. => DataType.answers_of_isForeign rfl

/-- The fields are gone through from the left to the right, up to the first one
with a foreign node. -/
theorem DataFields.answers_ofDataFields : (fields : DataFields) →
    fields.Answers (LayoutFields.ofDataFields fields)
  | .nil => ⟨rfl, rfl⟩
  | .cons name type nullable rest => by
    have hsearch : (DataFields.cons name type nullable rest).nodes.find? DataType.isForeign =
        (type.nodes.find? DataType.isForeign).or (rest.nodes.find? DataType.isForeign) := by
      rw [DataFields.nodes, List.find?_append]
    have hfirst := type.answers_ofDataType
    have hrest := rest.answers_ofDataFields
    cases hlayout : Layout.ofDataType type with
    | error node =>
      rw [hlayout] at hfirst
      simp only [LayoutFields.ofDataFields, hlayout]
      exact hsearch.trans (by rw [hfirst, Option.some_or])
    | ok layout =>
      rw [hlayout] at hfirst
      obtain ⟨hnone, htype⟩ := hfirst
      rw [hnone, Option.none_or] at hsearch
      cases hlayouts : LayoutFields.ofDataFields rest with
      | error node =>
        rw [hlayouts] at hrest
        simp only [LayoutFields.ofDataFields, hlayout, hlayouts]
        exact hsearch.trans hrest
      | ok layouts =>
        rw [hlayouts] at hrest
        obtain ⟨hnone, htypes⟩ := hrest
        simp only [LayoutFields.ofDataFields, hlayout, hlayouts]
        exact ⟨hsearch.trans hnone,
          by rw [LayoutFields.toDataFields, htype, htypes, DataFields.withItemNames]⟩

end

/-- Two layouts with the same datatype are the same layout. -/
theorem Layout.toDataType_inj {a b : Layout} (h : a.toDataType = b.toDataType) : a = b := by
  have hok : (.ok a : Except DataType Layout) = .ok b := by
    rw [← Layout.ofDataType_toDataType a, h, Layout.ofDataType_toDataType b]
  exact Except.ok.inj hok

mutual

/-- A writer makes chunks of the datatype of its layout. -/
theorem Writer.dataType_eq : (w : Writer) → w.dataType = w.layout.toDataType
  | .boolean _ | .number .. | .binary _ | .utf8 _ => rfl
  | .list _ nullable child => by
    rw [Writer.dataType, Writer.layout, Layout.toDataType, child.dataType_eq]
  | .struct _ columns => by
    rw [Writer.dataType, Writer.layout, Layout.toDataType, columns.dataFields_eq]

/-- Columns make chunks of the datatypes of their fields. -/
theorem Writers.dataFields_eq : (ws : Writers) → ws.dataFields = ws.layouts.toDataFields
  | .nil => rfl
  | .cons name nullable column rest => by
    rw [Writers.dataFields, Writers.layouts, LayoutFields.toDataFields, column.dataType_eq,
      rest.dataFields_eq]

end

mutual

/-- A new writer has the layout that it was made for. -/
theorem Writer.layout_new : (layout : Layout) → {m m' : Ledger} → {w : Writer} →
    Writer.new layout m = (.ok w, m') → w.layout = layout
  | .boolean, m, m', w, h | .number kind, m, m', w, h | .binary, m, m', w, h
  | .utf8, m, m', w, h => by
    rw [Writer.new] at h
    obtain ⟨leaf, -, rfl⟩ := Made.eq_ok_of_map h
    rfl
  | .list item nullable, m, m', w, h => by
    rw [Writer.new_list] at h
    obtain ⟨child, m₁, hchild, hlist⟩ := Made.eq_ok_of_chain h
    rw [Writer.newList_eq] at hlist
    obtain ⟨slots, m₂, -, hw⟩ := Made.eq_ok_of_chain hlist
    obtain rfl := Made.ok_inj hw
    rw [Writer.layout, Writer.layout_new item hchild]
  | .struct fields, m, m', w, h => by
    rw [Writer.new] at h
    obtain ⟨columns, hcolumns, rfl⟩ := Made.eq_ok_of_map h
    rw [Writer.layout, Writers.layouts_new fields hcolumns]

/-- New columns have the fields that they were made for. -/
theorem Writers.layouts_new : (fields : LayoutFields) → {m m' : Ledger} → {ws : Writers} →
    Writers.new fields m = (.ok ws, m') → ws.layouts = fields
  | .nil, m, m', ws, h => by
    rw [Writers.new] at h
    obtain rfl := Made.ok_inj h
    rfl
  | .cons name layout nullable rest, m, m', ws, h => by
    rw [Writers.new_cons] at h
    obtain ⟨column, m₁, hcolumn, hothers⟩ := Made.eq_ok_of_chain h
    obtain ⟨columns, m₂, hcolumns, hws⟩ := Made.eq_ok_of_chain hothers
    obtain rfl := Made.ok_inj hws
    rw [Writers.layouts, Writer.layout_new layout hcolumn, Writers.layouts_new rest hcolumns]

end

namespace Outcome

variable {σ τ : Type}

/-- A chain leaves what its first operation leaves, or what its second makes of
that. -/
theorem value_andThen (o : Outcome σ) (next : σ → Ledger → Outcome σ) :
    (o.andThen next).value = o.value ∨ (o.andThen next).value = (next o.value o.ledger).value := by
  cases h : o.fault with
  | none => exact .inr (by rw [andThen_of_none h])
  | some fault => exact .inl (by rw [andThen_of_some h])

/-- Of two operations on parts of a whole the second may not have run. -/
theorem value_both {σ' : Type} (whole : σ → σ' → τ) (b : σ') (first : Outcome σ)
    (second : Ledger → Outcome σ') :
    (both whole b first second).value = whole first.value b ∨
      (both whole b first second).value = whole first.value (second first.ledger).value := by
  rw [both_eq_elim]
  cases h : first.fault with
  | none => exact .inr (by rw [elim_of_none h, value_map])
  | some fault => exact .inl (by rw [elim_of_some h, value_stopped])

end Outcome

/-- The operation leaves the layout as it is, however it ends. -/
def KeepsLayout (op : Writer → Ledger → Outcome Writer) : Prop :=
  ∀ w m, (op w m).value.layout = w.layout

mutual

theorem Writer.layout_appendNull : (w : Writer) → (m : Ledger) →
    (w.appendNull m).value.layout = w.layout
  | .boolean _, _ | .number .., _ | .binary _, _ | .utf8 _, _ | .list .., _ => rfl
  | .struct validity columns, m => by
    rw [Writer.appendNull_struct, Writer.layout]
    rcases Outcome.value_both (fun columns validity => Writer.struct validity columns) validity
      (columns.appendNull m) (validity.append false) with hvalue | hvalue <;>
      rw [hvalue, Writer.layout, columns.layouts_appendNull m]

theorem Writers.layouts_appendNull : (ws : Writers) → (m : Ledger) →
    (ws.appendNull m).value.layouts = ws.layouts
  | .nil, _ => rfl
  | .cons name nullable column rest, m => by
    rw [Writers.appendNull_cons, Writers.layouts]
    rcases Outcome.value_both (Writers.cons name nullable) rest (column.appendNull m)
      rest.appendNull with hvalue | hvalue <;>
      rw [hvalue, Writers.layouts, column.layout_appendNull m]
    rw [rest.layouts_appendNull]

end

mutual

theorem Writer.layout_reserve (n : Nat) : (w : Writer) → (m : Ledger) →
    (w.reserve n m).value.layout = w.layout
  | .boolean _, _ | .number .., _ | .binary _, _ | .utf8 _, _ | .list .., _ => rfl
  | .struct validity columns, m => by
    rw [Writer.reserve_struct, Writer.layout]
    rcases Outcome.value_both Writer.struct columns (validity.reserve n m) (columns.reserve n)
      with hvalue | hvalue <;> rw [hvalue, Writer.layout]
    rw [columns.layouts_reserve n]

theorem Writers.layouts_reserve (n : Nat) : (ws : Writers) → (m : Ledger) →
    (ws.reserve n m).value.layouts = ws.layouts
  | .nil, _ => rfl
  | .cons name nullable column rest, m => by
    rw [Writers.reserve_cons, Writers.layouts]
    rcases Outcome.value_both (Writers.cons name nullable) rest (column.reserve n m)
      (rest.reserve n) with hvalue | hvalue <;>
      rw [hvalue, Writers.layouts, column.layout_reserve n m]
    rw [rest.layouts_reserve n]

end

namespace KeepsLayout

theorem andThen {first second : Writer → Ledger → Outcome Writer} (hfirst : KeepsLayout first)
    (hsecond : KeepsLayout second) : KeepsLayout fun w m => (first w m).andThen second := by
  intro w m
  rcases Outcome.value_andThen (first w m) second with hvalue | hvalue
  · exact (congrArg Writer.layout hvalue).trans (hfirst w m)
  · exact (congrArg Writer.layout hvalue).trans ((hsecond _ _).trans (hfirst w m))

theorem foldl {ops : List (Writer → Ledger → Outcome Writer)} (hops : ∀ op ∈ ops, KeepsLayout op)
    (o : Outcome Writer) :
    (ops.foldl (fun o op => o.andThen op) o).value.layout = o.value.layout := by
  induction ops generalizing o with
  | nil => rfl
  | cons op ops ih =>
    have hop := hops op List.mem_cons_self
    rw [List.foldl_cons, ih (fun other hother => hops other (List.mem_cons_of_mem op hother))]
    rcases Outcome.value_andThen o op with hvalue | hvalue
    · rw [hvalue]
    · rw [hvalue, hop]

end KeepsLayout

namespace Writer

theorem keepsLayout_appendBoolean (value : Option Bool) : KeepsLayout (appendBoolean value) := by
  intro w m
  cases w <;> rfl

theorem keepsLayout_appendNumber (kind : NumberType) (value : Option kind.Carrier) :
    KeepsLayout (appendNumber kind value) := by
  intro w m
  cases w with
  | number kind' leaf =>
    rw [appendNumber]
    split <;> rfl
  | _ => rfl

theorem keepsLayout_appendNumbers (kind : NumberType) (values : List kind.Carrier) :
    KeepsLayout (appendNumbers kind values) := by
  intro w m
  cases w with
  | number kind' leaf =>
    rw [appendNumbers]
    split <;> rfl
  | _ => rfl

theorem keepsLayout_appendBytes (value : Option (List UInt8)) :
    KeepsLayout (appendBytes value) := by
  intro w m
  cases w <;> rfl

theorem keepsLayout_appendText (value : Option String) : KeepsLayout (appendText value) := by
  intro w m
  cases w <;> rfl

theorem keepsLayout_reserveBytes (n : Nat) : KeepsLayout (reserveBytes n) := by
  intro w m
  cases w <;> rfl

theorem keepsLayout_reserveText (n : Nat) : KeepsLayout (reserveText n) := by
  intro w m
  cases w <;> rfl

theorem keepsLayout_closeList : KeepsLayout closeList := by
  intro w m
  cases w <;> rfl

theorem keepsLayout_appendAbsent : KeepsLayout appendAbsent := by
  intro w m
  cases w <;> rfl

theorem keepsLayout_closeRow : KeepsLayout closeRow := by
  intro w m
  cases w with
  | struct validity columns =>
    rw [closeRow_struct]
    split
    · rfl
    · split <;> rfl
  | _ => rfl

section Inside

variable {op : Writer → Ledger → Outcome Writer}

theorem keepsLayout_onItems (hop : KeepsLayout op) : KeepsLayout (onItems op) := by
  intro w m
  cases w with
  | list slots nullable child =>
    rw [onItems, Outcome.value_map, layout, layout, hop child m]
  | _ => rfl

theorem keepsLayout_appendList {items : List (Writer → Ledger → Outcome Writer)}
    (hitems : ∀ item ∈ items, KeepsLayout item) : KeepsLayout (appendList items) := by
  refine KeepsLayout.andThen (keepsLayout_onItems fun child m => ?_) keepsLayout_closeList
  exact KeepsLayout.foldl hitems (.done child m)

/-- An operation on the column at a place leaves the fields as they are. -/
theorem layouts_onPlace (hop : KeepsLayout op) (i : Nat) (ws : Writers) (m : Ledger) :
    ∀ o ∈ ws.onPlace? op i m, o.value.layouts = ws.layouts := by
  induction i generalizing ws with
  | zero =>
    intro o ho
    cases ws with
    | nil => simp [Writers.onPlace?] at ho
    | cons name nullable column rest =>
      obtain rfl := Option.some.inj ho
      rw [Outcome.value_map, Writers.layouts, Writers.layouts, hop column m]
  | succ i ih =>
    intro o ho
    cases ws with
    | nil => simp [Writers.onPlace?] at ho
    | cons name nullable column rest =>
      obtain ⟨others, hothers, rfl⟩ := Option.map_eq_some_iff.1 ho
      rw [Outcome.value_map, Writers.layouts, Writers.layouts, ih rest others hothers]

theorem keepsLayout_onField (hop : KeepsLayout op) (i : Nat) : KeepsLayout (onField i op) := by
  intro w m
  cases w with
  | struct validity columns =>
    rw [onField]
    cases hcolumns : columns.onPlace? op i m with
    | none => rfl
    | some o => exact congrArg Layout.struct (layouts_onPlace hop i columns m o hcolumns)
  | _ => rfl

theorem keepsLayout_onFieldNamed (hop : KeepsLayout op) (name : String) :
    KeepsLayout (onFieldNamed name op) := by
  intro w m
  cases w with
  | struct validity columns =>
    rw [onFieldNamed]
    cases columns.place? name with
    | none => rfl
    | some i => exact keepsLayout_onField hop i (.struct validity columns) m
  | _ => rfl

/-- An operation inside a writer leaves the layout of the whole as it is. -/
theorem keepsLayout_inside (hop : KeepsLayout op) (way : List Inward) :
    KeepsLayout (Writer.inside op way) := by
  induction way with
  | nil => exact hop
  | cons inward way ih =>
    cases inward with
    | items => exact keepsLayout_onItems ih
    | field i => exact keepsLayout_onField ih i
    | named name => exact keepsLayout_onFieldNamed ih name

end Inside

end Writer

mutual

/-- Adding a value of any type leaves the layout as it is. -/
theorem ValueType.keepsLayout_write : (type : ValueType) → (value : type.Datum) →
    KeepsLayout (type.write value)
  | .boolean, (value : Bool) => Writer.keepsLayout_appendBoolean (some value)
  | .number kind, (value : kind.Carrier) => Writer.keepsLayout_appendNumber kind (some value)
  | .text, (value : String) => Writer.keepsLayout_appendText (some value)
  | .bytes, (value : List UInt8) => Writer.keepsLayout_appendBytes (some value)
  | .option _, none => fun w m => by rw [ValueType.write, w.layout_appendNull m]
  | .option type, some value => fun w m => by rw [ValueType.write, type.keepsLayout_write value]
  | .collection _, .unset => fun w m => by rw [ValueType.write, Writer.keepsLayout_appendAbsent]
  | .collection _, .empty => fun w m => by rw [ValueType.write, Writer.keepsLayout_closeList]
  | .collection type, .populated items => fun w m => by
    rw [ValueType.write]
    refine Writer.keepsLayout_appendList (fun op hop => ?_) w m
    obtain ⟨item, -, rfl⟩ := List.mem_map.1 hop
    exact type.keepsLayout_write item
  | .record _ fields, row => fun w m => by
    cases w with
    | struct validity columns =>
      simp only [ValueType.write]
      have hcolumns := fields.layouts_write row 0 columns.count columns m
      rcases Outcome.value_andThen ((fields.write row 0 columns.count columns m).map
        (Writer.struct validity)) Writer.closeRow with hvalue | hvalue <;> rw [hvalue]
      · exact congrArg Layout.struct hcolumns
      · rw [Writer.keepsLayout_closeRow]
        exact congrArg Layout.struct hcolumns
    | _ => rfl
  | .named _ type, value => fun w m => by rw [ValueType.write, type.keepsLayout_write value]

/-- Adding the values of a record leaves the fields of the columns as they are. -/
theorem FieldTypes.layouts_write : (fields : FieldTypes) → (row : fields.Row) → (i count : Nat) →
    (ws : Writers) → (m : Ledger) → (fields.write row i count ws m).value.layouts = ws.layouts
  | .nil, _, _, _, _, _ => rfl
  | .cons .., _, _, _, .nil, _ => rfl
  | .cons _ type rest, (value, row), i, count, .cons name nullable column columns, m => by
    rw [FieldTypes.write_cons, Writers.layouts]
    rcases Outcome.value_both (Writers.cons name nullable) columns (type.write value column m)
      (rest.write row (i + 1) count columns) with hvalue | hvalue <;>
      rw [hvalue, Writers.layouts, type.keepsLayout_write value column m]
    rw [rest.layouts_write row (i + 1) count columns]

end

namespace WriterOp

/-- Whatever is done to a writer, its layout stays. -/
theorem keepsLayout_run (op : WriterOp) : KeepsLayout op.run := by
  cases op with
  | reserve n => exact Writer.layout_reserve n
  | reserveBytes n => exact Writer.keepsLayout_reserveBytes n
  | reserveText n => exact Writer.keepsLayout_reserveText n
  | appendNull => exact Writer.layout_appendNull
  | appendBoolean value => exact Writer.keepsLayout_appendBoolean value
  | appendNumber kind value => exact Writer.keepsLayout_appendNumber kind value
  | appendNumbers kind values => exact Writer.keepsLayout_appendNumbers kind values
  | appendBytes value => exact Writer.keepsLayout_appendBytes value
  | appendText value => exact Writer.keepsLayout_appendText value
  | append type value => exact type.keepsLayout_write value
  | appendAbsent => exact Writer.keepsLayout_appendAbsent
  | closeList => exact Writer.keepsLayout_closeList
  | appendList type items =>
    refine Writer.keepsLayout_appendList fun op hop => ?_
    obtain ⟨item, -, rfl⟩ := List.mem_map.1 hop
    exact type.keepsLayout_write item
  | closeRow => exact Writer.keepsLayout_closeRow

/-- A whole history of operations leaves the layout as it was. -/
theorem layout_of_history {w w' : Writer} {steps : List (Step (List Inward × WriterOp) Writer)}
    (h : History runAt w steps w') : w'.layout = w.layout := by
  induction h with
  | here => rfl
  | step call m _ ih => exact (Writer.keepsLayout_inside call.2.keepsLayout_run call.1 _ m).trans ih

end WriterOp

/-- The field at a place has the layout of the column there. -/
theorem Writers.layouts_getElem? (ws : Writers) (i : Nat) :
    ws.layouts.toList[i]?.map (·.2.1) = (ws.get? i).map Writer.layout := by
  induction i generalizing ws with
  | zero => cases ws <;> rfl
  | succ i ih =>
    cases ws with
    | nil => rfl
    | cons name nullable column rest => exact ih rest

/-- The first field of a name has the layout of the column at its place. -/
theorem Writers.layouts_find? (name : String) : (ws : Writers) →
    (ws.layouts.toList.find? fun (own, _) => own == name).map (·.2.1) =
      ((ws.place? name).bind fun i => ws.get? i).map Writer.layout
  | .nil => rfl
  | .cons own nullable column rest => by
    have hrest := rest.layouts_find? name
    rw [Writers.layouts, LayoutFields.toList, Writers.place?]
    by_cases hname : own = name
    · simp [hname, Writers.get?]
    · rw [List.find?_cons_of_neg (by simpa using hname), hrest, if_neg hname]
      cases rest.place? name <;> rfl

/-- Every way inside leads to a writer of the layout that the same way leads to. -/
theorem Writer.layout_find (way : List Inward) (w : Writer) :
    (w.find way).toOption.map Writer.layout = w.layout.inside way := by
  induction way generalizing w with
  | nil => rfl
  | cons inward way ih =>
    -- Behind a field the way goes on in the column that the field belongs to.
    have hgo : ∀ {field : Option (String × Layout × Bool)} {column : Option Writer},
        field.map (·.2.1) = column.map Writer.layout →
        (field.bind fun found => found.2.1.inside way) =
          column.bind fun column => (column.find way).toOption.map Writer.layout := by
      intro field column h
      cases field <;> cases column <;> simp_all
    cases inward with
    | items =>
      cases w with
      | list slots nullable child => exact ih child
      | _ => rfl
    | field i =>
      cases w with
      | struct validity columns =>
        rw [Writer.find, Writer.layout, Layout.inside]
        refine Eq.trans ?_ (hgo (columns.layouts_getElem? i)).symm
        cases columns.get? i <;> rfl
      | _ => rfl
    | named name =>
      cases w with
      | struct validity columns =>
        rw [Writer.find, Writer.layout, Layout.inside]
        refine Eq.trans ?_ (hgo (columns.layouts_find? name)).symm
        cases (columns.place? name).bind fun i => columns.get? i <;> rfl
      | _ => rfl

/-- What going back from a datatype to a layout comes to. -/
structure DataType.Settles (type : DataType) : Prop where
  /-- There is a layout exactly when the library writes all nodes. -/
  ok_iff : (∃ layout, Layout.ofDataType? type = .ok layout) ↔
    ∀ node ∈ type.nodes, node.isForeign = false
  /-- Without a layout, the first node that the library does not write is named. -/
  error_iff (fault : Fault) : Layout.ofDataType? type = .error fault ↔
    ∃ node, type.nodes.find? DataType.isForeign = some node ∧
      fault = .invalidArgument (.unsupportedType node)
  /-- Only names of items are lost on the way to the layout and back. -/
  toDataType_eq (layout : Layout) : Layout.ofDataType? type = .ok layout →
    layout.toDataType = type.withItemNames
  /-- A layout that is read from a datatype matches just the datatype that it has itself. -/
  matches_iff (layout : Layout) : Layout.ofDataType? type = .ok layout →
    ∀ other, layout.matches other = true ↔ other = layout.toDataType

/-- The writer makes chunks of the datatype of the layout, and so does every writer
inside it for the layout inside that it stands for. -/
structure Writer.IsOf (layout : Layout) (w : Writer) : Prop where
  dataType_eq : w.dataType = layout.toDataType
  inside (way : List Inward) :
    (w.find way).toOption.map Writer.dataType = (layout.inside way).map Layout.toDataType

/-- A writer is one of the layout that is read off it, in all its parts. -/
theorem Writer.isOf_layout (w : Writer) : w.IsOf w.layout where
  dataType_eq := w.dataType_eq
  inside way := by
    have hdataType : Writer.dataType = Layout.toDataType ∘ Writer.layout :=
      funext Writer.dataType_eq
    rw [hdataType, ← Option.map_map, w.layout_find way]

/-- Every datatype is settled. -/
theorem DataType.settles (type : DataType) : type.Settles := by
  have hanswers := type.answers_ofDataType
  cases hresult : Layout.ofDataType type with
  | ok layout =>
    rw [hresult] at hanswers
    obtain ⟨hnone, htype⟩ := hanswers
    have hok : Layout.ofDataType? type = .ok layout := by rw [Layout.ofDataType?, hresult]
    have hnodes : ∀ node ∈ type.nodes, node.isForeign = false := by
      simpa using hnone
    constructor
    · exact ⟨fun _ => hnodes, fun _ => ⟨layout, hok⟩⟩
    · intro fault
      simp [hok, hnone]
    · intro other hother
      obtain rfl := Except.ok.inj (hok.symm.trans hother)
      exact htype
    · intro other _ type'
      rw [Layout.matches, decide_eq_true_iff]
      exact eq_comm
  | error node =>
    rw [hresult] at hanswers
    have herror : Layout.ofDataType? type = .error (.invalidArgument (.unsupportedType node)) := by
      rw [Layout.ofDataType?, hresult]
    have hfirst : type.nodes.find? DataType.isForeign = some node := hanswers
    constructor
    · constructor
      · rintro ⟨layout, hlayout⟩
        exact nomatch herror.symm.trans hlayout
      · intro hnodes
        have hforeign := List.find?_some hfirst
        rw [hnodes node (List.mem_of_find?_eq_some hfirst)] at hforeign
        exact nomatch hforeign
    · intro fault
      simp [herror, hfirst, eq_comm]
    · intro layout hlayout
      exact nomatch herror.symm.trans hlayout
    · intro layout hlayout
      exact nomatch herror.symm.trans hlayout

/-- **Layouts, datatypes and writers correspond.**  A layout is read back from its
datatype, which is therefore that of no other layout, and going back from any
datatype settles it.  A new writer for a layout is one of that layout in all its
parts, and remains one whatever is done to it or to the writers inside it. -/
theorem Layout.corresponds :
    (∀ layout : Layout, Layout.ofDataType? layout.toDataType = .ok layout) ∧
    (∀ a b : Layout, a.toDataType = b.toDataType → a = b) ∧
    (∀ type : DataType, type.Settles) ∧
    ∀ {layout : Layout} {m m' : Ledger} {start w : Writer}
      {steps : List (Step (List Inward × WriterOp) Writer)},
      Writer.new layout m = (.ok start, m') → History WriterOp.runAt start steps w →
      w.IsOf layout := by
  refine ⟨fun layout => ?_, fun _ _ => Layout.toDataType_inj, DataType.settles, ?_⟩
  · rw [Layout.ofDataType?, layout.ofDataType_toDataType]
  · intro layout m m' start w steps hnew hhistory
    have hlayout : w.layout = layout :=
      (WriterOp.layout_of_history hhistory).trans (Writer.layout_new layout hnew)
    exact hlayout ▸ w.isOf_layout

/-- Rows of a number and of tags, which may be missing. -/
private def tagged : Layout :=
  .struct (.cons "id" (.number .uint16) false (.cons "tags" (.list .utf8 true) true .nil))

/-- A new writer of such rows. -/
private def taggedRows : Writer :=
  match Writer.new tagged {} with
  | (.ok w, _) => w
  | (.error _, _) => .struct (.new 0) .nil

/-- A tag is added, then a row is not closed, a text is no number and a field is not
there.  The writer is one of its layout still. -/
theorem Layout.corresponds_tagged :
    (∃ m', Writer.new tagged {} = (.ok taggedRows, m')) ∧
      (leftBy WriterOp.runAt taggedRows (callsOn {}
        [([.named "tags", .items], .appendText (some "a")), ([], .closeRow),
          ([.field 0], .appendText none), ([.field 2], .appendNull)])).IsOf tagged := by
  have hnew : Writer.new tagged {} = (.ok taggedRows, (Writer.new tagged {}).2) := rfl
  exact ⟨⟨_, hnew⟩, Layout.corresponds.2.2.2 hnew (history_of_calls _ _)⟩

/-- The first list is gone through before the union behind it is found. -/
example : Layout.ofDataType? (.struct (.cons "a" (.list "entry" .utf8 true) false
    (.cons "b" (.list "item" (.foreign (.other "Union([], Sparse)")) false) false .nil))) =
      .error (.invalidArgument (.unsupportedType (.foreign (.other "Union([], Sparse)")))) :=
  rfl

end Columnar
