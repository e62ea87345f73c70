import Mathlib.Data.List.Induction
import Mathlib.Logic.Basic
import Columnar.Proofs.Agreement
/-!
# Reserving never shows

Writers that are alike stay alike through the same additions, whatever memory
was asked for in between, and they are finished alike.  So two columns for one
layout that take the same additions end in the same chunk: it does not matter
where memory was reserved, how many items per list were guessed, or how much
the ledgers had to lend.
-/

namespace Columnar

mutual

/-- The writer with its content alone, as if no memory had ever been granted for more. -/
def Writer.bare : Writer → Writer
  | .boolean leaf => .boolean (Bare.bare leaf)
  | .number kind leaf => .number kind (Bare.bare leaf)
  | .binary leaf => .binary (Bare.bare leaf)
  | .utf8 leaf => .utf8 (Bare.bare leaf)
  | .list slots nullable child => .list (Bare.bare slots) nullable child.bare
  | .struct validity columns => .struct (Bare.bare validity) columns.bare

/-- The columns without their memory. -/
def Writers.bare : Writers → Writers
  | .nil => .nil
  | .cons name nullable column rest => .cons name nullable column.bare rest.bare

end

instance : Bare Writer := ⟨Writer.bare⟩

instance : Bare Writers := ⟨Writers.bare⟩

/-- Alike writers are of one kind and have alike parts. -/
inductive Writer.Pair : Writer → Writer → Prop where
  | boolean {leaf leaf' : BooleanWriter} : leaf ≈ leaf' → Pair (.boolean leaf) (.boolean leaf')
  | number (kind : NumberType) {leaf leaf' : NumberWriter kind} : leaf ≈ leaf' →
      Pair (.number kind leaf) (.number kind leaf')
  | binary {leaf leaf' : BytesWriter} : leaf ≈ leaf' → Pair (.binary leaf) (.binary leaf')
  | utf8 {leaf leaf' : BytesWriter} : leaf ≈ leaf' → Pair (.utf8 leaf) (.utf8 leaf')
  | list {slots slots' : Slots} (nullable : Bool) {child child' : Writer} : slots ≈ slots' →
      child ≈ child' → Pair (.list slots nullable child) (.list slots' nullable child')
  | struct {validity validity' : Validity} {columns columns' : Writers} : validity ≈ validity' →
      columns ≈ columns' → Pair (.struct validity columns) (.struct validity' columns')

theorem Writer.Pair.alike {v w : Writer} : Writer.Pair v w → v ≈ w
  | .boolean h => congrArg Writer.boolean h
  | .number kind h => congrArg (Writer.number kind) h
  | .binary h => congrArg Writer.binary h
  | .utf8 h => congrArg Writer.utf8 h
  | .list nullable h hchild => congrArg₂ (Writer.list · nullable) h hchild
  | .struct h hcolumns => congrArg₂ Writer.struct h hcolumns

theorem Writer.pair_of_alike {v w : Writer} (h : v ≈ w) : Pair v w := by
  replace h : v.bare = w.bare := h
  cases v <;> cases w <;> simp only [Writer.bare, reduceCtorEq] at h
  case boolean.boolean => exact .boolean (Writer.boolean.inj h)
  case number.number kind leaf kind' leaf' =>
    obtain ⟨rfl, hleaf⟩ := Writer.number.inj h
    exact .number kind (eq_of_heq hleaf)
  case binary.binary => exact .binary (Writer.binary.inj h)
  case utf8.utf8 => exact .utf8 (Writer.utf8.inj h)
  case list.list =>
    obtain ⟨hslots, rfl, hchild⟩ := Writer.list.inj h
    exact .list _ hslots hchild
  case struct.struct =>
    obtain ⟨hvalidity, hcolumns⟩ := Writer.struct.inj h
    exact .struct hvalidity hcolumns

/-- Alike columns have the same names and alike writers. -/
inductive Writers.Pair : Writers → Writers → Prop where
  | nil : Pair .nil .nil
  | cons (name : String) (nullable : Bool) {column column' : Writer} {rest rest' : Writers} :
      column ≈ column' → rest ≈ rest' →
      Pair (.cons name nullable column rest) (.cons name nullable column' rest')

theorem Writers.Pair.alike {v w : Writers} : Pair v w → v ≈ w
  | .nil => rfl
  | .cons name nullable h hrest => congrArg₂ (Writers.cons name nullable) h hrest

theorem Writers.pair_of_alike {v w : Writers} (h : v ≈ w) : Pair v w := by
  replace h : v.bare = w.bare := h
  cases v <;> cases w <;> simp only [Writers.bare, reduceCtorEq] at h
  case nil.nil => exact .nil
  case cons.cons =>
    obtain ⟨rfl, rfl, hcolumn, hrest⟩ := Writers.cons.inj h
    exact .cons _ _ hcolumn hrest

mutual

/-- Adding a null to writers with the same content leaves the same content in both, if both succeed.
-/
theorem Writer.agree_appendNull : (v w : Writer) → v ≈ w → (m₁ m₂ : Ledger) →
    (v.appendNull m₁).Agree (w.appendNull m₂)
  | .boolean leaf, w, h, m₁, m₂ => by
    cases Writer.pair_of_alike h with
    | boolean hleaf =>
      exact (BooleanWriter.steady_append none leaf _ hleaf m₁ m₂).map fun _ _ h =>
        Writer.Pair.alike (.boolean h)
  | .number kind leaf, w, h, m₁, m₂ => by
    cases Writer.pair_of_alike h with
    | number _ hleaf =>
      exact (NumberWriter.steady_append none leaf _ hleaf m₁ m₂).map fun _ _ h =>
        Writer.Pair.alike (.number kind h)
  | .binary leaf, w, h, m₁, m₂ => by
    cases Writer.pair_of_alike h with
    | binary hleaf =>
      exact (BytesWriter.steady_append none leaf _ hleaf m₁ m₂).map fun _ _ h =>
        Writer.Pair.alike (.binary h)
  | .utf8 leaf, w, h, m₁, m₂ => by
    cases Writer.pair_of_alike h with
    | utf8 hleaf =>
      exact (BytesWriter.steady_append none leaf _ hleaf m₁ m₂).map fun _ _ h =>
        Writer.Pair.alike (.utf8 h)
  | .list slots nullable child, w, h, m₁, m₂ => by
    cases Writer.pair_of_alike h with
    | list _ hslots hchild =>
      exact (Slots.steady_closeEmpty false slots _ hslots m₁ m₂).map fun _ _ h =>
        Writer.Pair.alike (.list nullable h hchild)
  | .struct validity columns, w, h, m₁, m₂ => by
    cases Writer.pair_of_alike h with
    | struct hvalidity hcolumns =>
      rw [Writer.appendNull_struct, Writer.appendNull_struct]
      exact (Writers.agree_appendNull columns _ hcolumns m₁ m₂).both
        (Validity.steady_append false validity _ hvalidity)
        fun _ _ _ _ hcolumns h => Writer.Pair.alike (.struct h hcolumns)

/-- Adding a null row to columns with the same content leaves the same content in both, if both
succeed. -/
theorem Writers.agree_appendNull : (v w : Writers) → v ≈ w → (m₁ m₂ : Ledger) →
    (v.appendNull m₁).Agree (w.appendNull m₂)
  | .nil, w, h, m₁, m₂ => by
    cases Writers.pair_of_alike h with
    | nil => exact Outcome.agree_done h
  | .cons name nullable column rest, w, h, m₁, m₂ => by
    cases Writers.pair_of_alike h with
    | cons _ _ hcolumn hrest =>
      rw [Writers.appendNull_cons, Writers.appendNull_cons]
      exact (Writer.agree_appendNull column _ hcolumn m₁ m₂).both
        (Writers.agree_appendNull rest _ hrest)
        fun _ _ _ _ h hrest => Writers.Pair.alike (.cons name nullable h hrest)

end

mutual

/-- Reserving leaves the content of a writer as it was, so it does nothing but ask for memory. -/
theorem Writer.alike_reserve (n : Nat) : (w : Writer) → (m : Ledger) → (w.reserve n m).value ≈ w
  | .boolean leaf, m => Writer.Pair.alike (.boolean (BooleanWriter.idle_reserve n leaf m))
  | .number kind leaf, m => Writer.Pair.alike (.number kind (NumberWriter.idle_reserve n leaf m))
  | .binary leaf, m => Writer.Pair.alike (.binary (BytesWriter.idle_reserve n leaf m))
  | .utf8 leaf, m => Writer.Pair.alike (.utf8 (BytesWriter.idle_reserve n leaf m))
  | .list slots nullable child, m =>
    Writer.Pair.alike (.list nullable (Slots.idle_reserve n slots m) (Setoid.refl child))
  | .struct validity columns, m => by
    rw [Writer.reserve_struct]
    exact Outcome.alike_both (Validity.idle_reserve n validity m) (Writers.alike_reserve n columns)
      fun _ _ _ _ hvalidity hcolumns => Writer.Pair.alike (.struct hvalidity hcolumns)

/-- Reserving leaves the content of a writer as it was, so it does nothing but ask for memory. -/
theorem Writers.alike_reserve (n : Nat) : (w : Writers) → (m : Ledger) →
    (w.reserve n m).value ≈ w
  | .nil, m => Setoid.refl Writers.nil
  | .cons name nullable column rest, m => by
    rw [Writers.reserve_cons]
    exact Outcome.alike_both (Writer.alike_reserve n column m) (Writers.alike_reserve n rest)
      fun _ _ _ _ hcolumn hrest => Writers.Pair.alike (.cons name nullable hcolumn hrest)

end

mutual

/-- Writers with the same content take equally many bytes. -/
theorem Writer.byteLength_eq : (v w : Writer) → v ≈ w → v.byteLength = w.byteLength
  | .boolean leaf, w, h => by
    cases Writer.pair_of_alike h with
    | boolean hleaf => exact BooleanWriter.byteLength_eq hleaf
  | .number kind leaf, w, h => by
    cases Writer.pair_of_alike h with
    | number _ hleaf => exact NumberWriter.byteLength_eq hleaf
  | .binary leaf, w, h => by
    cases Writer.pair_of_alike h with
    | binary hleaf => exact BytesWriter.byteLength_eq hleaf
  | .utf8 leaf, w, h => by
    cases Writer.pair_of_alike h with
    | utf8 hleaf => exact BytesWriter.byteLength_eq hleaf
  | .list slots nullable child, w, h => by
    cases Writer.pair_of_alike h with
    | list _ hslots hchild =>
      exact congrArg₂ (· + ·) (Slots.byteLength_eq hslots) (Writer.byteLength_eq child _ hchild)
  | .struct validity columns, w, h => by
    cases Writer.pair_of_alike h with
    | struct hvalidity hcolumns =>
      exact congrArg₂ (· + ·) (Validity.byteLength_eq hvalidity)
        (Writers.byteLength_eq columns _ hcolumns)

/-- Columns with the same content take equally many bytes. -/
theorem Writers.byteLength_eq : (v w : Writers) → v ≈ w → v.byteLength = w.byteLength
  | .nil, w, h => by
    cases Writers.pair_of_alike h with
    | nil => rfl
  | .cons name nullable column rest, w, h => by
    cases Writers.pair_of_alike h with
    | cons _ _ hcolumn hrest =>
      exact congrArg₂ (· + ·) (Writer.byteLength_eq column _ hcolumn)
        (Writers.byteLength_eq rest _ hrest)

end

namespace Writer

theorem steady_appendNull : Steady appendNull := agree_appendNull

theorem idle_reserve (n : Nat) : Idle (reserve n) := alike_reserve n

/-- Writers with the same content have equally many slots. -/
theorem length_eq {v w : Writer} (h : v ≈ w) : v.length = w.length := by
  cases pair_of_alike h with
  | boolean hleaf => exact Validity.length_eq ((BooleanWriter.separates_split _ _).1 hleaf).2
  | number _ hleaf => exact Validity.length_eq ((NumberWriter.separates_split _ _).1 hleaf).2
  | binary hleaf => exact Slots.length_eq ((BytesWriter.separates_split _ _).1 hleaf).1
  | utf8 hleaf => exact Slots.length_eq ((BytesWriter.separates_split _ _).1 hleaf).1
  | list _ hslots _ => exact Slots.length_eq hslots
  | struct hvalidity _ => exact Validity.length_eq hvalidity

theorem steady_appendBoolean (value : Option Bool) : Steady (appendBoolean value) := by
  intro v w h m₁ m₂
  cases pair_of_alike h with
  | boolean hleaf =>
    exact (BooleanWriter.steady_append value _ _ hleaf m₁ m₂).map fun _ _ h =>
      Pair.alike (.boolean h)
  | _ => exact Outcome.agree_stopped

theorem steady_appendNumber (kind : NumberType) (value : Option kind.Carrier) :
    Steady (appendNumber kind value) := by
  intro v w h m₁ m₂
  cases pair_of_alike h with
  | number kind' hleaf =>
    by_cases hsame : kind = kind'
    · subst hsame
      simp only [appendNumber, dite_true]
      exact (NumberWriter.steady_append value _ _ hleaf m₁ m₂).map fun _ _ h =>
        Pair.alike (.number kind h)
    · simp only [appendNumber, dif_neg hsame]
      exact Outcome.agree_stopped
  | _ => exact Outcome.agree_stopped

theorem steady_appendBytes (value : Option (List UInt8)) : Steady (appendBytes value) := by
  intro v w h m₁ m₂
  cases pair_of_alike h with
  | binary hleaf =>
    exact (BytesWriter.steady_append value _ _ hleaf m₁ m₂).map fun _ _ h =>
      Pair.alike (.binary h)
  | _ => exact Outcome.agree_stopped

theorem steady_appendText (value : Option String) : Steady (appendText value) := by
  intro v w h m₁ m₂
  cases pair_of_alike h with
  | utf8 hleaf =>
    exact (BytesWriter.steady_append _ _ _ hleaf m₁ m₂).map fun _ _ h => Pair.alike (.utf8 h)
  | _ => exact Outcome.agree_stopped

theorem steady_appendAbsent : Steady appendAbsent := by
  intro v w h m₁ m₂
  cases pair_of_alike h with
  | list nullable hslots hchild =>
    exact (Slots.steady_closeEmpty true _ _ hslots m₁ m₂).map fun _ _ h =>
      Pair.alike (.list nullable h hchild)
  | _ => exact Outcome.agree_stopped

theorem steady_closeList : Steady closeList := by
  intro v w h m₁ m₂
  cases pair_of_alike h with
  | list nullable hslots hchild =>
    dsimp only [closeList]
    rw [length_eq hchild]
    exact (Slots.steady_close _ true _ _ hslots m₁ m₂).map fun _ _ h =>
      Pair.alike (.list nullable h hchild)
  | _ => exact Outcome.agree_stopped

theorem steady_closeRow : Steady closeRow := by
  intro v w h m₁ m₂
  cases pair_of_alike h with
  | struct hvalidity hcolumns =>
    dsimp only [closeRow]
    rw [Validity.length_eq hvalidity]
    cases Size.add? _ 1 with
    | none => exact Outcome.agree_stopped
    | some rows =>
      dsimp only
      split
      · exact Outcome.agree_stopped
      · split
        · exact fun _ h => nomatch h
        · exact (Validity.steady_append true _ _ hvalidity m₁ m₂).map fun _ _ h =>
            Pair.alike (.struct h hcolumns)
  | _ => exact Outcome.agree_stopped

theorem steady_onItems {op : Writer → Ledger → Outcome Writer} (hop : Steady op) :
    Steady (onItems op) := by
  intro v w h m₁ m₂
  cases pair_of_alike h with
  | list nullable hslots hchild =>
    exact (hop _ _ hchild m₁ m₂).map fun _ _ h => Pair.alike (.list nullable hslots h)
  | _ => exact Outcome.agree_stopped

theorem idle_onItems {op : Writer → Ledger → Outcome Writer} (hop : Idle op) :
    Idle (onItems op) := by
  intro w m
  cases w with
  | list slots nullable child =>
    exact Pair.alike (.list nullable (Setoid.refl slots) (hop child m))
  | _ => exact Setoid.refl _

theorem steady_appendList {items : List (Writer → Ledger → Outcome Writer)}
    (hitems : ∀ item ∈ items, Steady item) : Steady (appendList items) := by
  have hall : Steady fun child m => items.foldl (fun o op => o.andThen op) (.done child m) :=
    fun _ _ h _ _ => Steady.foldl hitems (Outcome.agree_done h)
  exact (steady_onItems hall).andThen steady_closeList

end Writer

mutual

/-- Adding a value to writers with the same content leaves the same content in both, if both
succeed. -/
theorem ValueType.steady_write : (type : ValueType) → (value : type.Datum) →
    Steady (type.write value)
  | .boolean, (value : Bool) => Writer.steady_appendBoolean (some value)
  | .number kind, (value : kind.Carrier) => Writer.steady_appendNumber kind (some value)
  | .text, (value : String) => Writer.steady_appendText (some value)
  | .bytes, (value : List UInt8) => Writer.steady_appendBytes (some value)
  | .option _, none => Writer.steady_appendNull
  | .option type, some value => type.steady_write value
  | .collection _, .unset => Writer.steady_appendAbsent
  | .collection _, .empty => Writer.steady_closeList
  | .collection type, .populated items => by
    refine Writer.steady_appendList fun op hop => ?_
    obtain ⟨item, -, rfl⟩ := List.mem_map.1 hop
    exact type.steady_write item
  | .record name fields, row => by
    intro v w h m₁ m₂
    cases Writer.pair_of_alike h with
    | @struct validity validity' columns columns' hvalidity hcolumns =>
      have hfields := fields.agree_write row 0 columns.count columns'.count _ _ hcolumns m₁ m₂
      have hrow := hfields.map fun _ _ h => Writer.Pair.alike (.struct hvalidity h)
      exact hrow.andThen Writer.steady_closeRow
    | _ => exact Outcome.agree_stopped
  | .named _ type, value => type.steady_write value

/-- The values of a record are added to alike columns alike. -/
theorem FieldTypes.agree_write : (fields : FieldTypes) → (row : fields.Row) →
    (i count₁ count₂ : Nat) → (v w : Writers) → v ≈ w → (m₁ m₂ : Ledger) →
    (fields.write row i count₁ v m₁).Agree (fields.write row i count₂ w m₂)
  | .nil, _, _, _, _, _, _, h, _, _ => Outcome.agree_done h
  | .cons _ type rest, (value, row), i, count₁, count₂, v, w, h, m₁, m₂ => by
    cases Writers.pair_of_alike h with
    | nil => exact Outcome.agree_stopped
    | cons name nullable hcolumn hcolumns =>
      rw [FieldTypes.write_cons, FieldTypes.write_cons]
      exact (type.steady_write value _ _ hcolumn m₁ m₂).both
        (rest.agree_write row (i + 1) count₁ count₂ _ _ hcolumns)
        fun _ _ _ _ h hrest => Writers.Pair.alike (.cons name nullable h hrest)

end

/-- A list of values is added to alike writers alike. -/
theorem ValueType.steady_appendList (type : ValueType) (items : List type.Datum) :
    Steady (Writer.appendList (items.map fun item => type.write item)) :=
  (ValueType.collection type).steady_write (.populated items)

mutual

/-- Writers with the same content are finished with the same chunk, or break off alike. -/
theorem Writer.finish_eq : (v w : Writer) → v ≈ w → v.finish = w.finish
  | .boolean leaf, w, h => by
    cases Writer.pair_of_alike h with
    | boolean hleaf => exact BooleanWriter.finish_eq hleaf
  | .number kind leaf, w, h => by
    cases Writer.pair_of_alike h with
    | number _ hleaf => exact NumberWriter.finish_eq hleaf
  | .binary leaf, w, h => by
    cases Writer.pair_of_alike h with
    | binary hleaf => exact (BytesWriter.finish_eq hleaf).1
  | .utf8 leaf, w, h => by
    cases Writer.pair_of_alike h with
    | utf8 hleaf => exact congrArg Except.ok (BytesWriter.finish_eq hleaf).2
  | .list slots nullable child, w, h => by
    cases Writer.pair_of_alike h with
    | list _ hslots hchild =>
      obtain ⟨hends, hmask⟩ := Slots.parts_eq hslots
      rw [Writer.finish, Writer.finish, Writer.finish_eq child _ hchild, hends, hmask]
  | .struct validity columns, w, h => by
    cases Writer.pair_of_alike h with
    | struct hvalidity hcolumns =>
      rw [Writer.finish, Writer.finish, Writers.finish_eq columns _ hcolumns,
        Validity.length_eq hvalidity, Validity.finish_eq hvalidity]

/-- Columns with the same content are finished with the same result, whatever room they have. -/
theorem Writers.finish_eq : (v w : Writers) → v ≈ w → v.finish = w.finish
  | .nil, w, h => by
    cases Writers.pair_of_alike h with
    | nil => rfl
  | .cons name nullable column rest, w, h => by
    cases Writers.pair_of_alike h with
    | cons _ _ hcolumn hrest =>
      rw [Writers.finish, Writers.finish, Writer.finish_eq column _ hcolumn,
        Writers.finish_eq rest _ hrest]

end

mutual

/-- The writer for a layout, without slots and without memory. -/
def Writer.blank : Layout → Writer
  | .boolean => .boolean { validity := .new 0 }
  | .number kind => .number kind { validity := .new 0 }
  | .binary => .binary { slots := .blank }
  | .utf8 => .utf8 { slots := .blank }
  | .list item nullable => .list .blank nullable (Writer.blank item)
  | .struct fields => .struct (.new 0) (Writers.blank fields)

/-- The writers for fields, without slots and without memory. -/
def Writers.blank : LayoutFields → Writers
  | .nil => .nil
  | .cons name layout nullable rest =>
    .cons name nullable (Writer.blank layout) (Writers.blank rest)

end

mutual

/-- Wherever a writer for a layout is made, it has the content of the blank writer for it. -/
theorem Writer.alike_new : (layout : Layout) → {m m' : Ledger} → {w : Writer} →
    Writer.new layout m = (.ok w, m') → w ≈ Writer.blank layout
  | .boolean, m, m', w, h => by
    rw [Writer.new] at h
    obtain ⟨leaf, hleaf, rfl⟩ := Made.eq_ok_of_map h
    exact Writer.Pair.alike (.boolean (BooleanWriter.alike_new hleaf))
  | .number kind, m, m', w, h => by
    rw [Writer.new] at h
    obtain ⟨leaf, hleaf, rfl⟩ := Made.eq_ok_of_map h
    exact Writer.Pair.alike (.number kind (NumberWriter.alike_new hleaf))
  | .binary, m, m', w, h => by
    rw [Writer.new] at h
    obtain ⟨leaf, hleaf, rfl⟩ := Made.eq_ok_of_map h
    exact Writer.Pair.alike (.binary (BytesWriter.alike_new hleaf))
  | .utf8, m, m', w, h => by
    rw [Writer.new] at h
    obtain ⟨leaf, hleaf, rfl⟩ := Made.eq_ok_of_map h
    exact Writer.Pair.alike (.utf8 (BytesWriter.alike_new hleaf))
  | .list item nullable, m, m', w, h => by
    rw [Writer.new_list] at h
    obtain ⟨child, _, hchild, hlist⟩ := Made.eq_ok_of_chain h
    rw [Writer.newList_eq] at hlist
    obtain ⟨slots, _, hslots, hmade⟩ := Made.eq_ok_of_chain hlist
    obtain rfl := Made.ok_inj hmade
    exact Writer.Pair.alike
      (.list nullable (Slots.alike_new hslots) (Writer.alike_new item hchild))
  | .struct fields, m, m', w, h => by
    rw [Writer.new] at h
    obtain ⟨columns, hcolumns, rfl⟩ := Made.eq_ok_of_map h
    exact Writer.Pair.alike (.struct (Setoid.refl _) (Writers.alike_new fields hcolumns))

/-- Wherever columns for fields are made, they have the content of the blank ones. -/
theorem Writers.alike_new : (fields : LayoutFields) → {m m' : Ledger} → {columns : Writers} →
    Writers.new fields m = (.ok columns, m') → columns ≈ Writers.blank fields
  | .nil, m, m', columns, h => by
    rw [Writers.new] at h
    obtain rfl := Made.ok_inj h
    exact Setoid.refl _
  | .cons name layout nullable rest, m, m', columns, h => by
    rw [Writers.new_cons] at h
    obtain ⟨column, _, hcolumn, hrest⟩ := Made.eq_ok_of_chain h
    obtain ⟨others, _, hothers, hmade⟩ := Made.eq_ok_of_chain hrest
    obtain rfl := Made.ok_inj hmade
    exact Writers.Pair.alike
      (.cons name nullable (Writer.alike_new layout hcolumn) (Writers.alike_new rest hothers))

end

namespace ColumnOp

/-- An operation of a column that adds nothing leaves the content of its writer as it was. -/
theorem idle_work (hint : Nat) : {op : ColumnOp} → op.adds = false → Idle (op.work hint)
  | .reserve n, _ => by
    refine (Writer.idle_reserve n).andThen fun writer m => ?_
    cases writer with
    | list slots nullable child =>
      dsimp only
      cases Size.mul? n hint with
      | none => exact Setoid.refl _
      | some items => exact Writer.idle_onItems (Writer.idle_reserve items) _ m
    | _ => exact Setoid.refl _
  | .reserveItems n, _ => Writer.idle_onItems (Writer.idle_reserve n)

/-- An operation of a column that adds something makes the same content of the same content. -/
theorem steady_work (hint : Nat) : {op : ColumnOp} → op.adds = true → Steady (op.work hint)
  | .appendAbsent, _ => Writer.steady_appendAbsent
  | .appendNull, _ => Writer.steady_appendNull
  | .append type value, _ => type.steady_write value
  | .appendList type items, _ => type.steady_appendList items

/-- What adds something has no use for the guess of items. -/
theorem work_eq_of_adds {op : ColumnOp} (hop : op.adds = true) (hint hint' : Nat) :
    op.work hint = op.work hint' := by
  cases op with
  | reserve | reserveItems => exact Bool.noConfusion hop
  | appendAbsent | appendNull | append | appendList => rfl

end ColumnOp

namespace Column

/-- The columns that successful operations lead to.  Each may find the ledger in
another state, and the guess of items may change at any time. -/
inductive Runs (start : Column) : List ColumnOp → Column → Prop where
  | here : Runs start [] start
  | step {ops : List ColumnOp} {c : Column} (op : ColumnOp) (m : Ledger) : Runs start ops c →
      (op.run c m).fault = none → Runs start (ops ++ [op]) (op.run c m).value
  | hinted {ops : List ColumnOp} {c : Column} (hint : Nat) : Runs start ops c →
      Runs start ops (c.withHint hint)

/-- Both columns are usable, for one layout, and their writers have the same content. -/
def Alike (c d : Column) : Prop :=
  ∃ progress writer progress' writer', c.state = .usable progress writer ∧
    d.state = .usable progress' writer' ∧ writer ≈ writer'

/-- Where an operation succeeds on a column that works, it does on the writer. -/
theorem apply_of_fault_eq_none {c : Column} {before : Progress} {writer : Writer}
    (hstate : c.state = .usable before writer) {progress : Progress}
    {op : Writer → Ledger → Outcome Writer} {m : Ledger}
    (hok : (c.apply progress op m).fault = none) :
    (op writer m).fault = none ∧
      (c.apply progress op m).value.state =
        .usable (before.further progress) (op writer m).value := by
  rw [apply_eq hstate] at hok ⊢
  cases hfault : (op writer m).fault with
  | none =>
    rw [Outcome.elim_of_none hfault]
    exact ⟨rfl, rfl⟩
  | some fault =>
    rw [Outcome.elim_of_some hfault] at hok
    exact nomatch hok

namespace Alike

variable {c d : Column}

theorem symm (h : Alike c d) : Alike d c := by
  obtain ⟨progress, writer, progress', writer', hc, hd, hwriters⟩ := h
  exact ⟨progress', writer', progress, writer, hd, hc, Setoid.symm hwriters⟩

/-- A new guess of items per list leaves columns alike. -/
theorem withHint (h : Alike c d) (hint : Nat) : Alike (c.withHint hint) d := h

/-- An idle operation on the one leaves both alike. -/
theorem apply_left (h : Alike c d) {op : Writer → Ledger → Outcome Writer} (hop : Idle op)
    {progress : Progress} {m : Ledger} (hok : (c.apply progress op m).fault = none) :
    Alike (c.apply progress op m).value d := by
  obtain ⟨before, writer, progress', writer', hc, hd, hwriters⟩ := h
  obtain ⟨-, hstate⟩ := apply_of_fault_eq_none hc hok
  exact ⟨_, _, progress', writer', hstate, hd, Setoid.trans (hop writer m) hwriters⟩

/-- An operation that makes the same content of the same content leaves alike columns alike, if it
is done on both. -/
theorem apply (h : Alike c d) {op : Writer → Ledger → Outcome Writer} (hop : Steady op)
    {progress : Progress} {m₁ m₂ : Ledger} (hok₁ : (c.apply progress op m₁).fault = none)
    (hok₂ : (d.apply progress op m₂).fault = none) :
    Alike (c.apply progress op m₁).value (d.apply progress op m₂).value := by
  obtain ⟨before, writer, before', writer', hc, hd, hwriters⟩ := h
  obtain ⟨hop₁, hstate₁⟩ := apply_of_fault_eq_none hc hok₁
  obtain ⟨hop₂, hstate₂⟩ := apply_of_fault_eq_none hd hok₂
  exact ⟨_, _, _, _, hstate₁, hstate₂, hop _ _ hwriters m₁ m₂ hop₁ hop₂⟩

/-- Columns with the same content are finished with the same result, whatever room they have. -/
theorem finish_eq (h : Alike c d) (m₁ m₂ : Ledger) : (c.finish m₁).1 = (d.finish m₂).1 := by
  obtain ⟨_, writer, _, writer', hc, hd, hwriters⟩ := h
  rw [finish, finish, hc, hd]
  dsimp only
  rw [writer.finish_eq writer' hwriters]

end Alike

/-- What adds nothing leaves a column alike to what it was alike to. -/
theorem Alike.run_left {c d : Column} (h : Alike c d) {op : ColumnOp} (hop : op.adds = false)
    {m : Ledger} (hok : (op.run c m).fault = none) : Alike (op.run c m).value d := by
  rw [op.run_eq] at hok ⊢
  exact h.apply_left (ColumnOp.idle_work c.hint hop) hok

/-- Two operations that add the same leave alike columns alike, if both are done. -/
theorem Alike.run {c d : Column} (h : Alike c d) {op : ColumnOp} (hop : op.adds = true)
    {m₁ m₂ : Ledger} (hok₁ : (op.run c m₁).fault = none) (hok₂ : (op.run d m₂).fault = none) :
    Alike (op.run c m₁).value (op.run d m₂).value := by
  rw [op.run_eq] at hok₁ ⊢
  rw [op.run_eq, ColumnOp.work_eq_of_adds hop d.hint c.hint] at hok₂ ⊢
  exact h.apply (ColumnOp.steady_work c.hint hop) hok₁ hok₂

/-- What adds nothing adds nothing to what was added. -/
theorem filter_append_of_not_adds {ops : List ColumnOp} {op : ColumnOp} (hop : op.adds = false) :
    (ops ++ [op]).filter ColumnOp.adds = ops.filter ColumnOp.adds := by
  rw [List.filter_append, List.filter_cons_of_neg (by rw [hop]; exact Bool.false_ne_true),
    List.filter_nil, List.append_nil]

/-- What adds something comes last of what was added. -/
theorem filter_append_of_adds {ops : List ColumnOp} {op : ColumnOp} (hop : op.adds = true) :
    (ops ++ [op]).filter ColumnOp.adds = ops.filter ColumnOp.adds ++ [op] := by
  rw [List.filter_append, List.filter_cons_of_pos hop, List.filter_nil]

namespace Runs

variable {start c : Column} {ops : List ColumnOp}

/-- A run that adds nothing stays with what its start is alike to. -/
theorem alike_of_filter_eq_nil (h : start.Runs ops c) (hnone : ops.filter ColumnOp.adds = [])
    {d : Column} (hstart : Alike start d) : Alike c d := by
  induction h with
  | here => exact hstart
  | hinted hint _ ih => exact (ih hnone).withHint hint
  | step op m _ hok ih =>
    cases hop : op.adds with
    | false =>
      rw [filter_append_of_not_adds hop] at hnone
      exact (ih hnone).run_left hop hok
    | true =>
      rw [filter_append_of_adds hop] at hnone
      simp at hnone

/-- What a run adds last it adds to a column that the rest of it leads to, and
nothing that matters happens afterwards. -/
theorem exists_last (h : start.Runs ops c) {added : List ColumnOp} {op : ColumnOp}
    (hadds : ops.filter ColumnOp.adds = added ++ [op]) :
    ∃ (earlier : List ColumnOp) (b : Column) (m : Ledger), start.Runs earlier b ∧
      earlier.filter ColumnOp.adds = added ∧ op.adds = true ∧ (op.run b m).fault = none ∧
      ∀ d, Alike (op.run b m).value d → Alike c d := by
  induction h with
  | here => simp at hadds
  | hinted hint _ ih =>
    obtain ⟨earlier, b, m, hruns, hearlier, hop, hok, halike⟩ := ih hadds
    exact ⟨earlier, b, m, hruns, hearlier, hop, hok, fun d hd => (halike d hd).withHint hint⟩
  | @step ops' c' last m' hruns' hok' ih =>
    cases hlast : last.adds with
    | false =>
      rw [filter_append_of_not_adds hlast] at hadds
      obtain ⟨earlier, b, m, hruns, hearlier, hop, hok, halike⟩ := ih hadds
      exact ⟨earlier, b, m, hruns, hearlier, hop, hok, fun d hd =>
        (halike d hd).run_left hlast hok'⟩
    | true =>
      rw [filter_append_of_adds hlast] at hadds
      obtain ⟨hearlier, heq⟩ := List.append_inj' hadds rfl
      obtain rfl := List.singleton_inj.1 heq
      exact ⟨ops', c', m', hruns', hearlier, hlast, hok', fun _ hd => hd⟩

end Runs

/-- Runs that add the same lead from alike columns to alike columns. -/
theorem Alike.runs {start₁ start₂ c₁ c₂ : Column} (hstart : Alike start₁ start₂)
    {ops₁ ops₂ added : List ColumnOp} (hruns₁ : start₁.Runs ops₁ c₁)
    (hruns₂ : start₂.Runs ops₂ c₂) (hadds₁ : ops₁.filter ColumnOp.adds = added)
    (hadds₂ : ops₂.filter ColumnOp.adds = added) : Alike c₁ c₂ := by
  -- The runs have no step in common but their additions, so the induction is on these, from the
  -- last one back.
  induction added using List.reverseRecOn generalizing ops₁ ops₂ c₁ c₂ with
  | nil =>
    have hleft := hruns₁.alike_of_filter_eq_nil hadds₁ hstart
    exact (hruns₂.alike_of_filter_eq_nil hadds₂ hleft.symm).symm
  | append_singleton added op ih =>
    obtain ⟨_, b₁, m₁, hearlier₁, hadded₁, hop, hok₁, halike₁⟩ := hruns₁.exists_last hadds₁
    obtain ⟨_, b₂, m₂, hearlier₂, hadded₂, -, hok₂, halike₂⟩ := hruns₂.exists_last hadds₂
    have hlast := (ih hearlier₁ hearlier₂ hadded₁ hadded₂).run hop hok₁ hok₂
    exact (halike₂ _ (halike₁ _ hlast).symm).symm

/-- On every ledger a new column for the layout is the same, apart from memory. -/
theorem alike_new {layout : Layout} {m₁ m₁' m₂ m₂' : Ledger} {c d : Column}
    (hc : new layout m₁ = (.ok c, m₁')) (hd : new layout m₂ = (.ok d, m₂')) : Alike c d := by
  unfold Column.new at hc hd
  split at hc
  · simp at hc
  · rename_i hcheck
    rw [hcheck] at hd
    obtain ⟨writer, hwriter, rfl⟩ := Made.eq_ok_of_map hc
    obtain ⟨writer', hwriter', rfl⟩ := Made.eq_ok_of_map hd
    exact ⟨_, _, _, _, rfl, rfl, Setoid.trans (Writer.alike_new layout hwriter)
      (Setoid.symm (Writer.alike_new layout hwriter'))⟩

/-- Two runs on new columns for one layout that add the same are finished with
the same result, whatever they reserve, whatever guesses of items they make and
whatever ledgers they find.  The result is a chunk, unless parts do not fit. -/
theorem finish_eq_of_runs {layout : Layout} {m₁ m₁' m₂ m₂' : Ledger}
    {start₁ start₂ c₁ c₂ : Column} (hnew₁ : new layout m₁ = (.ok start₁, m₁'))
    (hnew₂ : new layout m₂ = (.ok start₂, m₂')) {ops₁ ops₂ : List ColumnOp}
    (hruns₁ : start₁.Runs ops₁ c₁) (hruns₂ : start₂.Runs ops₂ c₂)
    (hsame : ops₁.filter ColumnOp.adds = ops₂.filter ColumnOp.adds) (n₁ n₂ : Ledger) :
    (c₁.finish n₁).1 = (c₂.finish n₂).1 ∧
      ((∃ chunk, (c₁.finish n₁).1 = .ok chunk) ∨
        ∃ flaw, (c₁.finish n₁).1 = .error (.flaw flaw)) := by
  have halike := (alike_new hnew₁ hnew₂).runs hruns₁ hruns₂ hsame rfl
  refine ⟨halike.finish_eq n₁ n₂, ?_⟩
  obtain ⟨_, writer, _, _, hstate, -, -⟩ := halike
  rw [finish, hstate]
  cases hfinish : writer.finish with
  | ok chunk => exact .inl ⟨chunk, by simp only [hfinish]⟩
  | error flaw => exact .inr ⟨flaw, by simp only [hfinish]⟩

/-- Numbers, some of which may be missing. -/
private def scoreType : ValueType := .option (.number .uint16)

/-- A new column of lists of numbers, on a ledger. -/
private def scoreColumn (m : Ledger) : Column :=
  match new (.list scoreType.layout true) m with
  | (.ok c, _) => c
  | (.error _, _) => { layout := .boolean, state := .finished }

/-- A list of two numbers, a null and a list without numbers make the same chunk
with reservations all around them as on a small ledger without any. -/
theorem finish_eq_of_scores :
    ∃ (c₁ c₂ : Column) (ops₁ ops₂ : List ColumnOp),
      (scoreColumn {}).Runs ops₁ c₁ ∧ (scoreColumn { limit := some 300 }).Runs ops₂ c₂ ∧
        ops₁.length = 6 ∧ ops₂.length = 3 ∧ (c₁.finish {}).1 = (c₂.finish {}).1 ∧
        ∃ chunk, (c₁.finish {}).1 = .ok chunk := by
  have hnew₁ : new (.list scoreType.layout true) {} = (.ok (scoreColumn {}), _) := rfl
  have hnew₂ : new (.list scoreType.layout true) { limit := some 300 } =
      (.ok (scoreColumn { limit := some 300 }), _) := rfl
  have hstart₁ : (scoreColumn {}).Runs [] (scoreColumn {}) := .here
  have hreserved := (hstart₁.hinted 5).step (.reserve 3) {} rfl
  have hlist₁ := hreserved.step (.appendList scoreType [some 7#16, none]) {} rfl
  have hnull₁ := (hlist₁.step (.reserveItems 900) {} rfl).step .appendNull {} rfl
  have hruns₁ := (hnull₁.step (.reserve 100) {} rfl).step .appendAbsent {} rfl
  have hstart₂ : (scoreColumn { limit := some 300 }).Runs [] _ := .here
  have hlist₂ := hstart₂.step (.appendList scoreType [some 7#16, none]) { limit := some 300 } rfl
  have hruns₂ := (hlist₂.step .appendNull { limit := some 300 } rfl).step .appendAbsent {} rfl
  obtain ⟨hfinish, -⟩ := finish_eq_of_runs hnew₁ hnew₂ hruns₁ hruns₂ rfl {} {}
  exact ⟨_, _, _, _, hruns₁, hruns₂, rfl, rfl, hfinish, _, rfl⟩

end Column

end Columnar
