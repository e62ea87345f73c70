import Columnar.Value.Cell
/-!
# Slots of values

What the slot of a value says about the value.  The slot is null exactly for
the values that count as missing, so a type that is not nullable never has a
null slot, at any depth.  A value and its normal form take up the same slot,
and the slot stands for the normal form.
-/

namespace Columnar

/-- Values are found for all members exactly when each member has its own. -/
theorem mapM_eq_some_iff {α β : Type} {f : α → Option β} {xs : List α} {ys : List β} :
    xs.mapM f = some ys ↔ xs.map f = ys.map some := by
  induction xs generalizing ys with
  | nil =>
    constructor
    · intro h
      obtain rfl : [] = ys := by simpa using h
      rfl
    · intro h
      obtain rfl : ys = [] := by simpa using h
      rfl
  | cons x xs ih =>
    cases hx : f x with
    | none =>
      constructor
      · intro h
        simp [hx] at h
      · intro h
        cases ys <;> simp [hx] at h
    | some y =>
      constructor
      · intro h
        obtain ⟨rest, hrest, rfl⟩ : ∃ rest, xs.mapM f = some rest ∧ y :: rest = ys := by
          simpa [hx, Option.bind_eq_some_iff] using h
        rw [List.map_cons, List.map_cons, hx, ih.1 hrest]
      · intro h
        cases ys with
        | nil => simp at h
        | cons y' rest =>
          rw [List.map_cons, List.map_cons, hx, List.cons.injEq, Option.some.injEq] at h
          obtain ⟨rfl, hrest⟩ := h
          simp [hx, ih.2 hrest]

/-- A value takes up a null slot exactly if it counts as missing. -/
theorem ValueType.isNull_eq_isNone_cell : (type : ValueType) → (value : type.Datum) →
    type.isNull value = (type.cell value).isNone
  | .option _, none => rfl
  | .option type, some value => type.isNull_eq_isNone_cell value
  | .named _ type, value => type.isNull_eq_isNone_cell value
  | .boolean, _ => rfl
  | .number _, _ => rfl
  | .text, _ => rfl
  | .bytes, _ => rfl
  | .collection _, _ => rfl
  | .record .., _ => rfl

/-- A value that counts as missing comes back as missing. -/
theorem ValueType.normal_some_of_isNull (type : ValueType) {value : type.Datum}
    (h : type.isNull value = true) :
    (ValueType.option type).normal (some value) = (none : Option type.Datum) := by
  rw [ValueType.normal, h]
  rfl

/-- Any other value comes back as its normal form. -/
theorem ValueType.normal_some_of_not_isNull (type : ValueType) {value : type.Datum}
    (h : type.isNull value = false) :
    (ValueType.option type).normal (some value) = some (type.normal value) := by
  rw [ValueType.normal, h]
  rfl

/-- A type that is not nullable has no null slots. -/
theorem ValueType.isSome_cell : (type : ValueType) → type.isNullable = false →
    (value : type.Datum) → (type.cell value).isSome
  | .option _, hnullable, _ => by simp [ValueType.isNullable] at hnullable
  | .named _ type, hnullable, value => type.isSome_cell hnullable value
  | .boolean, _, _ => rfl
  | .number _, _, _ => rfl
  | .text, _, _ => rfl
  | .bytes, _, _ => rfl
  | .collection _, _, _ => rfl
  | .record .., _, _ => rfl

mutual

/-- Inside the slot of a value nothing is null that must not be. -/
theorem ValueType.admits_cell : (type : ValueType) → (value : type.Datum) →
    ∀ cell ∈ type.cell value, type.layout.Admits cell
  | .boolean, _ => fun _ _ => trivial
  | .number _, _ => fun _ _ => trivial
  | .text, _ => fun _ _ => trivial
  | .bytes, _ => fun _ _ => trivial
  | .option _, none => fun _ hcell => nomatch hcell
  | .option type, some value => type.admits_cell value
  | .named _ type, value => type.admits_cell value
  | .collection type, items => by
    intro cell hcell
    obtain rfl : items.toList.map type.cell = cell := Option.some.inj hcell
    intro slot hslot
    obtain ⟨item, -, rfl⟩ := List.mem_map.1 hslot
    exact ⟨fun hnullable => type.isSome_cell hnullable item, type.admits_cell item⟩
  | .record _ fields, row => by
    intro cell hcell
    obtain rfl : fields.cells row = cell := Option.some.inj hcell
    exact fields.admit_cells row

/-- Inside the slots of the fields nothing is null that must not be. -/
theorem FieldTypes.admit_cells : (fields : FieldTypes) → (row : fields.Row) →
    fields.layoutFields.Admit (fields.cells row)
  | .nil, _ => trivial
  | .cons _ type rest, (value, row) =>
    ⟨fun hnullable => type.isSome_cell hnullable value, type.admits_cell value,
      rest.admit_cells row⟩

end

mutual

/-- The slot of a value stands for its normal form. -/
theorem ValueType.ofCell_cell : (type : ValueType) → (value : type.Datum) →
    type.ofCell (type.cell value) = some (type.normal value)
  | .boolean, _ => rfl
  | .number _, _ => rfl
  | .text, _ => rfl
  | .bytes, _ => rfl
  | .option _, none => rfl
  | .option type, some value => by
    have hnull := type.isNull_eq_isNone_cell value
    have hslot : (ValueType.option type).ofCell (type.cell value) =
        if (type.cell value).isSome then (type.ofCell (type.cell value)).map some
        else some none := rfl
    cases hmissing : type.isNull value with
    | true =>
      have hcell : (type.cell value).isSome = false := by simpa [hmissing] using hnull
      rw [type.normal_some_of_isNull hmissing]
      exact hslot.trans (by rw [hcell]; rfl)
    | false =>
      have hcell : (type.cell value).isSome = true := by simpa [hmissing] using hnull
      rw [type.normal_some_of_not_isNull hmissing]
      exact hslot.trans (by rw [hcell, if_pos rfl, type.ofCell_cell value]; rfl)
  | .named _ type, value => type.ofCell_cell value
  | .collection type, items => by
    have hitems : ∀ item, type.ofCell (type.cell item) = some (type.normal item) :=
      type.ofCell_cell
    have hall : List.mapM type.ofCell (items.toList.map type.cell) =
        some (items.toList.map type.normal) := by
      apply mapM_eq_some_iff.2
      rw [List.map_map, List.map_map]
      exact List.map_congr_left fun item _ => hitems item
    exact congrArg (Option.map Collection.ofList) hall
  | .record _ fields, row => fields.ofCells_cells row

/-- The slots of a record stand for its normal form. -/
theorem FieldTypes.ofCells_cells : (fields : FieldTypes) → (row : fields.Row) →
    fields.ofCells (fields.cells row) = some (fields.normal row)
  | .nil, _ => rfl
  | .cons _ type rest, (value, row) => by
    simp [FieldTypes.cells, FieldTypes.ofCells, FieldTypes.normal, type.ofCell_cell value,
      rest.ofCells_cells row]

end

end Columnar
