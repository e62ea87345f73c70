import Mathlib.Algebra.GroupWithZero.Nat
import Columnar.Proofs.Orderly
/-!
# Headroom for what is added

A writer has headroom for `n` slots if each count inside it can go up by `n` and is a size
still.  A value takes its extent of the headroom, the most slots that it adds to any one writer
inside.  So a column with headroom for all that is added to it does not break off, and a new
column has headroom for as many slots as there are sizes.
-/

namespace Columnar

open Outcome

/-- The slots can be `n` more and their number is a size still.  The last end is a size, too. -/
structure Slots.Headroom (n : Nat) (s : Slots) : Prop where
  length_le : s.length + n ≤ Size.max
  lastEnd_le : s.offsets.lastEnd ≤ Size.max

instance (n : Nat) (s : Slots) : Decidable (s.Headroom n) :=
  decidable_of_iff (s.length + n ≤ Size.max ∧ s.offsets.lastEnd ≤ Size.max)
    ⟨fun h => ⟨h.1, h.2⟩, fun h => ⟨h.1, h.2⟩⟩

mutual

/-- Each count inside the writer can go up by `n` and is a size still. -/
def Writer.Headroom (n : Nat) : Writer → Prop
  | .boolean leaf => leaf.length + n ≤ Size.max
  | .number _ leaf => leaf.length + n ≤ Size.max
  | .binary leaf => leaf.slots.Headroom n
  | .utf8 leaf => leaf.slots.Headroom n
  | .list slots _ child => slots.Headroom n ∧ child.Headroom n
  | .struct validity columns => validity.length + n ≤ Size.max ∧ columns.Headroom n

/-- Each count inside the columns can go up by `n`. -/
def Writers.Headroom (n : Nat) : Writers → Prop
  | .nil => True
  | .cons _ _ column rest => column.Headroom n ∧ rest.Headroom n

end

variable {n k : Nat}

theorem Slots.Headroom.mono {s : Slots} (h : s.Headroom k) (hle : n ≤ k) : s.Headroom n :=
  ⟨Nat.le_trans (Nat.add_le_add_left hle _) h.length_le, h.lastEnd_le⟩

mutual

/-- Headroom for a number of slots is headroom for any smaller number. -/
theorem Writer.Headroom.mono (hle : n ≤ k) : {w : Writer} → w.Headroom k → w.Headroom n
  | .boolean _, h => Nat.le_trans (Nat.add_le_add_left hle _) h
  | .number _ _, h => Nat.le_trans (Nat.add_le_add_left hle _) h
  | .binary _, h => Slots.Headroom.mono h hle
  | .utf8 _, h => Slots.Headroom.mono h hle
  | .list _ _ _, ⟨hslots, hchild⟩ => ⟨hslots.mono hle, hchild.mono hle⟩
  | .struct _ _, ⟨hrows, hcolumns⟩ =>
    ⟨Nat.le_trans (Nat.add_le_add_left hle _) hrows, hcolumns.mono hle⟩

theorem Writers.Headroom.mono (hle : n ≤ k) : {ws : Writers} → ws.Headroom k → ws.Headroom n
  | .nil, _ => trivial
  | .cons _ _ _ _, ⟨hcolumn, hrest⟩ => ⟨hcolumn.mono hle, hrest.mono hle⟩

end

/-- No writer has headroom for more slots than there are sizes. -/
theorem Writer.Headroom.le {w : Writer} (h : w.Headroom n) : n ≤ Size.max := by
  cases w with
  | boolean | number => exact Nat.le_trans (Nat.le_add_left n _) h
  | binary | utf8 => exact Nat.le_trans (Nat.le_add_left n _) h.length_le
  | list => exact Nat.le_trans (Nat.le_add_left n _) h.1.length_le
  | struct => exact Nat.le_trans (Nat.le_add_left n _) h.1

/-- What counts alike has the same headroom. -/
private theorem Validity.le_of_length_eq {v v' : Validity} (hsame : v'.length = v.length)
    (h : v.length + n ≤ Size.max) : v'.length + n ≤ Size.max :=
  hsame.symm ▸ h

/-- One slot in the validity of a part, after something that leaves the validity alone, takes
one of the headroom of the whole. -/
private theorem orderly_flag {σ : Type} (validity : σ → Validity) (whole : σ → Validity → σ)
    (hwhole : ∀ a v, validity (whole a v) = v) {a : σ}
    (h : (validity a).length + (n + 1) ≤ Size.max)
    {first : Outcome σ} (hfirst : first.Orderly fun a' => validity a' = validity a)
    (valid : Bool) :
    (first.andThen fun a m => ((validity a).append valid m).map (whole a)).Orderly
      fun a' => (validity a').length + n ≤ Size.max := by
  refine hfirst.andThen fun a' m ha' => orderly_map ?_
  rw [ha']
  refine (Validity.orderly_append m valid (by omega)).imp fun v hv => ?_
  rw [hwhole, hv]
  omega

theorem BooleanWriter.orderly_append {w : BooleanWriter} (h : w.length + (n + 1) ≤ Size.max)
    (value : Option Bool) (m : Ledger) :
    (w.append value m).Orderly fun w' => w'.length + n ≤ Size.max := by
  have hvalue : ((w.values.append (value.getD false) m).map fun values =>
      { w with values }).Orderly fun w' => w'.validity = w.validity :=
    orderly_map ((w.values.orderly_append _ m).imp fun _ _ => rfl)
  exact orderly_flag BooleanWriter.validity (fun w validity => { w with validity })
    (fun _ _ => rfl) h hvalue value.isSome

theorem NumberWriter.orderly_append {kind : NumberType} {w : NumberWriter kind}
    (h : w.length + (n + 1) ≤ Size.max) (value : Option kind.Carrier) (m : Ledger) :
    (w.append value m).Orderly fun w' => w'.length + n ≤ Size.max := by
  have hvalue : ((w.values.push (value.getD 0) m).map fun values => { w with values }).Orderly
      fun w' => w'.validity = w.validity :=
    orderly_map ((w.values.orderly_append m _).imp fun _ _ => rfl)
  exact orderly_flag NumberWriter.validity (fun w validity => { w with validity })
    (fun _ _ => rfl) h hvalue value.isSome

namespace Slots

variable {s : Slots}

/-- Ending a slot, wherever it ends, takes one of the headroom. -/
private theorem Headroom.flag (h : s.Headroom (n + 1)) {o : Outcome Offsets}
    (ho : o.Orderly fun offsets => offsets.lastEnd ≤ Size.max) (valid : Bool) :
    ((o.map fun offsets => { s with offsets }).andThen fun s m =>
      (s.validity.append valid m).map fun validity => { s with validity }).Orderly
        (Slots.Headroom n) := by
  have hplaced : (o.map fun offsets => { s with offsets }).Orderly fun s' =>
      s'.validity = s.validity ∧ s'.offsets.lastEnd ≤ Size.max :=
    orderly_map (ho.imp fun _ hend => ⟨rfl, hend⟩)
  refine hplaced.andThen fun s' m ⟨hsame, hend⟩ => orderly_map ?_
  have hlength : s.validity.length + (n + 1) ≤ Size.max := h.length_le
  rw [hsame]
  refine (Validity.orderly_append m valid (by omega)).imp fun v hv => ⟨?_, hend⟩
  show v.length + n ≤ Size.max
  omega

theorem Headroom.close (h : s.Headroom (n + 1)) (stop : Nat) (valid : Bool) (m : Ledger) :
    (s.close stop valid m).Orderly (Slots.Headroom n) :=
  h.flag (s.offsets.orderly_append m stop) valid

theorem Headroom.closeEmpty (h : s.Headroom (n + 1)) (valid : Bool) (m : Ledger) :
    (s.closeEmpty valid m).Orderly (Slots.Headroom n) :=
  h.flag (Offsets.orderly_appendLength m h.lastEnd_le) valid

theorem Headroom.reserve (h : s.Headroom n) (k : Nat) (m : Ledger) :
    (s.reserve k m).Orderly (Slots.Headroom n) := by
  have hplanned : ((s.validity.reserve k m).map fun validity => { s with validity }).Orderly
      (Slots.Headroom n) := by
    refine orderly_map ((s.validity.orderly_reserve m k).imp fun v hv => ⟨?_, h.lastEnd_le⟩)
    rw [Slots.length, hv]
    exact h.length_le
  refine hplanned.andThen fun s' m hs' => orderly_map ?_
  refine (s'.offsets.orderly_reserve m k).imp fun o ho => ⟨hs'.length_le, ?_⟩
  rw [ho]
  exact hs'.lastEnd_le

end Slots

/-- A string takes one of the headroom, however long it is. -/
theorem BytesWriter.orderly_append {w : BytesWriter} (h : w.slots.Headroom (n + 1))
    (value : Option (List UInt8)) (m : Ledger) :
    (w.append value m).Orderly fun w' => w'.slots.Headroom n := by
  have hclose : ∀ (w : BytesWriter) (valid : Bool) (m : Ledger), w.slots.Headroom (n + 1) →
      (w.close valid m).Orderly fun w' => w'.slots.Headroom n :=
    fun w valid m h => orderly_map (h.close w.content.byteLength valid m)
  cases value with
  | none => exact hclose w false m h
  | some bytes =>
    have hcontent : ((w.content.append bytes m).map fun content => { w with content }).Orderly
        fun w' => w'.slots.Headroom (n + 1) :=
      orderly_map ((w.content.orderly_append m bytes).imp fun _ _ => h)
    exact hcontent.andThen fun w' m h => hclose w' true m h

mutual

/-- A null takes one of the headroom of every writer that it is added to. -/
theorem Writer.Headroom.appendNull : {w : Writer} → w.Headroom (n + 1) → (m : Ledger) →
    (w.appendNull m).Orderly (Writer.Headroom n)
  | .boolean _, h, m => orderly_map (BooleanWriter.orderly_append h none m)
  | .number _ _, h, m => orderly_map (NumberWriter.orderly_append h none m)
  | .binary _, h, m => orderly_map (BytesWriter.orderly_append h none m)
  | .utf8 _, h, m => orderly_map (BytesWriter.orderly_append h none m)
  | .list _ _ _, ⟨hslots, hchild⟩, m => by
    rw [Writer.appendNull]
    exact orderly_map ((hslots.closeEmpty false m).imp fun _ h => ⟨h, hchild.mono (Nat.le_succ n)⟩)
  | .struct validity columns, ⟨hrows, hcolumns⟩, m => by
    rw [Writer.appendNull_struct]
    refine (hcolumns.appendNull m).both fun columns' m hcolumns' => ?_
    exact (Validity.orderly_append m false (by omega)).imp fun v hv => ⟨by omega, hcolumns'⟩

theorem Writers.Headroom.appendNull : {ws : Writers} → ws.Headroom (n + 1) → (m : Ledger) →
    (ws.appendNull m).Orderly (Writers.Headroom n)
  | .nil, _, _ => orderly_done trivial
  | .cons _ _ _ _, ⟨hcolumn, hrest⟩, m => by
    rw [Writers.appendNull_cons]
    exact (hcolumn.appendNull m).both fun _ m hcolumn' =>
      (hrest.appendNull m).imp fun _ hrest' => ⟨hcolumn', hrest'⟩

end

mutual

/-- Reserving takes none of the headroom of a writer, and does not break off whatever is reserved.
-/
theorem Writer.Headroom.reserve (k : Nat) : {w : Writer} → w.Headroom n → (m : Ledger) →
    (w.reserve k m).Orderly (Writer.Headroom n)
  | .boolean leaf, h, m => by
    refine orderly_map ?_
    have hplanned : ((leaf.validity.reserve k m).map fun validity => { leaf with validity }).Orderly
        fun leaf' => leaf'.length + n ≤ Size.max :=
      orderly_map ((leaf.validity.orderly_reserve m k).imp fun _ hv =>
        Validity.le_of_length_eq hv h)
    exact hplanned.andThen fun leaf' m h =>
      orderly_map ((leaf'.values.orderly_reserve k m).imp fun _ _ => h)
  | .number kind leaf, h, m => by
    refine orderly_map ?_
    have hplanned : ((leaf.validity.reserve k m).map fun validity => { leaf with validity }).Orderly
        fun leaf' => leaf'.length + n ≤ Size.max :=
      orderly_map ((leaf.validity.orderly_reserve m k).imp fun _ hv =>
        Validity.le_of_length_eq hv h)
    refine hplanned.andThen fun leaf' m h => ?_
    split
    · exact orderly_stopped rfl
    · exact orderly_map ((leaf'.values.orderly_reserve m _).imp fun _ _ => h)
  | .binary _, h, m => orderly_map (orderly_map (Slots.Headroom.reserve h k m))
  | .utf8 _, h, m => orderly_map (orderly_map (Slots.Headroom.reserve h k m))
  | .list _ _ _, ⟨hslots, hchild⟩, m => by
    rw [Writer.reserve]
    exact orderly_map ((hslots.reserve k m).imp fun _ h => ⟨h, hchild⟩)
  | .struct validity columns, ⟨hrows, hcolumns⟩, m => by
    rw [Writer.reserve_struct]
    refine (validity.orderly_reserve m k).both fun v m hv => ?_
    exact (hcolumns.reserve k m).imp fun _ hcolumns' =>
      ⟨Validity.le_of_length_eq hv hrows, hcolumns'⟩

theorem Writers.Headroom.reserve (k : Nat) : {ws : Writers} → ws.Headroom n → (m : Ledger) →
    (ws.reserve k m).Orderly (Writers.Headroom n)
  | .nil, _, _ => orderly_done trivial
  | .cons _ _ _ _, ⟨hcolumn, hrest⟩, m => by
    rw [Writers.reserve_cons]
    exact (hcolumn.reserve k m).both fun _ m hcolumn' =>
      (hrest.reserve k m).imp fun _ hrest' => ⟨hcolumn', hrest'⟩

end

namespace Writer.Headroom

variable {w : Writer} {m : Ledger}

/-- A boolean takes one of the headroom; other writers refuse it. -/
theorem appendBoolean (h : w.Headroom (n + 1)) (value : Option Bool) :
    (w.appendBoolean value m).Orderly (Writer.Headroom n) := by
  cases w with
  | boolean leaf => exact orderly_map (BooleanWriter.orderly_append h value m)
  | _ => exact orderly_stopped rfl

theorem appendNumber (h : w.Headroom (n + 1)) (kind : NumberType) (value : Option kind.Carrier) :
    (w.appendNumber kind value m).Orderly (Writer.Headroom n) := by
  cases w with
  | number kind' leaf =>
    simp only [Writer.appendNumber]
    split
    · exact orderly_map (NumberWriter.orderly_append h _ m)
    · exact orderly_stopped rfl
  | _ => exact orderly_stopped rfl

theorem appendBytes (h : w.Headroom (n + 1)) (value : Option (List UInt8)) :
    (w.appendBytes value m).Orderly (Writer.Headroom n) := by
  cases w with
  | binary leaf => exact orderly_map (BytesWriter.orderly_append h value m)
  | _ => exact orderly_stopped rfl

theorem appendText (h : w.Headroom (n + 1)) (value : Option String) :
    (w.appendText value m).Orderly (Writer.Headroom n) := by
  cases w with
  | utf8 leaf => exact orderly_map (BytesWriter.orderly_append h _ m)
  | _ => exact orderly_stopped rfl

theorem appendAbsent (h : w.Headroom (n + 1)) :
    (w.appendAbsent m).Orderly (Writer.Headroom n) := by
  cases w with
  | list slots nullable child =>
    rw [Writer.appendAbsent]
    exact orderly_map ((h.1.closeEmpty true m).imp fun _ hslots =>
      ⟨hslots, h.2.mono (Nat.le_succ n)⟩)
  | _ => exact orderly_stopped rfl

/-- So does a list of what is in the child already. -/
theorem closeList (h : w.Headroom (n + 1)) : (w.closeList m).Orderly (Writer.Headroom n) := by
  cases w with
  | list slots nullable child =>
    rw [Writer.closeList]
    exact orderly_map ((h.1.close child.length true m).imp fun _ hslots =>
      ⟨hslots, h.2.mono (Nat.le_succ n)⟩)
  | _ => exact orderly_stopped rfl

theorem onItems {op : Writer → Ledger → Outcome Writer}
    (hop : ∀ (w : Writer) (m : Ledger), w.Headroom n → (op w m).Orderly (Writer.Headroom n))
    (h : w.Headroom n) : (w.onItems op m).Orderly (Writer.Headroom n) := by
  cases w with
  | list slots nullable child => exact orderly_map ((hop child m h.2).imp fun _ hw => ⟨h.1, hw⟩)
  | _ => exact orderly_stopped rfl

/-- A list takes one of the headroom of its own writer, and each item takes its share of the
headroom beneath. -/
theorem appendList {α : Type} {items : List α} {write : α → Writer → Ledger → Outcome Writer}
    {share : α → Nat}
    (hwrite : ∀ (n : Nat) (item : α) (w : Writer) (m : Ledger), w.Headroom (n + share item) →
      (write item w m).Orderly (Writer.Headroom n))
    (h : w.Headroom (n + max 1 (items.map share).sum)) :
    (w.appendList (items.map write) m).Orderly (Writer.Headroom n) := by
  cases w with
  | list slots nullable child =>
    obtain ⟨hslots, hchild⟩ := h
    have hone := hslots.mono (Nat.add_le_add_left (Nat.le_max_left 1 _) n)
    have hitems : ((items.map write).foldl
        (fun (o : Outcome Writer) op => o.andThen op) (.done child m)).Orderly
          (Writer.Headroom n) := by
      rw [List.foldl_map]
      refine Orderly.foldl (I := fun rest (w : Writer) => w.Headroom (n + (rest.map share).sum))
        (orderly_done (hchild.mono (Nat.add_le_add_left (Nat.le_max_right 1 _) n))) ?_
      intro item rest w m hw
      rw [List.map_cons, List.sum_cons, Nat.add_comm (share item), ← Nat.add_assoc] at hw
      exact hwrite _ item w m hw
    have hfilled : (((items.map write).foldl
        (fun (o : Outcome Writer) op => o.andThen op) (.done child m)).map
          (Writer.list slots nullable)).Orderly fun w =>
          ∃ child, w = .list slots nullable child ∧ child.Headroom n :=
      orderly_map (hitems.imp fun child' hchild' => ⟨child', rfl, hchild'⟩)
    refine hfilled.andThen ?_
    rintro w' m' ⟨child', rfl, hchild'⟩
    rw [Writer.closeList]
    exact orderly_map ((hone.close child'.length true m').imp fun _ h => ⟨h, hchild'⟩)
  | _ => exact orderly_stopped rfl

/-- A row takes one of the headroom of the struct, whatever is in its columns. -/
theorem closeRow {validity : Validity} {columns : Writers}
    (hrows : validity.length + (n + 1) ≤ Size.max) (hcolumns : columns.Headroom n) :
    ((Writer.struct validity columns).closeRow m).Orderly (Writer.Headroom n) := by
  rw [Writer.closeRow_struct, Size.add?_of_le (by omega : validity.length + 1 ≤ Size.max)]
  dsimp only
  split
  · exact orderly_stopped rfl
  · exact orderly_map ((Validity.orderly_append m true (by omega)).imp fun v hv =>
      ⟨by omega, hcolumns⟩)

end Writer.Headroom

mutual

/-- The most slots that a value adds to any one writer. -/
def ValueType.extent : (type : ValueType) → type.Datum → Nat
  | .option type, value =>
    match value with
    | some value => type.extent value
    | none => 1
  | .collection type, items => max 1 (items.toList.map fun item => type.extent item).sum
  | .record _ fields, row => max 1 (fields.extent row)
  | .named _ type, value => type.extent value
  | .boolean, _ | .number _, _ | .text, _ | .bytes, _ => 1

/-- The most slots that the values of a record add to any one writer. -/
def FieldTypes.extent : (fields : FieldTypes) → fields.Row → Nat
  | .nil, _ => 0
  | .cons _ type rest, (value, row) => max (type.extent value) (rest.extent row)

end

/-- The most slots that values add to any one writer altogether. -/
def ValueType.extentTotal (type : ValueType) (values : List type.Datum) : Nat :=
  (values.map type.extent).sum

/-- The extent of a value is at least one, since every value adds a slot. -/
theorem ValueType.extent_pos : (type : ValueType) → (value : type.Datum) → 1 ≤ type.extent value
  | .option type, some value => type.extent_pos value
  | .option _, none => Nat.le_refl 1
  | .named _ type, value => type.extent_pos value
  | .collection _, _ => Nat.le_max_left 1 _
  | .record _ _, _ => Nat.le_max_left 1 _
  | .boolean, _ | .number _, _ | .text, _ | .bytes, _ => Nat.le_refl 1

/-- There are no more values than slots that they add. -/
theorem ValueType.length_le_extentTotal (type : ValueType) (values : List type.Datum) :
    values.length ≤ type.extentTotal values := by
  induction values with
  | nil => exact Nat.le_refl 0
  | cons value rest ih =>
    rw [extentTotal, List.map_cons, List.sum_cons, List.length_cons, Nat.add_comm]
    exact Nat.add_le_add (type.extent_pos value) ih

/-- The items of a value are among the slots that it adds beneath. -/
theorem ValueType.itemCount_le_extent : (type : ValueType) → (value : type.Datum) →
    type.itemCount value ≤ type.extent value
  | .option type, some value => type.itemCount_le_extent value
  | .option _, none => Nat.zero_le _
  | .named _ type, value => type.itemCount_le_extent value
  | .collection type, items =>
    Nat.le_trans (type.length_le_extentTotal items.toList) (Nat.le_max_right 1 _)
  | .record _ _, _ | .boolean, _ | .number _, _ | .text, _ | .bytes, _ => Nat.zero_le _

/-- So the number of all items is no more than the slots that the values add. -/
theorem ValueType.itemTotal_le_extentTotal (type : ValueType) (values : List type.Datum) :
    type.itemTotal values ≤ type.extentTotal values := by
  induction values with
  | nil => exact Nat.le_refl 0
  | cons value rest ih => exact Nat.add_le_add (type.itemCount_le_extent value) ih

mutual

/-- **A value takes its extent of the headroom.**  Adding a value to a writer with headroom for
its extent does not break off, whether the writer takes values of its type or not, and leaves
the rest of the headroom if it succeeds. -/
theorem ValueType.orderly_write : (type : ValueType) → (value : type.Datum) → {w : Writer} →
    {n : Nat} → w.Headroom (n + type.extent value) → (m : Ledger) →
    (type.write value w m).Orderly (Writer.Headroom n)
  | .boolean, (value : Bool), _, _, h, _ => h.appendBoolean (some value)
  | .number kind, (value : kind.Carrier), _, _, h, _ => h.appendNumber kind (some value)
  | .text, (value : String), _, _, h, _ => h.appendText (some value)
  | .bytes, (value : List UInt8), _, _, h, _ => h.appendBytes (some value)
  | .option type, some value, _, _, h, m => type.orderly_write value h m
  | .option _, none, _, _, h, m => h.appendNull m
  | .named _ type, value, _, _, h, m => type.orderly_write value h m
  | .collection _, .unset, _, _, h, _ => h.appendAbsent
  | .collection _, .empty, _, _, h, _ => h.closeList
  | .collection type, .populated items, _, _, h, _ =>
    h.appendList fun _ item _ m h => type.orderly_write item h m
  | .record _ fields, row, .struct validity columns, n, ⟨hrows, hcolumns⟩, m => by
    have hcolumns' := hcolumns.mono (Nat.add_le_add_left (Nat.le_max_right 1 _) n)
    have hfields := fields.orderly_write row 0 columns.count hcolumns' m
    have hadded : ((fields.write row 0 columns.count columns m).map
        (Writer.struct validity)).Orderly fun w =>
          ∃ columns, w = .struct validity columns ∧ columns.Headroom n :=
      orderly_map (hfields.imp fun columns' h => ⟨columns', rfl, h⟩)
    refine hadded.andThen ?_
    rintro w' m' ⟨columns', rfl, h⟩
    refine Writer.Headroom.closeRow ?_ h
    exact Nat.le_trans (Nat.add_le_add_left (Nat.add_le_add_left (Nat.le_max_left 1 _) n) _) hrows
  | .record _ _, _, .boolean _, _, _, _ => orderly_stopped rfl
  | .record _ _, _, .number _ _, _, _, _ => orderly_stopped rfl
  | .record _ _, _, .binary _, _, _, _ => orderly_stopped rfl
  | .record _ _, _, .utf8 _, _, _, _ => orderly_stopped rfl
  | .record _ _, _, .list _ _ _, _, _, _ => orderly_stopped rfl

/-- So do the values of a record in the columns that they are added to. -/
theorem FieldTypes.orderly_write : (fields : FieldTypes) → (row : fields.Row) → (i count : Nat) →
    {columns : Writers} → {n : Nat} → columns.Headroom (n + fields.extent row) → (m : Ledger) →
    (fields.write row i count columns m).Orderly (Writers.Headroom n)
  | .nil, _, _, _, _, _, h, _ => orderly_done h
  | .cons _ _ _, _, _, _, .nil, _, _, _ => orderly_stopped rfl
  | .cons _ type rest, (value, row), i, count, .cons _ _ _ _, n, ⟨hcolumn, hrest⟩, m => by
    rw [FieldTypes.write_cons]
    have hvalue := hcolumn.mono (Nat.add_le_add_left (Nat.le_max_left (type.extent value) _) n)
    have hothers := hrest.mono (Nat.add_le_add_left (Nat.le_max_right _ (rest.extent row)) n)
    exact (type.orderly_write value hvalue m).both fun _ m hcolumn' =>
      (rest.orderly_write row (i + 1) count hothers m).imp fun _ hrest' => ⟨hcolumn', hrest'⟩

end

namespace ColumnOp

/-- The most slots that the operation adds to any one writer. -/
def extent : ColumnOp → Nat
  | reserve _ | reserveItems _ => 0
  | appendAbsent | appendNull => 1
  | append type value => type.extent value
  | appendList type items => (ValueType.collection type).extent (.populated items)

/-- The most slots that operations add to any one writer altogether. -/
def extentTotal (ops : List ColumnOp) : Nat := (ops.map extent).sum

/-- An operation takes its extent of the headroom of the writer that it works on. -/
theorem orderly_work (op : ColumnOp) (hint : Nat) {w : Writer} (h : w.Headroom (n + op.extent))
    (m : Ledger) : (op.work hint w m).Orderly (Writer.Headroom n) := by
  cases op with
  | reserve k =>
    rw [work]
    refine (Writer.Headroom.reserve k h m).andThen fun w' m' h' => ?_
    cases w' with
    | list slots nullable child =>
      dsimp only
      split
      · exact orderly_stopped rfl
      · exact h'.onItems fun _ m h => Writer.Headroom.reserve _ h m
    | _ => exact orderly_done h'
  | reserveItems k => exact Writer.Headroom.onItems (fun _ m h => Writer.Headroom.reserve k h m) h
  | appendAbsent => exact h.appendAbsent
  | appendNull => exact h.appendNull m
  | append type value => exact type.orderly_write value h m
  | appendList type items => exact (ValueType.collection type).orderly_write (.populated items) h m

end ColumnOp

namespace Column

/-- Each count inside the column can go up by `n` and is a size still.  Nothing can be added to
a finished column, so it has no headroom at all. -/
def Headroom (n : Nat) (c : Column) : Prop := ∃ w, c.writer? = some w ∧ w.Headroom n

/-- Headroom for a number of slots is headroom for any smaller number. -/
theorem Headroom.mono {c : Column} (h : c.Headroom k) (hle : n ≤ k) : c.Headroom n := by
  obtain ⟨w, hwriter, hw⟩ := h
  exact ⟨w, hwriter, hw.mono hle⟩

/-- No column has headroom for more slots than there are sizes. -/
theorem Headroom.le {c : Column} (h : c.Headroom n) : n ≤ Size.max := by
  obtain ⟨w, -, hw⟩ := h
  exact hw.le

/-- **An operation takes its extent of the headroom.**  A column with headroom for the slots
that an operation adds does not break off, and keeps the rest of the headroom if the operation
succeeds. -/
theorem Headroom.run {c : Column} (op : ColumnOp) (h : c.Headroom (n + op.extent)) (m : Ledger) :
    (op.run c m).Orderly (Column.Headroom n) := by
  obtain ⟨w, hwriter, hw⟩ := h
  rw [op.run_eq]
  cases hstate : c.state with
  | finished =>
    rw [writer?, hstate] at hwriter
    cases hwriter
  | failed writer =>
    rw [apply, hstate]
    exact orderly_stopped rfl
  | usable progress writer =>
    rw [writer?, hstate] at hwriter
    obtain rfl : writer = w := Option.some.inj hwriter
    have hwork := op.orderly_work c.hint hw m
    rw [apply_eq hstate]
    cases hfault : (op.work c.hint writer m).fault with
    | none =>
      rw [elim_of_none hfault]
      exact orderly_done ⟨_, rfl, hwork.ensures hfault⟩
    | some fault =>
      rw [elim_of_some hfault]
      exact orderly_stopped (hwork.unbroken fault hfault)

end Column

/-- Where no slots are shown, as many can be counted as there are sizes. -/
theorem Validity.Shows.le_of_nil {v : Validity} (h : v.Shows []) (hle : n ≤ Size.max) :
    v.length + n ≤ Size.max := by
  rwa [h.length_eq, List.length_nil, Nat.zero_add]

/-- Without slots there is headroom for as many as there are sizes. -/
theorem Slots.Holds.headroom {α : Type} {s : Slots} (h : s.Holds ([] : List (Option (List α))))
    (hle : n ≤ Size.max) : s.Headroom n := by
  have hend : s.offsets.last = 0 := h.offsets.last
  refine ⟨Validity.Shows.le_of_nil h.validity hle, ?_⟩
  rw [Offsets.lastEnd, hend]
  exact Nat.zero_le _

mutual

/-- A writer without slots has headroom for as many as there are sizes, and so do the writers
inside it. -/
theorem Writer.Holds.headroom (hle : n ≤ Size.max) : {layout : Layout} → {w : Writer} →
    w.Holds layout [] → w.Headroom n
  | .boolean, _, ⟨_, rfl, h⟩ => Validity.Shows.le_of_nil h.validity hle
  | .number _, _, ⟨_, rfl, h⟩ => Validity.Shows.le_of_nil h.validity hle
  | .binary, _, ⟨_, rfl, h⟩ => h.ends.headroom hle
  | .utf8, _, ⟨_, rfl, h⟩ => Slots.Holds.headroom h.ends hle
  | .list _ _, _, ⟨_, _, rfl, hends, hchild⟩ => ⟨hends.headroom hle, hchild.headroom hle⟩
  | .struct _, _, ⟨_, _, rfl, hvalidity, hcolumns⟩ =>
    ⟨Validity.Shows.le_of_nil hvalidity hle, Writers.Hold.headroom hle hcolumns⟩

theorem Writers.Hold.headroom (hle : n ≤ Size.max) : {fields : LayoutFields} → {ws : Writers} →
    ws.Hold fields [] → ws.Headroom n
  | .nil, _, rfl => trivial
  | .cons _ _ _ _, _, ⟨_, _, rfl, hcolumn, hrest⟩ => ⟨hcolumn.headroom hle, hrest.headroom hle⟩

end

namespace Column

variable {layout : Layout} {m m' : Ledger} {start c : Column}

/-- A new column has headroom for as many slots as there are sizes. -/
theorem headroom_new (hnew : new layout m = (.ok start, m')) (hle : n ≤ Size.max) :
    start.Headroom n := by
  obtain ⟨-, -, progress, writer, hstate, hwriter⟩ := holds_new hnew
  exact ⟨writer, by rw [writer?, hstate], hwriter.headroom hle⟩

/-- A column that operations have filled has headroom for what they left of it. -/
theorem Runs.headroom {ops : List ColumnOp} (hnew : new layout m = (.ok start, m'))
    (hruns : start.Runs ops c) (hle : n + ColumnOp.extentTotal ops ≤ Size.max) : c.Headroom n := by
  induction hruns generalizing n with
  | here => exact headroom_new hnew hle
  | hinted hint _ ih => exact ih hle
  | step op m _ hok ih =>
    rw [ColumnOp.extentTotal, List.map_append, List.sum_append, List.map_singleton,
      List.sum_singleton, Nat.add_comm (List.sum _), ← Nat.add_assoc] at hle
    exact ((ih hle).run op m).ensures hok

end Column

/-- Making room for the items of values takes none of the headroom.  Their number is a size as
long as there is headroom for the values. -/
theorem ValueType.orderly_makeRoom (type : ValueType) {values : List type.Datum} {c : Column}
    (h : c.Headroom (n + type.extentTotal values)) (m : Ledger) :
    (type.makeRoom values c m).Orderly (Column.Headroom (n + type.extentTotal values)) := by
  obtain ⟨hroom, -⟩ | ⟨-, -, hlarge⟩ | ⟨hroom, -⟩ := type.makeRoom_eq values c
  · rw [hroom]
    exact h.run (.reserveItems _) m
  · exact absurd h.le (by have := type.itemTotal_le_extentTotal values; omega)
  · rw [hroom]
    exact orderly_done h

/-- **Filling with headroom does not break off.**  Whatever column and whatever records are
given, a column with headroom for the records takes them or reports why it does not. -/
theorem Component.orderly_fill {r : Registry} {c : Component} {column : Column}
    {records : List c.Datum} {count : Nat}
    (h : column.Headroom (n + c.type.extentTotal (records.take count))) (m : Ledger) :
    (c.fill r column records count m).Orderly (Column.Headroom n) := by
  unfold fill
  split
  · exact orderly_stopped rfl
  · split
    · exact orderly_stopped rfl
    · refine (Orderly.foldl (I := fun rest (column : Column) =>
        column.Headroom (n + c.type.extentTotal rest)) (c.type.orderly_makeRoom h m) ?_)
      intro record rest column m hcolumn
      rw [ValueType.extentTotal, List.map_cons, List.sum_cons, Nat.add_comm (c.type.extent record),
        ← Nat.add_assoc] at hcolumn
      rw [c.type.writeSlot_eq_append]
      exact hcolumn.run (.append c.type record) m

/-- Encoding records does not break off, as long as there are sizes for all the slots that they
add to any one writer. -/
theorem Component.unbroken_encode {r : Registry} {c : Component} {records : List c.Datum}
    (hle : c.type.extentTotal records ≤ Size.max) (hint : Nat) (m : Ledger) {fault : Fault}
    (h : (c.encode r records hint m).1 = .error (.fault fault)) : fault.isBreak = false := by
  rw [encode_eq] at h
  have hmade := Column.unbroken_new (r.entryFor c).layout m
  rcases hnew : Column.new (r.entryFor c).layout m with ⟨fault' | start, m'⟩
  · rw [hnew] at h hmade
    exact Failure.fault.inj (Except.error.inj h) ▸ hmade fault' rfl
  · rw [hnew] at h
    dsimp only [Made.elim] at h
    have hstart : start.Headroom (0 + c.type.extentTotal records) :=
      Column.headroom_new hnew ((Nat.zero_add _).symm ▸ hle)
    have hhinted : (start.withHint hint).Headroom (0 + c.type.extentTotal records) := hstart
    have hfill (column : Column) (m : Ledger)
        (h : column.Headroom (0 + c.type.extentTotal records)) :
        (c.fill r column records records.length m).Orderly (Column.Headroom 0) :=
      Component.orderly_fill (by rwa [List.take_length]) m
    have hfilled := (hhinted.run (.reserve records.length) m').andThen hfill
    cases hfault : (((start.withHint hint).reserve records.length m').andThen fun column m =>
        c.fill r column records records.length m).fault with
    | none =>
      rw [elim_of_none hfault] at h
      exact Column.unbroken_finish _ _ h
    | some fault' =>
      rw [elim_of_some hfault] at h
      exact Failure.fault.inj (Except.error.inj h) ▸ hfilled.unbroken fault' hfault

end Columnar
