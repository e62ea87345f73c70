import Columnar.Nesting
import Columnar.Proofs.Counting
import Columnar.Proofs.Finishing
import Columnar.Proofs.Writing
/-!
# Rows stay in step

A row is closed only if every field has just the one value for it, and then the
fields are in step again.  A null row asks for nothing: it takes fields that are
in step to fields that are in step, and others to others.

A struct that is filled with null rows between rows only follows its table:
every field holds the slots of the closed rows and then those that are pending.
One operation takes this on, so it holds after all of them, and when nothing
is pending the struct is finished with the rows of the table.
-/

namespace Columnar

/-- No field is out of step with a count exactly if all fields have that count. -/
theorem Writers.findUneven_eq_none_iff {rows : Nat} {columns : Writers} :
    columns.findUneven rows = none ↔ ∀ n ∈ columns.lengths, n = rows := by
  cases columns with
  | nil => simp [findUneven, lengths]
  | cons name nullable column rest =>
    rw [findUneven, lengths, List.forall_mem_cons]
    split
    · rename_i heven
      rw [findUneven_eq_none_iff, and_iff_right heven]
    · rename_i huneven
      exact iff_of_false (Option.some_ne_none _) fun h => huneven h.1

/-- A field that is found out of step has another count than the one it is held
against. -/
theorem Writers.mem_lengths_of_findUneven {rows held : Nat} {name : String} :
    {columns : Writers} → columns.findUneven rows = some (name, held) →
    held ∈ columns.lengths ∧ held ≠ rows
  | .nil, h => nomatch h
  | .cons _ _ column rest, h => by
    rw [findUneven] at h
    split at h
    · obtain ⟨hmem, hne⟩ := mem_lengths_of_findUneven h
      exact ⟨List.mem_cons_of_mem _ hmem, hne⟩
    · rename_i huneven
      obtain ⟨-, rfl⟩ := Prod.mk.inj (Option.some.inj h)
      exact ⟨List.mem_cons_self, huneven⟩

/-- A null in every column makes every column longer by one. -/
theorem Writers.lengths_appendNull : (m : Ledger) → (columns : Writers) →
    (columns.appendNull m).Ensures fun columns' =>
      columns'.lengths = columns.lengths.map (· + 1)
  | _, .nil => Outcome.ensures_done rfl
  | m, .cons name nullable column rest => by
    rw [appendNull_cons]
    refine Outcome.ensures_both fun hfirst => ?_
    refine (rest.lengths_appendNull _).imp fun rest' hrest => ?_
    rw [lengths, lengths, List.map_cons, hrest, Writer.addsSlot_appendNull column m hfirst]

namespace Writer

variable {validity : Validity} {columns : Writers}

/-- A row is closed only with the fields in step. -/
theorem inStep_closeRow {m : Ledger} (hok : ((struct validity columns).closeRow m).fault = none) :
    ((struct validity columns).closeRow m).value.InStep := by
  have hlength := addsSlot_closeRow _ m hok
  rw [closeRow_struct] at hok hlength ⊢
  cases hrows : Size.add? validity.length 1 with
  | none => simp [hrows] at hok
  | some rows =>
    obtain ⟨rfl, -⟩ := Size.add?_eq_some hrows
    simp only [hrows] at hok hlength ⊢
    cases heven : columns.findUneven (validity.length + 1) with
    | some uneven => simp [heven] at hok
    | none =>
      simp only [heven] at hlength ⊢
      intro n hn
      exact (Writers.findUneven_eq_none_iff.1 heven n hn).trans hlength.symm

/-- Closing a row finds no number for it once there are as many rows as there are sizes.
That breaks it off before anything is looked at, and nothing is changed. -/
theorem closeRow_of_full (hfull : Size.max ≤ validity.length) (m : Ledger) :
    (struct validity columns).closeRow m =
      .stopped (struct validity columns) m (.brokenOff .sumTooLarge) := by
  have hrows : Size.add? validity.length 1 = none := by
    rw [Size.add?, if_neg (Nat.not_le.2 (Nat.lt_succ_of_le hfull))]
  rw [closeRow_struct, hrows]

/-- A field that has not just one value for the row makes closing it a fault, which
changes nothing. -/
theorem closeRow_of_findUneven {name : String} {held : Nat} (hroom : validity.length < Size.max)
    (huneven : columns.findUneven (validity.length + 1) = some (name, held)) (m : Ledger) :
    (struct validity columns).closeRow m = .stopped (struct validity columns) m
      (.invalidState (.unevenRow name held (validity.length + 1))) := by
  simp only [closeRow_struct, Size.add?_of_le (show validity.length + 1 ≤ Size.max from hroom),
    huneven]

/-- A null row leaves fields in step, and it leaves fields out of step. -/
theorem inStep_appendNull_iff {m : Ledger}
    (hok : ((struct validity columns).appendNull m).fault = none) :
    ((struct validity columns).appendNull m).value.InStep ↔ (struct validity columns).InStep := by
  have hnull : ((struct validity columns).appendNull m).Ensures fun w' =>
      ∃ validity' columns', w' = struct validity' columns' ∧
        validity'.length = validity.length + 1 ∧
        columns'.lengths = columns.lengths.map (· + 1) := by
    rw [appendNull_struct]
    refine Outcome.ensures_both fun hfirst => ?_
    have hlengths := columns.lengths_appendNull m hfirst
    exact (validity.ensures_length_append false _).imp fun validity' hvalidity' =>
      ⟨validity', _, rfl, hvalidity', hlengths⟩
  obtain ⟨validity', columns', hw', hvalidity', hcolumns'⟩ := hnull hok
  rw [hw', InStep, InStep, hvalidity', hcolumns', List.forall_mem_map]
  exact forall₂_congr fun n hn => Nat.add_right_cancel_iff

end Writer

/-- Every column holds the slots of the rows and then those that are pending. -/
def Writers.Track : (fields : LayoutFields) → Writers → List (Option fields.Cells) →
    fields.Pending → Prop
  | .nil, columns, _, _ => columns = .nil
  | .cons name layout nullable rest, columns,
      (rows : List (Option (Option layout.Cell × rest.Cells))), (slots, pending) =>
    ∃ (column : Writer) (others : Writers), columns = .cons name nullable column others ∧
      Writer.Holds layout column (rows.map (·.bind Prod.fst) ++ slots) ∧
      Writers.Track rest others (rows.map (·.map Prod.snd)) pending

/-- Columns track rows with nothing pending exactly if they hold these rows. -/
theorem Writers.track_nothing_iff : {fields : LayoutFields} → {columns : Writers} →
    {rows : List (Option fields.Cells)} →
    (columns.Track fields rows fields.nothing ↔ columns.Hold fields rows)
  | .nil, _, _ => Iff.rfl
  | .cons name layout nullable rest, columns,
      (rows : List (Option (Option layout.Cell × rest.Cells))) => by
    constructor
    · rintro ⟨column, others, hcolumns, hcolumn, hothers⟩
      rw [List.append_nil] at hcolumn
      exact ⟨column, others, hcolumns, hcolumn, track_nothing_iff.1 hothers⟩
    · rintro ⟨column, others, hcolumns, hcolumn, hothers⟩
      refine ⟨column, others, hcolumns, ?_, track_nothing_iff.2 hothers⟩
      rw [List.append_nil]
      exact hcolumn

namespace Writers.Track

/-- A column is found under a name at the place of the field with that name. -/
theorem place?_eq (name : String) : {fields : LayoutFields} → {columns : Writers} →
    {rows : List (Option fields.Cells)} → {pending : fields.Pending} →
    columns.Track fields rows pending → columns.place? name = fields.place? name
  | .nil, _, _, _, rfl => rfl
  | .cons .., _, _, _, ⟨column, others, rfl, _, hothers⟩ => by
    rw [Writers.place?, LayoutFields.place?, hothers.place?_eq name]

/-- Fields are in step exactly while nothing is pending. -/
theorem inStep_iff : {fields : LayoutFields} → {columns : Writers} →
    {rows : List (Option fields.Cells)} → {pending : fields.Pending} →
    columns.Track fields rows pending →
    ((∀ k ∈ columns.lengths, k = rows.length) ↔ pending = fields.nothing)
  | .nil, _, _, _, rfl => iff_of_true (fun _ hk => absurd hk List.not_mem_nil) rfl
  | .cons name layout nullable rest, _,
      (rows : List (Option (Option layout.Cell × rest.Cells))), (slots, pending),
      ⟨column, others, rfl, hcolumn, hothers⟩ => by
    have hfirst : column.length = rows.length ↔ slots = [] := by
      rw [hcolumn.length_eq, List.length_append, List.length_map, Nat.add_eq_left,
        List.length_eq_zero_iff]
    have hrest := hothers.inStep_iff
    rw [List.length_map] at hrest
    rw [Writers.lengths, List.forall_mem_cons]
    exact (and_congr hfirst hrest).trans (iff_of_eq (Prod.mk.injEq ..).symm)

/-- A value that is added to a field is pending for it. -/
theorem put {type : ValueType} {value : type.Datum} {m : Ledger} : (i : Nat) →
    {fields : LayoutFields} → {columns : Writers} → {rows : List (Option fields.Cells)} →
    {pending : fields.Pending} → columns.Track fields rows pending → {o : Outcome Writers} →
    columns.onPlace? (type.write value) i m = some o →
    o.Ensures fun columns' => ∃ pending', fields.put? type value i pending = some pending' ∧
      columns'.Track fields rows pending'
  | i, .nil, _, _, _, rfl, _, ho => by
    cases i <;> exact nomatch ho
  | 0, .cons name layout nullable rest, _,
      (rows : List (Option (Option layout.Cell × rest.Cells))), (slots, pending),
      ⟨column, others, rfl, hcolumn, hothers⟩, o, ho => by
    obtain rfl := Option.some.inj ho
    refine Outcome.ensures_map ((type.ensures_place value _ column m hcolumn).imp ?_)
    rintro column' ⟨slot, hslot, hcolumn'⟩
    rw [List.append_assoc] at hcolumn'
    refine ⟨(slots ++ [slot], pending), ?_, column', others, rfl, hcolumn', hothers⟩
    rw [LayoutFields.put?, hslot]
    rfl
  | i + 1, .cons name layout nullable rest, _,
      (rows : List (Option (Option layout.Cell × rest.Cells))), (slots, pending),
      ⟨column, others, rfl, hcolumn, hothers⟩, o, ho => by
    rw [Writers.onPlace?] at ho
    obtain ⟨o', ho', rfl⟩ := Option.map_eq_some_iff.1 ho
    refine Outcome.ensures_map ((hothers.put i ho').imp ?_)
    rintro others' ⟨pending', hput, hothers'⟩
    refine ⟨(slots, pending'), ?_, column, others', rfl, hcolumn, hothers'⟩
    rw [LayoutFields.put?, hput]
    rfl

/-- A row that may be closed is made of what is pending. -/
theorem row : {fields : LayoutFields} → {columns : Writers} →
    {rows : List (Option fields.Cells)} → {pending : fields.Pending} →
    columns.Track fields rows pending → columns.findUneven (rows.length + 1) = none →
    ∃ cells, fields.row? pending = some cells ∧ columns.Hold fields (rows ++ [some cells])
  | .nil, _, _, _, rfl, _ => ⟨(), rfl, rfl⟩
  | .cons name layout nullable rest, _,
      (rows : List (Option (Option layout.Cell × rest.Cells))), (slots, pending),
      ⟨column, others, rfl, hcolumn, hothers⟩, heven => by
    rw [Writers.findUneven] at heven
    split at heven
    · rename_i hlength
      rw [hcolumn.length_eq, List.length_append, List.length_map] at hlength
      obtain ⟨slot, rfl⟩ := List.length_eq_one_iff.1 (Nat.add_left_cancel hlength)
      obtain ⟨cells, hcells, hhold⟩ := hothers.row (by rwa [List.length_map])
      have hfirst : (rows ++ [some (slot, cells)]).map (·.bind Prod.fst) =
          rows.map (·.bind Prod.fst) ++ [slot] := by simp
      have hrest : (rows ++ [some (slot, cells)]).map (·.map Prod.snd) =
          rows.map (·.map Prod.snd) ++ [some cells] := by simp
      rw [← hfirst] at hcolumn
      rw [← hrest] at hhold
      refine ⟨(slot, cells), ?_, column, others, rfl, hcolumn, hhold⟩
      rw [LayoutFields.row?, hcells]
      rfl
    · exact absurd heven (Option.some_ne_none _)

end Writers.Track

namespace Writer

variable {fields : LayoutFields} {w : Writer} {t : Table fields}

/-- A struct has the closed rows of a table, and its fields hold what is pending as
well. -/
def Follows {fields : LayoutFields} (w : Writer) (t : Table fields) : Prop :=
  ∃ (validity : Validity) (columns : Writers), w = .struct validity columns ∧
    validity.Shows (t.rows.map Option.isSome) ∧ columns.Track fields t.rows t.pending

namespace Follows

/-- A struct that follows a table counts the rows that are closed in it. -/
theorem length_eq (h : w.Follows t) : w.length = t.rows.length := by
  obtain ⟨validity, columns, rfl, hvalidity, -⟩ := h
  exact hvalidity.length_eq.trans (List.length_map _)

/-- Its fields are in step exactly while nothing is pending. -/
theorem inStep_iff (h : w.Follows t) : w.InStep ↔ t.pending = fields.nothing := by
  have hrows := h.length_eq
  obtain ⟨validity, columns, rfl, -, hcolumns⟩ := h
  rw [Writer.length] at hrows
  rw [InStep, hrows]
  exact hcolumns.inStep_iff

/-- While nothing is pending a struct holds its rows. -/
theorem holds (h : w.Follows t) (hinStep : w.InStep) : w.Holds (.struct fields) t.rows := by
  have hpending := h.inStep_iff.1 hinStep
  obtain ⟨validity, columns, rfl, hvalidity, hcolumns⟩ := h
  rw [hpending] at hcolumns
  exact ⟨validity, columns, rfl, hvalidity, Writers.track_nothing_iff.1 hcolumns⟩

/-- Whoever holds rows follows the table of them, with nothing pending. -/
theorem of_holds {rows : List (Option fields.Cells)} (h : w.Holds (.struct fields) rows) :
    w.Follows { rows } := by
  obtain ⟨validity, columns, rfl, hvalidity, hcolumns⟩ := h
  exact ⟨validity, columns, rfl, hvalidity, Writers.track_nothing_iff.2 hcolumns⟩

/-- A value that is added to the field at a place is pending. -/
theorem put (h : w.Follows t) {type : ValueType} {value : type.Datum} (i : Nat) (m : Ledger) :
    (w.onField i (type.write value) m).Ensures fun w' =>
      ∃ pending, fields.put? type value i t.pending = some pending ∧
        w'.Follows { t with pending } := by
  obtain ⟨validity, columns, rfl, hvalidity, hcolumns⟩ := h
  rw [onField]
  cases hplace : columns.onPlace? (type.write value) i m with
  | none => exact Outcome.ensures_stopped
  | some o =>
    refine Outcome.ensures_map ((hcolumns.put i hplace).imp ?_)
    rintro columns' ⟨pending, hput, hcolumns'⟩
    exact ⟨pending, hput, validity, columns', rfl, hvalidity, hcolumns'⟩

/-- A row that is closed is made of what was pending. -/
theorem close (h : w.Follows t) (m : Ledger) :
    (w.closeRow m).Ensures fun w' =>
      ∃ row, fields.row? t.pending = some row ∧ w'.Follows { rows := t.rows ++ [some row] } := by
  have hrows := h.length_eq
  obtain ⟨validity, columns, rfl, hvalidity, hcolumns⟩ := h
  rw [Writer.length] at hrows
  rcases Nat.lt_or_ge validity.length Size.max with hroom | hfull
  · cases heven : columns.findUneven (validity.length + 1) with
    | some uneven =>
      rw [closeRow_of_findUneven hroom heven]
      exact Outcome.ensures_stopped
    | none =>
      rw [hrows] at heven
      obtain ⟨row, hrow, hcolumns'⟩ := hcolumns.row heven
      exact (ensures_closeRow hvalidity hcolumns' m).imp fun w' h' => ⟨row, hrow, of_holds h'⟩
  · rw [closeRow_of_full hfull]
    exact Outcome.ensures_stopped

/-- A null row is added while nothing is pending, and then nothing is pending. -/
theorem null (h : w.Follows t) (hinStep : w.InStep) (m : Ledger) :
    (w.appendNull m).Ensures fun w' => w'.Follows { t with rows := t.rows ++ [none] } := by
  rw [h.inStep_iff.1 hinStep]
  exact ((h.holds hinStep).appendNull m).imp fun w' h' => of_holds h'

/-- A struct follows its table through every operation that is done, if null rows are added in step
only. -/
theorem run (h : w.Follows t) {op : RowOp} (hnull : op = .null → w.InStep) (m : Ledger) :
    (op.run w m).Ensures fun w' => ∃ t', op.log t = some t' ∧ w'.Follows t' := by
  cases op with
  | field i type value =>
    refine (h.put i m).imp ?_
    rintro w' ⟨pending, hput, h'⟩
    exact ⟨_, by rw [RowOp.log, hput, Option.map_some], h'⟩
  | named name type value =>
    have hput (i : Nat) : (w.onField i (type.write value) m).Ensures fun w' => ∃ pending,
        fields.put? type value i t.pending = some pending ∧ w'.Follows { t with pending } :=
      h.put i m
    obtain ⟨validity, columns, rfl, -, hcolumns⟩ := h
    rw [RowOp.run, onFieldNamed, hcolumns.place?_eq name]
    cases hplace : fields.place? name with
    | none => exact Outcome.ensures_stopped
    | some i =>
      refine (hput i).imp ?_
      rintro w' ⟨pending, hput, h'⟩
      exact ⟨_, by rw [RowOp.log, hplace, Option.bind_some, hput, Option.map_some], h'⟩
  | close =>
    refine (h.close m).imp ?_
    rintro w' ⟨row, hrow, h'⟩
    exact ⟨_, by rw [RowOp.log, hrow, Option.map_some], h'⟩
  | null => exact (h.null (hnull rfl) m).imp fun w' h' => ⟨_, rfl, h'⟩

end Follows

/-- Filling a struct from the start makes it follow the table of what was done. -/
theorem Fills.follows {m m' : Ledger} {start : Writer} {ops : List RowOp}
    (hnew : new (.struct fields) m = (.ok start, m')) (h : start.Fills ops w) :
    ∃ t, Table.after fields ops = some t ∧ w.Follows t := by
  induction h with
  | here => exact ⟨{}, rfl, .of_holds (holds_new _ hnew)⟩
  | @step ops w op m _ hnull hok ih =>
    obtain ⟨t, ht, hfollows⟩ := ih
    obtain ⟨t', ht', hfollows'⟩ := hfollows.run hnull m hok
    refine ⟨t', ?_, hfollows'⟩
    rw [Table.after] at ht ⊢
    rw [List.foldlM_append, ht]
    exact (bind_pure _).trans ht'

/-- **Rows stay in step.**  Of whatever struct, a row is closed only with all fields
in step, and a field that has not just one value for the row makes closing a fault
that leaves all as it was; at the last size closing breaks off, which leaves all as it
was, too.  A null row is added without such a look: it takes fields in step to fields
in step, and others to others.

So a struct follows its table while null rows are added between rows only.  Its
fields are in step exactly while nothing is pending, and then it is finished with
the rows of the table, if the layout admits them. -/
theorem rows_inStep (validity : Validity) (columns : Writers) (m : Ledger) :
    (((struct validity columns).closeRow m).fault = none →
      ((struct validity columns).closeRow m).value.InStep) ∧
    ((∃ held ∈ columns.lengths, held ≠ validity.length + 1) →
      (validity.length < Size.max ∧
        ∃ name, ∃ held ∈ columns.lengths, held ≠ validity.length + 1 ∧
          (struct validity columns).closeRow m = .stopped (struct validity columns) m
            (.invalidState (.unevenRow name held (validity.length + 1)))) ∨
      Size.max ≤ validity.length ∧
        (struct validity columns).closeRow m =
          .stopped (struct validity columns) m (.brokenOff .sumTooLarge)) ∧
    (((struct validity columns).appendNull m).fault = none →
      (((struct validity columns).appendNull m).value.InStep ↔
        (struct validity columns).InStep)) ∧
    ∀ {fields : LayoutFields} {m₀ m₁ : Ledger} {start w : Writer} {ops : List RowOp},
      new (.struct fields) m₀ = (.ok start, m₁) → start.Fills ops w →
      ∃ t, Table.after fields ops = some t ∧ w.length = t.rows.length ∧
        (w.InStep ↔ t.pending = fields.nothing) ∧
        (w.InStep → fields.AdmitAll t.rows →
          w.finish = .ok ((Layout.struct fields).chunk t.rows)) := by
  refine ⟨inStep_closeRow, ?_, inStep_appendNull_iff, ?_⟩
  · rintro ⟨held, hheld, hne⟩
    rcases Nat.lt_or_ge validity.length Size.max with hroom | hfull
    · cases heven : columns.findUneven (validity.length + 1) with
      | none => exact absurd (Writers.findUneven_eq_none_iff.1 heven held hheld) hne
      | some uneven =>
        obtain ⟨name, held⟩ := uneven
        obtain ⟨hmem, hne⟩ := Writers.mem_lengths_of_findUneven heven
        exact .inl ⟨hroom, name, held, hmem, hne, closeRow_of_findUneven hroom heven m⟩
    · exact .inr ⟨hfull, closeRow_of_full hfull m⟩
  · intro fields m₀ m₁ start w ops hnew hfills
    obtain ⟨t, ht, hfollows⟩ := hfills.follows hnew
    exact ⟨t, ht, hfollows.length_eq, hfollows.inStep_iff, fun hinStep hadmits =>
      (hfollows.holds hinStep).finish_eq hadmits⟩

/-- Two numbers in every row. -/
private def pointFields : LayoutFields :=
  .cons "x" (.number .float32) false (.cons "y" (.number .float32) false .nil)

/-- A new struct of points. -/
private def points : Writer :=
  match new (.struct pointFields) {} with
  | (.ok w, _) => w
  | (.error _, _) => .struct (.new 0) .nil

/-- The validity and the columns of points whose first row has just its first number. -/
private def halfPoint : Validity × Writers :=
  match (points.onField 0 ((ValueType.number .float32).write 0x3f800000#32) {}).value with
  | .struct validity columns => (validity, columns)
  | _ => (.new 0, .nil)

/-- A point whose second number is missing is not closed.  With the number it is a
row, and a null row goes with it. -/
theorem rows_inStep_points :
    (∃ name held, (struct halfPoint.1 halfPoint.2).closeRow {} =
      .stopped (struct halfPoint.1 halfPoint.2) {} (.invalidState (.unevenRow name held 1))) ∧
    ∃ w, points.Fills [.field 0 (.number .float32) 0x3f800000#32,
        .named "y" (.number .float32) 0x40000000#32, .close, .null] w ∧ w.InStep ∧
      w.finish = .ok ((Layout.struct pointFields).chunk
        [some (some 0x3f800000#32, some 0x40000000#32, ()), none]) := by
  obtain ⟨-, hrefused, -, hfollows⟩ := rows_inStep halfPoint.1 halfPoint.2 {}
  refine ⟨?_, ?_⟩
  · rcases hrefused ⟨0, by decide, by decide⟩ with ⟨-, name, held, -, -, hstopped⟩ | ⟨hfull, -⟩
    · exact ⟨name, held, hstopped⟩
    · exact absurd hfull (by decide)
  · have hnew : new (.struct pointFields) {} = (.ok points, (new (.struct pointFields) {}).2) := rfl
    have hstart : points.Fills [] points := .here
    have hfirst := hstart.step (.field 0 (.number .float32) 0x3f800000#32) {} nofun rfl
    have hsecond := hfirst.step (.named "y" (.number .float32) 0x40000000#32) {} nofun rfl
    have hrow := hsecond.step .close {} nofun rfl
    have hnull := hrow.step .null {} (fun _ => by decide) rfl
    obtain ⟨t, ht, -, hinStep, hfinish⟩ :=
      hfollows hnew hnull
    obtain rfl := Option.some.inj ht
    refine ⟨_, hnull, hinStep.2 rfl, hfinish (hinStep.2 rfl) ?_⟩
    intro slot hslot row hrow
    rcases List.mem_cons.1 hslot with rfl | hlast
    · obtain rfl := Option.some.inj hrow
      exact ⟨fun _ => rfl, fun _ _ => trivial, fun _ => rfl, fun _ _ => trivial, trivial⟩
    · obtain rfl := List.mem_singleton.1 hlast
      exact nomatch hrow

/-- A null row is added to the same half row, which puts the fields out of step for
good: the struct cannot be finished any more. -/
theorem rows_inStep_half_fails :
    points.Fills [.field 0 (.number .float32) 0x3f800000#32] (struct halfPoint.1 halfPoint.2) ∧
      ((struct halfPoint.1 halfPoint.2).appendNull {}).fault = none ∧
      ((struct halfPoint.1 halfPoint.2).appendNull {}).value.length = 1 ∧
      ¬ ((struct halfPoint.1 halfPoint.2).appendNull {}).value.InStep ∧
      ((struct halfPoint.1 halfPoint.2).appendNull {}).value.finish = .error (.maskLength 2 1) := by
  have hstart : points.Fills [] points := .here
  have hhalf := hstart.step (.field 0 (.number .float32) 0x3f800000#32) {} nofun rfl
  exact ⟨hhalf, rfl, rfl, by decide, rfl⟩

end Writer

end Columnar
