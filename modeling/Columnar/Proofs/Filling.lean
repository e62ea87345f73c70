import Columnar.Outcome
import Columnar.Proofs.Extents
import Columnar.Proofs.Lifetimes
/-!
# Filling a column in portions

A column that works can be filled with records in as many portions as one likes.
Each portion either adds just its records or makes the column fail; a portion
that the column is not for, or that counts more records than there are, changes
nothing at all.  The only other way is that filling breaks off, which takes more
slots than there are sizes.

What is finished in the end depends on the records alone.  The portions reserve
room for the items of lists at other moments, so the columns in between differ
in their memory, and the masks are made when other room is planned.  But a
filling is a run of operations that adds its records and nothing else, and for
such runs reserving never shows.
-/

namespace Columnar

namespace Column

/-- What becomes of a column that was worked on: it works still, for the same layout
and with that many slots, or it has failed. -/
def Worked (layout : Layout) (slots : Nat) (o : Outcome Column) : Prop :=
  (o.fault = none ∧ o.value.stage.isClosed = false ∧ o.value.layout = layout ∧
      o.value.length = slots) ∨
    ((∃ fault, o.fault = some fault) ∧ o.value.stage = .failed)

/-- How many slots there are after an operation that is done. -/
def slotsAfter (op : ColumnOp) (slots : Nat) : Nat :=
  if op.adds then slots + 1 else slots

/-- An operation on a column that works adds one slot or none, or the column fails. -/
theorem worked_run {c : Column} (hopen : c.stage.isClosed = false) (op : ColumnOp) (m : Ledger) :
    Worked c.layout (slotsAfter op c.length) (op.run c m) := by
  obtain ⟨before, writer, hstate⟩ := exists_of_isOpen hopen
  have hlength : c.length = writer.length := by
    have hwriter : c.writer? = some writer := by rw [writer?, hstate]
    rw [Column.length, hwriter]
    rfl
  rw [op.run_eq, apply_eq hstate]
  cases hfault : (op.work c.hint writer m).fault with
  | some fault =>
    rw [Outcome.elim_of_some hfault]
    exact .inr ⟨⟨fault, rfl⟩, rfl⟩
  | none =>
    rw [Outcome.elim_of_none hfault]
    refine .inl ⟨rfl, ?_, rfl, ?_⟩
    · show (before.further op.progress).stage.isClosed = false
      cases before.further op.progress <;> rfl
    · show (op.work c.hint writer m).value.length = slotsAfter op c.length
      rw [hlength, slotsAfter]
      cases hadds : op.adds with
      | false => exact op.length_work hadds c.hint writer m
      | true => exact ColumnOp.addsSlot_work c.hint hadds writer m hfault

/-- Records that are added one after the other are one slot each, or the column
fails. -/
theorem Worked.foldl {type : ValueType} (records : List type.Datum) {layout : Layout}
    {slots : Nat} {o : Outcome Column} (h : Worked layout slots o) :
    Worked layout (slots + records.length)
      (records.foldl (fun o record => o.andThen (type.writeSlot record)) o) := by
  induction records generalizing slots o with
  | nil => exact h
  | cons record records ih =>
    have hfirst : Worked layout (slots + 1) (o.andThen (type.writeSlot record)) := by
      rcases h with ⟨hok, hopen, rfl, rfl⟩ | ⟨⟨fault, hfault⟩, hfailed⟩
      · rw [Outcome.andThen_of_none hok, type.writeSlot_eq_append]
        exact worked_run hopen (.append type record) o.ledger
      · rw [Outcome.andThen_of_some hfault]
        exact .inr ⟨⟨fault, hfault⟩, hfailed⟩
    have hrest := ih hfirst
    rwa [Nat.add_assoc, Nat.add_comm 1] at hrest

/-- Records that are added one after the other continue a run. -/
theorem Runs.ensures_foldl {type : ValueType} (records : List type.Datum) {start : Column}
    {ops : List ColumnOp} {o : Outcome Column} (h : o.Ensures (start.Runs ops)) :
    (records.foldl (fun o record => o.andThen (type.writeSlot record)) o).Ensures
      (start.Runs (ops ++ records.map (.append type))) := by
  induction records generalizing ops o with
  | nil => rwa [List.map_nil, List.append_nil]
  | cons record records ih =>
    have hfirst : (o.andThen (type.writeSlot record)).Ensures
        (start.Runs (ops ++ [.append type record])) := by
      refine h.andThen fun c m hruns hok => ?_
      rw [type.writeSlot_eq_append] at hok ⊢
      exact hruns.step (.append type record) m hok
    have hrest := ih hfirst
    rwa [List.append_assoc] at hrest

end Column

namespace Component

variable {r : Registry} {c : Component}

/-- Records to fill a column with, and how many of them. -/
abbrev Portion (c : Component) : Type := List c.Datum × Nat

/-- Fills a column with a portion: with the first records of a list, as many as the portion counts.
-/
def fillPortion (r : Registry) (c : Component) (portion : c.Portion) (column : Column)
    (m : Ledger) : Outcome Column :=
  c.fill r column portion.1 portion.2 m

/-- The records that portions fill a column with, in order. -/
def filled {σ : Type} (steps : List (Step c.Portion σ)) : List c.Datum :=
  steps.flatMap fun s => s.op.1.take s.op.2

/-- Filling with a count of more records than there are, or a column of another layout, is turned
away, which changes nothing. -/
theorem fill_of_misfit {column : Column} {records : List c.Datum} {count : Nat} {m : Ledger}
    (h : records.length < count ∨ column.layout ≠ (r.entryFor c).layout) :
    ∃ cause, c.fill r column records count m = .stopped column m (.invalidArgument cause) := by
  unfold fill
  by_cases hcount : records.length < count
  · exact ⟨_, if_pos hcount⟩
  · rw [if_neg hcount]
    exact ⟨_, if_pos (h.resolve_left hcount)⟩

/-- What is not turned away makes room for items and adds the records. -/
theorem fill_of_fits {column : Column} {records : List c.Datum} {count : Nat} {m : Ledger}
    (hcount : count ≤ records.length) (hlayout : column.layout = (r.entryFor c).layout) :
    c.fill r column records count m =
      (records.take count).foldl (fun o record => o.andThen (c.type.writeSlot record))
        (c.type.makeRoom (records.take count) column m) := by
  unfold fill
  rw [if_neg (Nat.not_lt.2 hcount), if_neg (not_not_intro hlayout)]

/-- Filling a column of lists with more items than there are sizes breaks off before anything is
done: the column is neither filled nor has it failed. -/
theorem fill_of_sumTooLarge {column : Column} {records : List c.Datum} {count : Nat}
    (hcount : count ≤ records.length) (hlayout : column.layout = (r.entryFor c).layout)
    (hlist : column.layout.isList = true)
    (hlarge : Size.max < c.type.itemTotal (records.take count)) (m : Ledger) :
    c.fill r column records count m = .stopped column m (.brokenOff .sumTooLarge) := by
  rw [fill_of_fits hcount hlayout]
  obtain ⟨-, -, hsize⟩ | ⟨hroom, -⟩ | ⟨-, hother⟩ := c.type.makeRoom_eq (records.take count) column
  · exact absurd hsize (Nat.not_le.2 hlarge)
  · rw [hroom]
    exact Outcome.foldl_stopped _ _ _ _ _
  · exact Bool.noConfusion (hlist.symm.trans hother)

/-- Encoding more items than there are sizes breaks off, too, once the column is made and has
room for the records. -/
theorem encode_of_sumTooLarge {records : List c.Datum} {hint : Nat} {start : Column}
    {m m' : Ledger} (hnew : Column.new (r.entryFor c).layout m = (.ok start, m'))
    (hreserved : ((start.withHint hint).reserve records.length m').fault = none)
    (hlist : (r.entryFor c).layout.isList = true) (hlarge : Size.max < c.type.itemTotal records) :
    (c.encode r records hint m).1 = .error (.fault (.brokenOff .sumTooLarge)) := by
  obtain ⟨hlayout, -⟩ := ((Column.holds_new hnew).withHint hint).reserve records.length m' hreserved
  have hbroken := fill_of_sumTooLarge (Nat.le_refl records.length) hlayout (hlayout ▸ hlist)
    (by rwa [List.take_length])
  rw [encode_eq, hnew]
  dsimp only [Made.elim]
  rw [Outcome.andThen_of_none hreserved, hbroken]
  rfl

/-- A filling that is done goes on with a run, and adds the first records. -/
theorem exists_runs_fill {start column : Column} {ops : List ColumnOp}
    (h : start.Runs ops column) {records : List c.Datum} {count : Nat} {m : Ledger}
    (hok : (c.fill r column records count m).fault = none) :
    ∃ ops', start.Runs ops' (c.fill r column records count m).value ∧
      ops'.filter ColumnOp.adds =
        ops.filter ColumnOp.adds ++ (records.take count).map (.append c.type) := by
  have hfits : count ≤ records.length ∧ column.layout = (r.entryFor c).layout := by
    by_contra hnot
    have hmisfit : records.length < count ∨ column.layout ≠ (r.entryFor c).layout := by
      rcases Nat.lt_or_ge records.length count with hlt | hge
      · exact .inl hlt
      · exact .inr fun hlayout => hnot ⟨hge, hlayout⟩
    obtain ⟨cause, hfill⟩ := fill_of_misfit (m := m) hmisfit
    rw [hfill] at hok
    exact nomatch hok
  rw [fill_of_fits hfits.1 hfits.2] at hok ⊢
  have hadded : ((records.take count).map (ColumnOp.append c.type)).filter ColumnOp.adds =
      (records.take count).map (.append c.type) :=
    List.filter_eq_self.2 fun op hop => by
      obtain ⟨record, -, rfl⟩ := List.mem_map.1 hop
      rfl
  have hready : ∃ ops', (c.type.makeRoom (records.take count) column m).Ensures (start.Runs ops') ∧
      ops'.filter ColumnOp.adds = ops.filter ColumnOp.adds := by
    obtain ⟨hroom, -⟩ | ⟨hroom, -⟩ | ⟨hroom, -⟩ := c.type.makeRoom_eq (records.take count) column
    · rw [hroom]
      exact ⟨_, fun hreserved => h.step (.reserveItems _) m hreserved,
        Column.filter_append_of_not_adds rfl⟩
    · rw [hroom]
      exact ⟨ops, Outcome.ensures_stopped, rfl⟩
    · rw [hroom]
      exact ⟨ops, Outcome.ensures_done h, rfl⟩
  obtain ⟨ops', hruns, hsame⟩ := hready
  refine ⟨_, Column.Runs.ensures_foldl _ hruns hok, ?_⟩
  rw [List.filter_append, hsame, hadded]

/-- A smooth history of fillings goes on with a run, and adds all their records. -/
theorem exists_runs_of_history {start column last : Column} {ops : List ColumnOp}
    (h : start.Runs ops column) {steps : List (Step c.Portion Column)}
    (hsteps : History (fillPortion r c) column steps last) (hok : Smooth (fillPortion r c) steps) :
    ∃ ops', start.Runs ops' last ∧
      ops'.filter ColumnOp.adds =
        ops.filter ColumnOp.adds ++ (filled steps).map (.append c.type) := by
  induction hsteps with
  | here => exact ⟨ops, h, (List.append_nil _).symm⟩
  | step portion m _ ih =>
    obtain ⟨hearlier, hlast⟩ := smooth_append_singleton.1 hok
    obtain ⟨ops', hruns, hadds⟩ := ih hearlier
    obtain ⟨ops'', hruns', hadds'⟩ := exists_runs_fill hruns hlast
    refine ⟨ops'', hruns', ?_⟩
    rw [hadds', hadds, filled, filled, List.flatMap_append, List.map_append, List.append_assoc,
      List.flatMap_singleton]

/-- Encoding that is not refused finishes a run that adds just the records. -/
theorem encode_eq_finish {records : List c.Datum} {hint : Nat} {m : Ledger} :
    (∃ fault, (c.encode r records hint m).1 = .error (.fault fault)) ∨
      ∃ start m' ops last n, Column.new (r.entryFor c).layout m = (.ok start, m') ∧
        start.Runs ops last ∧ ops.filter ColumnOp.adds = records.map (.append c.type) ∧
        (c.encode r records hint m).1 = (last.finish n).1 := by
  rw [encode_eq]
  rcases hnew : Column.new (r.entryFor c).layout m with ⟨fault | start, m'⟩
  · exact .inl ⟨fault, rfl⟩
  · dsimp only [Made.elim]
    have hhinted : start.Runs [] (start.withHint hint) := Column.Runs.here.hinted hint
    cases hfilled : (((start.withHint hint).reserve records.length m').andThen fun column m =>
        c.fill r column records records.length m).fault with
    | some fault =>
      rw [Outcome.elim_of_some hfilled]
      exact .inl ⟨fault, rfl⟩
    | none =>
      rw [Outcome.elim_of_none hfilled]
      obtain ⟨hreserved, hrecords⟩ := Outcome.fault_andThen_eq_none_iff.1 hfilled
      have hroomy := hhinted.step (.reserve records.length) m' hreserved
      obtain ⟨ops, hruns, hadds⟩ := exists_runs_fill hroomy hrecords
      rw [List.take_length] at hadds
      rw [Outcome.andThen_of_none hreserved]
      exact .inr ⟨start, m', ops, _, _, rfl, hruns, hadds, rfl⟩

/-- What filling a column comes to, in one portion or in many. -/
structure Fills (r : Registry) (c : Component) (column : Column) : Prop where
  /-- A portion is turned away, and nothing changes, if it counts more records than
  there are or the column has another layout. -/
  turned_away : ∀ (records : List c.Datum) (count : Nat) (m : Ledger),
    records.length < count ∨ column.layout ≠ (r.entryFor c).layout →
    ∃ cause, c.fill r column records count m = .stopped column m (.invalidArgument cause)
  /-- Any other portion adds as many slots as it counts, or the column has failed, unless
  filling breaks off. -/
  done_or_failed : ∀ (records : List c.Datum) (count : Nat) (m : Ledger),
    count ≤ records.length → column.layout = (r.entryFor c).layout →
    (∀ fault, (c.fill r column records count m).fault = some fault → fault.isBreak = false) →
    Column.Worked column.layout (column.length + count) (c.fill r column records count m)
  /-- Filling does not break off where each count inside the column, with all that the records
  add to it, is a size. -/
  unbroken : ∀ (records : List c.Datum) (count : Nat) (m : Ledger),
    column.Headroom (c.type.extentTotal (records.take count)) →
    ∀ fault, (c.fill r column records count m).fault = some fault → fault.isBreak = false
  /-- Inside a new column that nothing was added to this is just what the records add, and after
  additions it is what they and the records add. -/
  headroom : ∀ (start : Column) (m m' : Ledger) (ops : List ColumnOp) (records : List c.Datum),
    Column.new (r.entryFor c).layout m = (.ok start, m') → start.Runs ops column →
    ColumnOp.extentTotal ops + c.type.extentTotal records ≤ Size.max →
    column.Headroom (c.type.extentTotal records)
  /-- Only the first records count: two lists that start with the same ones fill a column alike. -/
  takes_first : ∀ (records records' : List c.Datum) (count : Nat) (m : Ledger),
    count ≤ records.length → count ≤ records'.length →
    records.take count = records'.take count →
    c.fill r column records count m = c.fill r column records' count m
  /-- Portions with the same records are finished alike, of which one may be a single
  portion. -/
  finish_eq : ∀ (steps steps' : List (Step c.Portion Column)) (last last' : Column),
    History (fillPortion r c) column steps last → Smooth (fillPortion r c) steps →
    History (fillPortion r c) column steps' last' → Smooth (fillPortion r c) steps' →
    filled steps = filled steps' → ∀ n n', (last.finish n).1 = (last'.finish n').1
  /-- If nothing was added before, they are finished as encoding all the records
  does, unless that is refused. -/
  encode_eq : ∀ (start : Column) (m m' : Ledger) (ops : List ColumnOp),
    Column.new (r.entryFor c).layout m = (.ok start, m') → start.Runs ops column →
    ops.filter ColumnOp.adds = [] →
    ∀ (steps : List (Step c.Portion Column)) (last : Column),
      History (fillPortion r c) column steps last → Smooth (fillPortion r c) steps →
      ∀ (hint : Nat) (n n' : Ledger),
        (∃ fault, (c.encode r (filled steps) hint n).1 = .error (.fault fault)) ∨
          (c.encode r (filled steps) hint n).1 = (last.finish n').1

/-- Collections of numbers that may be missing. -/
private def scoresComponent : Component where
  name := "samples.Scores"
  type := .collection (.option (.number .uint16))

/-- A collection of a number and a missing one, one without numbers, and one of a
number. -/
private def scoresRecords : List scoresComponent.Datum :=
  [.populated [some 7#16, none], .unset, .populated [some 9#16]]

/-- A new column for the collections. -/
private def scoresColumn : Column :=
  match Column.new scoresComponent.type.layout {} with
  | (.ok c, _) => c
  | (.error _, _) => { layout := .boolean, state := .finished }

/-- One record, and then the two others out of three. -/
private def scoresPortions : List scoresComponent.Portion :=
  [(scoresRecords, 1), (scoresRecords.drop 1 ++ [.empty], 2)]

/-- Flags. -/
private def flagComponent : Component := ⟨"samples.Flag", .boolean⟩

/-- A column of flags with one flag in it. -/
private def flagColumn : Column :=
  match Column.new .boolean {} with
  | (.ok c, m) => ((ColumnOp.append .boolean true).run c m).value
  | (.error _, _) => { layout := .boolean, state := .finished }

/-- Collections of records without fields, which take no memory. -/
private def blanksComponent : Component := ⟨"samples.Blanks", .collection (.record "Blank" .nil)⟩

/-- Half as many records without fields as there are sizes. -/
private def manyBlanks : blanksComponent.Datum := .populated (List.replicate 0x8000000000000000 ())

/-- A new column for the collections. -/
private def blanksColumn : Column :=
  match Column.new blanksComponent.type.layout {} with
  | (.ok c, _) => c
  | (.error _, _) => { layout := .boolean, state := .finished }

end Component

end Columnar
