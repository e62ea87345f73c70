import Columnar.Proofs.Filling
import Columnar.Proofs.Sufficing
/-!
# Columns with provisions

A layout suffices if reserving for it is a promise: after a reservation that was
granted, the additions that it was made for ask the ledger for masks only.  Every
layout of fixed size suffices, and so do lists of its slots once both lists and
items are reserved.  So encoding components without nulls cannot be refused any
more once it has reserved.
-/

namespace Columnar

open Maskable

/-- What encoding reserves in a new column before it adds the records. -/
def Component.provision (c : Component) (records : List c.Datum) (hint : Nat) (start : Column)
    (m : Ledger) : Outcome Column :=
  ((start.withHint hint).reserve records.length m).andThen fun column m =>
    c.type.makeRoom records column m

/-- **What reserving for a layout is good for.** -/
structure Layout.Suffices (layout : Layout) : Prop where
  /-- A writer with any history that has just reserved `n` slots takes `n` more, and
  asks only for masks. -/
  writers : ∀ (hint capacity content : Nat) (m m' : Ledger) (start : Writer),
    Writer.newWith capacity content layout m = (.ok start, m') →
    ∀ (earlier : List (Step ColumnOp Writer)) (w : Writer),
      History (ColumnOp.work hint) start earlier w → Smooth (ColumnOp.work hint) earlier →
      ∀ (n : Nat) (m : Ledger), (w.reserve n m).fault = none →
        ∀ added : List ColumnOp, (∀ op ∈ added, op.Adds layout) → added.length ≤ n →
          Covered (ColumnOp.work hint) ColumnOp.NullFree (fun _ => False) (w.reserve n m).value
            added
  /-- In a writer with any history just the masks of columns without nulls were not
  made: so a mask is made with the first null. -/
  masks : ∀ (hint capacity content : Nat) (m m' : Ledger) (start : Writer),
    Writer.newWith capacity content layout m = (.ok start, m') →
    ∀ (earlier : List (Step ColumnOp Writer)) (w : Writer),
      History (ColumnOp.work hint) start earlier w → Smooth (ColumnOp.work hint) earlier →
      ∃ slots : List (Option layout.Cell), w.Holds layout slots ∧
        unmasked w = layout.nullFreeColumns slots
  /-- A column of lists that has reserved `k` slots and `j` items, in any order, takes
  `k` more with `j` items altogether, and asks only for masks. -/
  lists : ∀ (nullable : Bool) (m m' : Ledger) (start : Column),
    Column.new (.list layout nullable) m = (.ok start, m') →
    ∀ (earlier : List ColumnOp) (before : Column), start.Runs earlier before →
      ∀ (reserving : List (Step ColumnOp Column)) (c : Column),
        History ColumnOp.run before reserving c → Smooth ColumnOp.run reserving →
        (∀ s ∈ reserving, s.op.adds = false) →
        ∀ k j, .reserve k ∈ reserving.map (·.op) → .reserveItems j ∈ reserving.map (·.op) →
          ∀ added : List ColumnOp, (∀ op ∈ added, op.Adds (.list layout nullable)) →
            added.length ≤ k → ColumnOp.childTotal added ≤ j →
            Covered ColumnOp.run ColumnOp.NullFree Fault.IsTooLarge c added
  /-- In a column of lists just the masks of columns without nulls were not made. -/
  list_masks : ∀ (nullable : Bool) (m m' : Ledger) (start : Column),
    Column.new (.list layout nullable) m = (.ok start, m') →
    ∀ (earlier : List ColumnOp) (c : Column), start.Runs earlier c →
      Column.Keeps (.list layout nullable) c (Column.slotsOf (.list layout nullable) earlier) ∧
        unmasked c = (Layout.list layout nullable).nullFreeColumns
          (Column.slotsOf (.list layout nullable) earlier)
  /-- Components of the layout, or lists of it, without nulls are encoded once all is
  reserved; no more is asked for. -/
  encodes : ∀ (r : Registry) (c : Component), (r.entryFor c).layout = c.type.layout →
    (c.type.layout = layout ∨ ∃ nullable, c.type.layout = .list layout nullable) →
    ∀ records : List c.Datum,
      (∀ record ∈ records, c.type.NullFree record) →
      ∀ (hint : Nat) (m m' : Ledger) (start : Column),
        Column.new c.type.layout m = (.ok start, m') →
        (c.provision records hint start m').fault = none →
        (c.encode r records hint m).2.requests =
            (c.provision records hint start m').ledger.requests ∧
          ((∃ chunk, (c.encode r records hint m).1 = .ok chunk) ∨
            ∃ fault, (c.encode r records hint m).1 = .error (.fault fault) ∧
              c.type.layout.Overruns fault)

variable {layout : Layout}

/-- What a history of writers leads to holds slots. -/
theorem ColumnOp.exists_holds_of_history {hint : Nat} {start w : Writer}
    {steps : List (Step ColumnOp Writer)} (h : History (ColumnOp.work hint) start steps w)
    (hok : Smooth (ColumnOp.work hint) steps)
    {slots : List (Option layout.Cell)} (hstart : start.Holds layout slots) :
    ∃ slots', w.Holds layout slots' := by
  induction h with
  | here => exact ⟨slots, hstart⟩
  | step op m _ ih =>
    obtain ⟨hearlier, hlast⟩ := smooth_append_singleton.1 hok
    obtain ⟨slots', hslots⟩ := ih hearlier
    obtain ⟨-, hnext⟩ := op.ensures_work hint hslots m hlast
    exact ⟨_, hnext⟩

/-- A writer with room to spare for additions covers them: they ask for nothing but masks, and no
memory is lacking for the rest. -/
theorem Writer.Spare.covered (hfixed : layout.isFixed = true) {n : Nat} {w : Writer}
    (h : w.Spare n layout) (hint : Nat) {added : List ColumnOp}
    (hadded : ∀ op ∈ added, op.Adds layout) (hcount : added.length ≤ n) :
    Covered (ColumnOp.work hint) ColumnOp.NullFree (fun _ => False) w added := by
  have hlist : layout.isList = false := by
    cases layout with
    | list => exact Bool.noConfusion hfixed
    | _ => rfl
  refine covered_of_ready (I := fun ops w => (∀ op ∈ ops, op.Adds layout) ∧
    ∃ k, w.Spare (ops.length + k) layout) ?_ ⟨hadded, n - added.length, by
      rwa [Nat.add_sub_cancel' hcount]⟩
  rintro op rest w m ⟨hops, k, hspare⟩
  obtain ⟨hop, hrest⟩ := List.forall_mem_cons.1 hops
  rw [List.length_cons, Nat.add_right_comm] at hspare
  have hready : w.Ready (rest.length + k + 1) (0 + op.children) layout :=
    (Writer.ready_iff_of_not_isList hlist).2 hspare
  refine ((ColumnOp.frugal_work hop hint hready m).relax ?_).imp ?_ id
  · rintro fault ⟨hoverrun, -⟩
    rw [hlist] at hoverrun
    exact Bool.noConfusion hoverrun
  · exact fun w' h' => ⟨hrest, k, (Writer.ready_iff_of_not_isList hlist).1 h'⟩

namespace Column

variable {k j : Nat}

/-- A column that keeps slots has room for them. -/
theorem Keeps.ready_zero {c : Column} {slots : List (Option layout.Cell)}
    (h : Keeps layout c slots) (hlevel : layout.isLevel = true) : c.Ready 0 0 := by
  obtain ⟨rfl, progress, writer, hstate, hwriter⟩ := h
  exact ⟨progress, writer, hstate, hwriter.ready_zero hlevel⟩

/-- In a column that keeps slots the masks that were not made are those of columns
without nulls. -/
theorem Keeps.unmasked_eq {c : Column} {slots : List (Option layout.Cell)}
    (h : Keeps layout c slots) : unmasked c = layout.nullFreeColumns slots := by
  obtain ⟨-, progress, writer, hstate, hwriter⟩ := h
  rw [unmasked_of_usable hstate, hwriter.unmasked_eq]

/-- A column with room to spare for additions covers them: they ask for nothing but masks, and no
memory is lacking for the rest. -/
theorem Ready.covered {c : Column} (h : c.Ready k j) {added : List ColumnOp}
    (hadded : ∀ op ∈ added, op.Adds c.layout) (hcount : added.length ≤ k)
    (hitems : ColumnOp.childTotal added ≤ j) :
    Covered ColumnOp.run ColumnOp.NullFree Fault.IsTooLarge c added := by
  refine covered_of_ready (I := fun ops c => (∀ op ∈ ops, op.Adds c.layout) ∧
    ∃ k j, c.Ready (ops.length + k) (j + ColumnOp.childTotal ops)) ?_
    ⟨hadded, k - added.length, j - ColumnOp.childTotal added, by
      rwa [Nat.add_sub_cancel' hcount, Nat.sub_add_cancel hitems]⟩
  rintro op rest c m ⟨hops, k, j, hready⟩
  obtain ⟨hop, hrest⟩ := List.forall_mem_cons.1 hops
  rw [List.length_cons, Nat.add_right_comm, ColumnOp.childTotal,
    Nat.add_comm op.children, ← Nat.add_assoc] at hready
  refine ((hready.frugal_run op hop m).relax fun _ h => h.2).imp ?_ id
  rintro c' ⟨hlayout, hready'⟩
  exact ⟨by rwa [hlayout], k, j, hready'⟩

/-- After operations that add nothing there is all the room that they made. -/
theorem exists_ready_of_history {before c : Column} {steps : List (Step ColumnOp Column)}
    (h : History ColumnOp.run before steps c) (hok : Smooth ColumnOp.run steps)
    (hidle : ∀ s ∈ steps, s.op.adds = false) (hbefore : before.Ready 0 0) :
    c.layout = before.layout ∧ ∃ k j, c.Ready k j ∧
      (∀ n, .reserve n ∈ steps.map (·.op) → n ≤ k) ∧
      ∀ n, .reserveItems n ∈ steps.map (·.op) → n ≤ j := by
  induction h with
  | here => exact ⟨rfl, 0, 0, hbefore, nofun, nofun⟩
  | step op m _ ih =>
    obtain ⟨hearlier, hlast⟩ := smooth_append_singleton.1 hok
    obtain ⟨hidles, hidle'⟩ := List.forall_mem_append.1 hidle
    obtain ⟨hsame, k, j, hready, hslots, hitems⟩ := ih hearlier hidles
    obtain ⟨hlayout, k', j', hready', hk, hj, hslots', hitems'⟩ :=
      hready.ensures_run op (hidle' _ List.mem_cons_self) m hlast
    refine ⟨hlayout.trans hsame, k', j', hready', fun n hn => ?_, fun n hn => ?_⟩
    · rw [List.map_append, List.mem_append] at hn
      rcases hn with hn | hn
      · exact Nat.le_trans (hslots n hn) hk
      · exact hslots' n (List.mem_singleton.1 hn).symm
    · rw [List.map_append, List.mem_append] at hn
      rcases hn with hn | hn
      · exact Nat.le_trans (hitems n hn) hj
      · exact hitems' n (List.mem_singleton.1 hn).symm

end Column

namespace Component

variable {c : Component} {records : List c.Datum}

/-- Records that a column has room for ask for masks only. -/
theorem frugal_foldl {column : Column}
    (hlayout : column.layout = c.type.layout) {k j : Nat} (hready : column.Ready k j)
    (hcount : records.length ≤ k) (hitems : c.type.itemTotal records ≤ j) (m : Ledger) :
    (records.foldl (fun (o : Outcome Column) record => o.andThen (c.type.writeSlot record))
      (.done column m)).Frugal m (unmasked column) (∀ record ∈ records, c.type.NullFree record)
        c.type.layout.Overruns fun _ => True := by
  refine (Outcome.Frugal.foldl (I := fun rest (column : Column) =>
    column.layout = c.type.layout ∧
      ∃ k j, column.Ready (rest.length + k) (j + c.type.itemTotal rest))
    (Outcome.frugal_done rfl ⟨hlayout, k - records.length, j - c.type.itemTotal records, by
      rwa [Nat.add_sub_cancel' hcount, Nat.sub_add_cancel hitems]⟩) ?_).imp
    (fun _ _ => trivial) id
  rintro record hrecord rest column m' ⟨hlayout, k, j, hready⟩
  have hadds : (ColumnOp.append c.type record).Adds column.layout := by
    rw [hlayout]
    refine ⟨rfl, ?_⟩
    rw [ColumnOp.place, c.type.place_layout]
    rfl
  rw [List.length_cons, Nat.add_right_comm, ValueType.itemTotal,
    Nat.add_comm (c.type.itemCount record), ← Nat.add_assoc] at hready
  have hadded := hready.frugal_run (.append c.type record) hadds m'
  rw [hlayout] at hadded
  rw [c.type.writeSlot_eq_append]
  exact hadded.imp (fun _ h => ⟨h.1, k, j, h.2⟩) fun hfree => hfree record hrecord

/-- Once all is reserved, a new column is filled with just the additions. -/
theorem fill_of_provision {r : Registry} (hown : (r.entryFor c).layout = c.type.layout)
    {start : Column} {m m' : Ledger} (hnew : Column.new c.type.layout m = (.ok start, m'))
    {hint : Nat} (hok : (c.provision records hint start m').fault = none) :
    ((start.withHint hint).reserve records.length m').andThen (fun column m =>
        c.fill r column records records.length m) =
      records.foldl (fun (o : Outcome Column) record => o.andThen (c.type.writeSlot record))
        (c.provision records hint start m') := by
  unfold provision at hok ⊢
  obtain ⟨hreserved, -⟩ := Outcome.fault_andThen_eq_none_iff.1 hok
  obtain ⟨hlayout, -⟩ := ((Column.holds_new hnew).withHint hint).reserve records.length m' hreserved
  rw [Outcome.andThen_of_none hreserved, Outcome.andThen_of_none hreserved,
    fill_of_fits (Nat.le_refl _) (hlayout.trans hown.symm), List.take_length]

/-- What encoding reserves is room for the records and their items. -/
theorem ensures_ready_provision (hlevel : c.type.layout.isLevel = true) {start : Column}
    {m m' : Ledger} (hnew : Column.new c.type.layout m = (.ok start, m')) (hint : Nat) :
    (c.provision records hint start m').Ensures fun column => column.layout = c.type.layout ∧
      ∃ k j, column.Ready k j ∧ records.length ≤ k ∧ c.type.itemTotal records ≤ j := by
  have hstart : (start.withHint hint).Ready 0 0 := (Column.keeps_new hnew).ready_zero hlevel
  have hlayout : start.layout = c.type.layout := (Column.keeps_new hnew).1
  have hroomy : ((start.withHint hint).reserve records.length m').Ensures fun column =>
      column.layout = c.type.layout ∧ ∃ k j, column.Ready k j ∧ records.length ≤ k := by
    refine (hstart.ensures_run (.reserve records.length) rfl m').imp ?_
    rintro column ⟨hsame, k, j, hready, -, -, hslots, -⟩
    exact ⟨hsame.trans hlayout, k, j, hready, hslots _ rfl⟩
  refine hroomy.andThen ?_
  rintro column m₁ ⟨hlayout', k, j, hready, hcount⟩
  obtain ⟨hroom, -⟩ | ⟨hroom, -⟩ | ⟨hroom, hlist⟩ := c.type.makeRoom_eq records column
  · rw [hroom]
    refine (hready.ensures_run (.reserveItems (c.type.itemTotal records)) rfl m₁).imp ?_
    rintro column' ⟨hsame, k', j', hready', hk, -, -, hitems⟩
    exact ⟨hsame.trans hlayout', k', j', hready', Nat.le_trans hcount hk, hitems _ rfl⟩
  · rw [hroom]
    exact Outcome.ensures_stopped
  · rw [hroom]
    exact Outcome.ensures_done ⟨hlayout', k, c.type.itemTotal records, hready.of_not_isList hlist _,
      hcount, Nat.le_refl _⟩

/-- Once all is reserved, records without nulls are encoded, and nothing more is asked
for, unless they have too many items. -/
theorem encode_of_provision {r : Registry} (hown : (r.entryFor c).layout = c.type.layout)
    (hlevel : c.type.layout.isLevel = true)
    (hnull : ∀ record ∈ records, c.type.NullFree record) {start : Column} {m m' : Ledger}
    (hnew : Column.new c.type.layout m = (.ok start, m')) {hint : Nat}
    (hok : (c.provision records hint start m').fault = none) :
    (c.encode r records hint m).2.requests =
        (c.provision records hint start m').ledger.requests ∧
      ((∃ chunk, (c.encode r records hint m).1 = .ok chunk) ∨
        ∃ fault, (c.encode r records hint m).1 = .error (.fault fault) ∧
          c.type.layout.Overruns fault) := by
  obtain ⟨hlayout, k, j, hready, hcount, hitems⟩ := ensures_ready_provision hlevel hnew hint hok
  have hfilled := frugal_foldl hlayout hready hcount hitems
    (c.provision records hint start m').ledger
  have hprovision : (.done (c.provision records hint start m').value
      (c.provision records hint start m').ledger : Outcome Column) =
        c.provision records hint start m' := by
    rw [Outcome.done, ← hok]
  rw [hprovision, ← fill_of_provision hown hnew hok] at hfilled
  have hstart := (Column.holds_new hnew).withHint hint
  have hholds : (((start.withHint hint).reserve records.length m').andThen fun column m =>
      c.fill r column records records.length m).Ensures fun column =>
        Column.Holds c.type.layout column (records.map c.type.cell) := by
    exact (hstart.reserve records.length m').andThen fun column m h => ensures_fill h m
  have hledger := hfilled.ledger_eq hnull
  rw [encode_eq, hown, hnew]
  dsimp only [Made.elim]
  generalize ((start.withHint hint).reserve records.length m').andThen (fun column m =>
    c.fill r column records records.length m) = filled at hfilled hholds hledger ⊢
  cases hfault : filled.fault with
  | none =>
    obtain ⟨hfinish, -⟩ := (hholds hfault).finish_eq filled.ledger
    rw [Outcome.elim_of_none hfault, hfinish, hledger]
    exact ⟨rfl, .inl ⟨_, rfl⟩⟩
  | some fault =>
    rw [Outcome.elim_of_some hfault, hledger]
    have hoverrun := (hfilled.stops fault hfault).resolve_right fun hnot => hnot.1 hnull
    exact ⟨rfl, .inr ⟨fault, rfl, hoverrun⟩⟩

end Component

/-- A layout whose slots take up the same room is level, and so are lists of it. -/
theorem Layout.isLevel_of_isFixed (hfixed : layout.isFixed = true) : layout.isLevel = true := by
  cases layout with
  | list => exact Bool.noConfusion hfixed
  | _ => exact hfixed

/-- **Reserving suffices.**  For a layout of booleans, numbers and structs of these, what
was reserved is enough for what it was reserved for, in writers, in columns of lists
and in encoding. -/
theorem Layout.suffices_of_isFixed (hfixed : layout.isFixed = true) : layout.Suffices := by
  constructor
  · intro hint capacity content m m' start hnew earlier w hsteps hok n m₁ hreserved added
      hadded hcount
    obtain ⟨slots, hslots⟩ := ColumnOp.exists_holds_of_history hsteps hok
      (Writer.holds_newWith hnew)
    obtain ⟨-, hspare⟩ := (hslots.spare_zero hfixed).reserve n m₁ hreserved
    rw [Nat.zero_max] at hspare
    exact hspare.covered hfixed hint hadded hcount
  · intro hint capacity content m m' start hnew earlier w hsteps hok
    obtain ⟨slots, hslots⟩ := ColumnOp.exists_holds_of_history hsteps hok
      (Writer.holds_newWith hnew)
    exact ⟨slots, hslots, hslots.unmasked_eq⟩
  · intro nullable m m' start hnew earlier before hruns reserving c hsteps hok hidle k j
      hk hj added hadded hcount hitems
    obtain ⟨-, hkeeps⟩ := hruns.keeps hnew
    obtain ⟨hsame, k', j', hready, hslots, hchildren⟩ :=
      Column.exists_ready_of_history hsteps hok hidle (hkeeps.ready_zero hfixed)
    refine hready.covered ?_ (Nat.le_trans hcount (hslots k hk))
      (Nat.le_trans hitems (hchildren j hj))
    rwa [hsame, hkeeps.1]
  · intro nullable m m' start hnew earlier c hruns
    obtain ⟨-, hkeeps⟩ := hruns.keeps hnew
    exact ⟨hkeeps, hkeeps.unmasked_eq⟩
  · intro r c hown hlayout records hnull hint m m' start hnew hok
    have hlevel : c.type.layout.isLevel = true := by
      rcases hlayout with hlayout | ⟨nullable, hlayout⟩
      · rw [hlayout]
        exact Layout.isLevel_of_isFixed hfixed
      · rw [hlayout]
        exact hfixed
    exact Component.encode_of_provision hown hlevel hnull hnew hok

/-- Samples of a level that may be missing and a flag. -/
private def sampleType : ValueType :=
  .record "samples.Sample" (.cons "level" (.option (.number .uint16)) (.cons "valid" .boolean .nil))

/-- A new writer for samples. -/
private def sampleWriter : Writer :=
  match Writer.newWith 0 0 sampleType.layout {} with
  | (.ok w, _) => w
  | (.error _, _) => .struct (.new 0) .nil

/-- Two samples without nulls. -/
private def sampleOps : List ColumnOp :=
  [.append sampleType (some 7#16, true, ()), .append sampleType (some 9#16, false, ())]

/-- A writer that has reserved two slots takes two samples from a ledger that grants
nothing any more, and asks it for nothing. -/
theorem suffices_of_samples :
    (sampleWriter.reserve 2 {}).fault = none ∧
      Smooth (ColumnOp.work 2) (stepsOf (ColumnOp.work 2) (sampleWriter.reserve 2 {}).value
        (callsOn { limit := some 0 } sampleOps)) ∧
      ∀ s ∈ stepsOf (ColumnOp.work 2) (sampleWriter.reserve 2 {}).value
          (callsOn { limit := some 0 } sampleOps),
        (s.outcome (ColumnOp.work 2)).ledger = s.ledger := by
  have hnew : Writer.newWith 0 0 sampleType.layout {} = (.ok sampleWriter, _) := rfl
  have hreserved : (sampleWriter.reserve 2 {}).fault = none := by decide +kernel
  have hadds : ∀ op ∈ sampleOps, op.Adds sampleType.layout :=
    List.forall_mem_cons.2 ⟨⟨rfl, rfl⟩, List.forall_mem_singleton.2 ⟨rfl, rfl⟩⟩
  have hnull : ∀ op ∈ sampleOps, op.NullFree :=
    List.forall_mem_cons.2 ⟨⟨trivial, trivial, trivial⟩,
      List.forall_mem_singleton.2 ⟨trivial, trivial, trivial⟩⟩
  have hsuffices : sampleType.layout.Suffices := Layout.suffices_of_isFixed rfl
  have hcovered := hsuffices.writers 2 0 0 {} _ sampleWriter hnew [] sampleWriter .here nofun
    2 {} hreserved sampleOps hadds (Nat.le_refl 2)
  have hsteps : (stepsOf (ColumnOp.work 2) (sampleWriter.reserve 2 {}).value
      (callsOn { limit := some 0 } sampleOps)).map (·.op) = sampleOps := ops_stepsOf _ _
  rcases hcovered.free hnull _ _ (history_of_calls _ (callsOn { limit := some 0 } sampleOps))
    (hsteps ▸ List.prefix_refl _) with hdone | ⟨_, _, _, _, hfalse⟩
  · exact ⟨hreserved, hdone⟩
  · exact hfalse.elim

end Columnar
