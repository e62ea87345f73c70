import Columnar.Operations
import Columnar.Proofs.Counting
import Columnar.Proofs.Writers
/-!
# The stages of a column

A column tells by its stage what has happened to it.  As long as every
operation is done, it works: it is fresh until memory is reserved, reserved
until something is added, and filling from then on, and it counts the
additions.  The first operation that is not done ends this, and so does
finishing; afterwards every call is turned away and changes nothing.

`Column.Standing` says in which of these ways a column has got where it is.
One more call takes a standing to a standing, so by induction over its life
every column has one, and what the stages mean is read off it.
-/

namespace Columnar

/-- The further of fresh and another stage of progress is the other one. -/
theorem Progress.further_fresh (progress : Progress) : progress.further .fresh = progress := by
  cases progress <;> rfl

/-- The further of two stages comes after either of them. -/
theorem Progress.rank_le_further (before progress : Progress) :
    before.stage.rank ≤ (before.further progress).stage.rank := by
  cases before <;> cases progress <;> decide

namespace Column

variable {c : Column}

/-- A closed column turns every call away but a new guess of items. -/
theorem run_of_isClosed (hclosed : c.stage.isClosed = true) (call : ColumnCall)
    (hcall : ∀ hint, call ≠ .withHint hint) (m : Ledger) :
    ∃ cause, call.run c m = (.refused (.invalidState cause), c, m) := by
  obtain ⟨layout, guess, state⟩ := c
  cases call with
  | withHint hint => exact absurd rfl (hcall hint)
  | work op =>
    simp only [ColumnCall.run, op.run_eq]
    cases state with
    | usable progress writer => cases progress <;> exact Bool.noConfusion hclosed
    | failed writer => exact ⟨.failedBefore, rfl⟩
    | finished => exact ⟨.alreadyFinished, rfl⟩
  | finish =>
    cases state with
    | usable progress writer => cases progress <;> exact Bool.noConfusion hclosed
    | failed writer => exact ⟨.failedBefore, rfl⟩
    | finished => exact ⟨.alreadyFinished, rfl⟩

/-- A column that has neither failed nor is finished is usable, with a writer and some progress. -/
theorem exists_of_isOpen (hopen : c.stage.isClosed = false) :
    ∃ progress writer, c.state = .usable progress writer := by
  cases hstate : c.state with
  | usable progress writer => exact ⟨progress, writer, rfl⟩
  | failed | finished =>
    rw [stage, hstate] at hopen
    exact Bool.noConfusion hopen

/-- An operation on a column that works is done and brings it further, or it is
refused and the column has failed. -/
theorem run_work {before : Progress} {writer : Writer} (hstate : c.state = .usable before writer)
    (op : ColumnOp) (m : Ledger) :
    (((ColumnCall.work op).run c m).1 = .done ∧ (op.work c.hint writer m).fault = none ∧
        ((ColumnCall.work op).run c m).2.1.state =
          .usable (before.further op.progress) (op.work c.hint writer m).value) ∨
      ((∃ fault, ((ColumnCall.work op).run c m).1 = .refused fault) ∧
        ((ColumnCall.work op).run c m).2.1.stage = .failed) := by
  simp only [ColumnCall.run, op.run_eq, apply_eq hstate]
  cases hfault : (op.work c.hint writer m).fault with
  | none =>
    rw [Outcome.elim_of_none hfault]
    exact .inl ⟨rfl, rfl, rfl⟩
  | some fault =>
    rw [Outcome.elim_of_some hfault]
    exact .inr ⟨⟨fault, rfl⟩, rfl⟩

/-- A column that works is finished by finishing it. -/
theorem run_finish {before : Progress} {writer : Writer}
    (hstate : c.state = .usable before writer) (m : Ledger) :
    (ColumnCall.finish.run c m).2.1.stage = .finished := by
  simp only [ColumnCall.run, finish, hstate]
  rfl

/-- No call takes a column back to an earlier stage. -/
theorem rank_le_run (c : Column) (call : ColumnCall) (m : Ledger) :
    c.stage.rank ≤ (call.run c m).2.1.stage.rank := by
  cases hstate : c.state with
  | usable before writer =>
    have hrank : c.stage.rank = before.stage.rank := by rw [stage, hstate]
    have hlow : c.stage.rank ≤ Stage.finished.rank := by
      rw [hrank]
      cases before <;> decide
    cases call with
    | withHint hint => exact Nat.le_refl _
    | work op =>
      obtain ⟨-, -, hnext⟩ | ⟨-, hnext⟩ := run_work hstate op m
      · rw [hrank, stage, hnext]
        exact before.rank_le_further op.progress
      · rw [hnext]
        exact Nat.le_succ_of_le hlow
    | finish =>
      rw [run_finish hstate m]
      exact hlow
  | failed | finished =>
    by_cases hcall : ∃ hint, call = .withHint hint
    · obtain ⟨hint, rfl⟩ := hcall
      exact Nat.le_refl _
    · have hclosed : c.stage.isClosed = true := by rw [stage, hstate]; rfl
      obtain ⟨cause, hrun⟩ := run_of_isClosed hclosed call (fun hint h => hcall ⟨hint, h⟩) m
      exact Nat.le_of_eq (by rw [hrun])

end Column

/-- How far an operation brings a column depends on whether it adds something. -/
theorem ColumnOp.progress_eq (op : ColumnOp) :
    op.progress = if op.adds then .filling else .reserved := by
  cases op <;> rfl

/-- How far operations bring a column that are all done. -/
def Progress.after (events : List ColumnEvent) : Progress :=
  if ∃ e ∈ events, e.kind = .addition then .filling
  else if ∃ e ∈ events, e.kind = .reservation then .reserved
  else .fresh

namespace Progress

/-- How far a single call brings a column, going by what it came to. -/
def ofKind : ColumnEvent.Kind → Progress
  | .addition => .filling
  | .reservation => .reserved
  | _ => .fresh

/-- One call more brings a column as far as it goes. -/
theorem after_append (events : List ColumnEvent) (e : ColumnEvent) :
    after (events ++ [e]) = (after events).further (.ofKind e.kind) := by
  simp only [after, List.mem_append, List.mem_singleton, or_and_right, exists_or, exists_eq_left]
  generalize e.kind = kind
  by_cases hadds : ∃ e ∈ events, e.kind = .addition <;>
    by_cases hreserves : ∃ e ∈ events, e.kind = .reservation <;>
    cases kind <;> simp [hadds, hreserves, further, ofKind]

end Progress

/-- How far operations bring a column says which kinds of them there were. -/
theorem Progress.after_cases (events : List ColumnEvent) :
    (after events = .filling ∧ ∃ e ∈ events, e.kind = .addition) ∨
      (after events = .reserved ∧ (∃ e ∈ events, e.kind = .reservation) ∧
        ∀ e ∈ events, e.kind ≠ .addition) ∨
      (after events = .fresh ∧ ∀ e ∈ events, e.kind ≠ .reservation ∧ e.kind ≠ .addition) := by
  unfold after
  by_cases hadds : ∃ e ∈ events, e.kind = .addition
  · exact .inl ⟨if_pos hadds, hadds⟩
  · have hnone : ∀ e ∈ events, e.kind ≠ .addition := fun e he h => hadds ⟨e, he, h⟩
    by_cases hreserves : ∃ e ∈ events, e.kind = .reservation
    · exact .inr (.inl ⟨by rw [if_neg hadds, if_pos hreserves], hreserves, hnone⟩)
    · refine .inr (.inr ⟨by rw [if_neg hadds, if_neg hreserves], fun e he => ⟨?_, hnone e he⟩⟩)
      exact fun h => hreserves ⟨e, he, h⟩

/-- Columns are fresh before anything was reserved or added. -/
theorem Progress.after_eq_fresh_iff {events : List ColumnEvent} :
    after events = .fresh ↔ ∀ e ∈ events, e.kind ≠ .reservation ∧ e.kind ≠ .addition := by
  obtain ⟨hafter, e, he, hkind⟩ | ⟨hafter, ⟨e, he, hkind⟩, -⟩ | ⟨hafter, hnone⟩ :=
    after_cases events <;> rw [hafter]
  · exact iff_of_false nofun fun h => (h e he).2 hkind
  · exact iff_of_false nofun fun h => (h e he).1 hkind
  · exact iff_of_true rfl hnone

/-- Columns are reserved once memory was reserved, until something is added. -/
theorem Progress.after_eq_reserved_iff {events : List ColumnEvent} :
    after events = .reserved ↔
      (∃ e ∈ events, e.kind = .reservation) ∧ ∀ e ∈ events, e.kind ≠ .addition := by
  obtain ⟨hafter, e, he, hkind⟩ | ⟨hafter, hsome, hnone⟩ | ⟨hafter, hnone⟩ :=
    after_cases events <;> rw [hafter]
  · exact iff_of_false nofun fun h => h.2 e he hkind
  · exact iff_of_true rfl ⟨hsome, hnone⟩
  · exact iff_of_false nofun fun ⟨⟨e, he, hkind⟩, _⟩ => (hnone e he).1 hkind

/-- A column is filling once an operation was done that adds something. -/
theorem Progress.after_eq_filling_iff {events : List ColumnEvent} :
    after events = .filling ↔ ∃ e ∈ events, e.kind = .addition := by
  obtain ⟨hafter, hsome⟩ | ⟨hafter, -, hnone⟩ | ⟨hafter, hnone⟩ :=
    after_cases events <;> rw [hafter]
  · exact iff_of_true rfl hsome
  · exact iff_of_false nofun fun ⟨e, he, hkind⟩ => hnone e he hkind
  · exact iff_of_false nofun fun ⟨e, he, hkind⟩ => (hnone e he).2 hkind

/-- Stages of columns that work tell how far they have come. -/
theorem Progress.stage_inj {progress progress' : Progress} :
    progress.stage = progress'.stage ↔ progress = progress' := by
  cases progress <;> cases progress' <;> decide

namespace ColumnEvent

/-- The stage that a call closes a column in, if it does. -/
def Kind.closing : Kind → Option Stage
  | failure => some .failed
  | finish => some .finished
  | _ => none

namespace Kind

theorem closing_eq_none_iff {kind : Kind} :
    kind.closing = none ↔ kind ≠ .failure ∧ kind ≠ .finish := by
  cases kind <;> decide

/-- The stage tells which kind of call closed the column. -/
theorem closing_inj {kind kind' : Kind} {stage : Stage} (h : kind.closing = some stage)
    (h' : kind'.closing = some stage) : kind = kind' := by
  cases kind <;> cases h <;> cases kind' <;> cases h' <;> rfl

theorem isClosed_of_closing {kind : Kind} {stage : Stage} (h : kind.closing = some stage) :
    stage.isClosed = true := by
  cases kind <;> cases h <;> rfl

end Kind

/-- What did nothing else changed the guess of items. -/
theorem kind_eq_hint {e : ColumnEvent} (hdone : e.kind ≠ .failure ∧ e.kind ≠ .finish)
    (hreserves : e.kind ≠ .reservation) (hadds : e.kind ≠ .addition) : e.kind = .hint := by
  cases h : e.kind with
  | hint => rfl
  | reservation => exact absurd h hreserves
  | addition => exact absurd h hadds
  | failure => exact absurd h hdone.1
  | finish => exact absurd h hdone.2

/-- Whoever gets a chunk as the reply has called for the column to be finished. -/
theorem kind_of_yields {e : ColumnEvent} (h : e.yields = true) : e.kind = .finish := by
  rcases e with ⟨_ | _ | _, reply⟩
  · exact Bool.noConfusion h
  · exact Bool.noConfusion h
  · rfl

/-- A call that a closed column turns away yields no chunk. -/
theorem yields_of_isTurnedAway {e : ColumnEvent} (h : e.isTurnedAway = true) :
    e.yields = false := by
  rcases e with ⟨_ | _ | _, _ | _ | _ | _⟩ <;> first | rfl | exact Bool.noConfusion h

/-- Nothing was yielded as long as the column was not to be finished. -/
theorem countP_yields_of_allDone {events : List ColumnEvent} (hdone : AllDone events) :
    events.countP yields = 0 :=
  List.countP_eq_zero.2 fun e he hyields => (hdone e he).2 (kind_of_yields hyields)

/-- Two accounts of what closed a column tell of the same call. -/
theorem eq_of_closing {before before' after after' : List ColumnEvent} {e e' : ColumnEvent}
    (h : before ++ e :: after = before' ++ e' :: after') (hbefore : AllDone before)
    (hbefore' : AllDone before') (he : e.kind.closing.isSome) (he' : e'.kind.closing.isSome) :
    e = e' := by
  have hnot : ∀ {events : List ColumnEvent} {e : ColumnEvent}, AllDone events →
      e.kind.closing.isSome → e ∉ events := by
    intro events e hdone hsome hmem
    rw [Kind.closing_eq_none_iff.2 (hdone e hmem)] at hsome
    exact Bool.noConfusion hsome
  obtain ⟨more, hmore, hrest⟩ | ⟨more, hmore, hrest⟩ := List.append_eq_append_iff.1 h
  · cases more with
    | nil => exact (List.cons.inj hrest).1
    | cons first others =>
      obtain rfl := (List.cons.inj hrest).1
      exact absurd (by simp [hmore]) (hnot hbefore' he)
  · cases more with
    | nil => exact (List.cons.inj hrest).1.symm
    | cons first others =>
      obtain rfl := (List.cons.inj hrest).1
      exact absurd (by simp [hmore]) (hnot hbefore he')

end ColumnEvent

/-- One call more is at most one slot more. -/
theorem ColumnEvent.additions_append (events : List ColumnEvent) (e : ColumnEvent) :
    additions (events ++ [e]) = additions events + if e.kind = .addition then 1 else 0 := by
  simp [additions, List.countP_append, List.countP_singleton]

namespace Column

/-- How a column has got where it is: every operation was done, or one failed first, or it was
finished. -/
inductive Standing : List ColumnEvent → Column → Prop where
  /-- Every operation was done. -/
  | working {events : List ColumnEvent} {c : Column} {writer : Writer}
    (hdone : ColumnEvent.AllDone events) (hstate : c.state = .usable (.after events) writer)
    (hlength : writer.length = ColumnEvent.additions events) :
    Standing events c
  /-- Every operation was done before the call that closed the column, and every
  call was turned away since. -/
  | closed {before after : List ColumnEvent} {e : ColumnEvent} {c : Column}
    (hdone : ColumnEvent.AllDone before)
    (hend : e.kind.closing = some c.stage)
    (hafter : ∀ e ∈ after, e.kind = .hint ∨ e.isTurnedAway) :
    Standing (before ++ e :: after) c

/-- A new column stands where no call was made yet: fresh, and without slots. -/
theorem standing_new {layout : Layout} {m m' : Ledger} {c : Column}
    (h : new layout m = (.ok c, m')) : Standing [] c := by
  unfold Column.new at h
  split at h
  · simp at h
  · obtain ⟨writer, hwriter, rfl⟩ := Made.eq_ok_of_map h
    exact .working (fun _ he => absurd he List.not_mem_nil) rfl
      (Writer.holds_new layout hwriter).length_eq

namespace Standing

variable {events : List ColumnEvent} {c : Column}

/-- A call that neither fails nor finishes the column leaves it working. -/
theorem append (hdone : ColumnEvent.AllDone events) {e : ColumnEvent}
    (he : e.kind ≠ .failure ∧ e.kind ≠ .finish) {writer : Writer}
    (hstate : c.state = .usable ((Progress.after events).further (.ofKind e.kind)) writer)
    (hlength : writer.length = ColumnEvent.additions (events ++ [e])) :
    Standing (events ++ [e]) c := by
  rw [← Progress.after_append] at hstate
  exact .working (List.forall_mem_append.2 ⟨hdone, List.forall_mem_singleton.2 he⟩) hstate hlength

/-- An operation that is done leaves a working column working, one slot longer if it
adds something. -/
theorem append_work (hdone : ColumnEvent.AllDone events) {writer : Writer}
    (hlength : writer.length = ColumnEvent.additions events) {op : ColumnOp}
    {hint : Nat} {m : Ledger} (hfault : (op.work hint writer m).fault = none)
    (hstate : c.state = .usable ((Progress.after events).further op.progress)
      (op.work hint writer m).value) :
    Standing (events ++ [⟨.work op, .done⟩]) c := by
  have hkind : ColumnEvent.kind ⟨.work op, .done⟩ = if op.adds then .addition else .reservation :=
    rfl
  rw [op.progress_eq] at hstate
  cases hadds : op.adds with
  | false =>
    simp only [hadds, Bool.false_eq_true, if_false] at hkind hstate
    refine append hdone (by rw [hkind]; decide) (by rw [hkind]; exact hstate) ?_
    rw [ColumnEvent.additions_append, hkind, op.length_work hadds, hlength]
    rfl
  | true =>
    simp only [hadds, if_true] at hkind hstate
    refine append hdone (by rw [hkind]; decide) (by rw [hkind]; exact hstate) ?_
    rw [ColumnEvent.additions_append, hkind, if_pos rfl,
      op.addsSlot_work hint hadds writer m hfault, hlength]

/-- One more call takes a standing to a standing. -/
theorem step (h : Standing events c) (call : ColumnCall) (m : Ledger) :
    Standing (events ++ [⟨call, (call.run c m).1⟩]) (call.run c m).2.1 := by
  cases h with
  | @working _ _ writer hdone hstate hlength =>
    cases call with
    | withHint hint =>
      have hnext : (c.withHint hint).state =
          .usable ((Progress.after events).further (.ofKind .hint)) writer :=
        hstate.trans (congrArg (State.usable · writer) (Progress.further_fresh _).symm)
      refine append hdone ⟨nofun, nofun⟩ hnext ?_
      rw [ColumnEvent.additions_append, hlength]
      rfl
    | work op =>
      obtain ⟨hreply, hfault, hnext⟩ | ⟨⟨fault, hreply⟩, hnext⟩ := run_work hstate op m
      · rw [hreply]
        exact append_work hdone hlength hfault hnext
      · rw [hreply]
        exact .closed hdone (congrArg some hnext.symm) fun _ he => nomatch he
    | finish =>
      exact .closed hdone (congrArg some (run_finish hstate m).symm) fun _ he => nomatch he
  | @closed before after e _ hdone hend hafter =>
    have hclosed : c.stage.isClosed = true := ColumnEvent.Kind.isClosed_of_closing hend
    rw [List.append_assoc, List.cons_append]
    by_cases hcall : ∃ hint, call = .withHint hint
    · obtain ⟨hint, rfl⟩ := hcall
      refine .closed hdone hend (List.forall_mem_append.2 ⟨hafter, ?_⟩)
      exact List.forall_mem_singleton.2 (.inl rfl)
    · obtain ⟨cause, hrun⟩ := run_of_isClosed hclosed call (fun hint h => hcall ⟨hint, h⟩) m
      rw [hrun]
      refine .closed hdone hend (List.forall_mem_append.2 ⟨hafter, ?_⟩)
      exact List.forall_mem_singleton.2 (.inr rfl)

/-- Every column has a standing, whatever happened to it. -/
theorem of_lives {layout : Layout} {m m' : Ledger} {start : Column}
    (hnew : new layout m = (.ok start, m')) (hlives : start.Lives events c) :
    Standing events c := by
  induction hlives with
  | here => exact standing_new hnew
  | step call m _ ih => exact ih.step call m

/-- A column works as long as everything is done. -/
theorem allDone_iff (h : Standing events c) :
    ColumnEvent.AllDone events ↔ c.stage.isClosed = false := by
  cases h with
  | working hdone hstate _ =>
    refine iff_of_true hdone ?_
    rw [stage, hstate]
    cases Progress.after events <;> rfl
  | @closed before after e _ _ hend _ =>
    refine iff_of_false (fun hdone => ?_) ?_
    · have hnone := ColumnEvent.Kind.closing_eq_none_iff.2 (hdone e (by simp))
      exact nomatch hnone.symm.trans hend
    · rw [ColumnEvent.Kind.isClosed_of_closing hend]
      exact Bool.noConfusion

/-- A column is at a stage of work if everything was done and brings it there. -/
theorem stage_eq_iff (h : Standing events c) (progress : Progress) :
    c.stage = progress.stage ↔
      ColumnEvent.AllDone events ∧ Progress.after events = progress := by
  by_cases hdone : ColumnEvent.AllDone events
  · cases h with
    | working _ hstate _ =>
      rw [stage, hstate]
      exact Progress.stage_inj.trans (and_iff_right hdone).symm
    | @closed before after e _ _ hend _ =>
      have hnone := ColumnEvent.Kind.closing_eq_none_iff.2 (hdone e (by simp))
      exact nomatch hnone.symm.trans hend
  · refine iff_of_false (fun hstage => hdone (h.allDone_iff.2 ?_)) fun h => hdone h.1
    rw [hstage]
    cases progress <;> rfl

theorem fresh_iff (h : Standing events c) :
    c.stage = .fresh ↔ ∀ e ∈ events, e.kind = .hint := by
  refine (h.stage_eq_iff .fresh).trans ?_
  rw [Progress.after_eq_fresh_iff]
  constructor
  · rintro ⟨hdone, hnone⟩ e he
    exact ColumnEvent.kind_eq_hint (hdone e he) (hnone e he).1 (hnone e he).2
  · intro hall
    exact ⟨fun e he => by rw [hall e he]; decide, fun e he => by rw [hall e he]; decide⟩

theorem reserved_iff (h : Standing events c) :
    c.stage = .reserved ↔
      (∃ e ∈ events, e.kind = .reservation) ∧
        ∀ e ∈ events, e.kind = .hint ∨ e.kind = .reservation := by
  refine (h.stage_eq_iff .reserved).trans ?_
  rw [Progress.after_eq_reserved_iff]
  constructor
  · rintro ⟨hdone, hsome, hnone⟩
    refine ⟨hsome, fun e he => or_iff_not_imp_right.2 fun hreserves => ?_⟩
    exact ColumnEvent.kind_eq_hint (hdone e he) hreserves (hnone e he)
  · rintro ⟨hsome, hall⟩
    refine ⟨fun e he => ?_, hsome, fun e he => ?_⟩ <;>
      obtain hkind | hkind := hall e he <;> rw [hkind] <;> decide

theorem filling_iff (h : Standing events c) :
    c.stage = .filling ↔
      (∃ e ∈ events, e.kind = .addition) ∧ ColumnEvent.AllDone events := by
  refine (h.stage_eq_iff .filling).trans ?_
  rw [Progress.after_eq_filling_iff]
  exact and_comm

/-- A column is closed in the way of the first call that was not merely done. -/
theorem closed_iff (h : Standing events c) {kind : ColumnEvent.Kind} {stage : Stage}
    (hkind : kind.closing = some stage) :
    c.stage = stage ↔
      ∃ before e after, events = before ++ e :: after ∧ ColumnEvent.AllDone before ∧
        e.kind = kind := by
  constructor
  · intro hstage
    have hclosed := ColumnEvent.Kind.isClosed_of_closing hkind
    cases h with
    | working hdone hstate hlength =>
      have hopen := (working hdone hstate hlength).allDone_iff.1 hdone
      rw [hstage, hclosed] at hopen
      exact Bool.noConfusion hopen
    | @closed before after e _ hdone hend _ =>
      rw [hstage] at hend
      exact ⟨before, e, after, rfl, hdone, ColumnEvent.Kind.closing_inj hend hkind⟩
  · rintro ⟨before', e', after', heq, hdone', he'⟩
    have hsome : e'.kind.closing = some stage := by rw [he', hkind]
    cases h with
    | working hdone hstate hlength =>
      have hnone := ColumnEvent.Kind.closing_eq_none_iff.2 (hdone e' (by simp [heq]))
      exact nomatch hnone.symm.trans hsome
    | @closed before after e _ hdone hend _ =>
      obtain rfl := ColumnEvent.eq_of_closing heq hdone hdone' (by simp [hend]) (by simp [hsome])
      exact Option.some.inj (hend.symm.trans hsome)

/-- A column that works counts one slot for each addition that was done. -/
theorem length_eq (h : Standing events c) (hopen : c.stage.isClosed = false) :
    c.length = ColumnEvent.additions events := by
  cases h with
  | working _ hstate hlength =>
    rw [length, writer?, hstate]
    exact hlength
  | closed _ hend _ =>
    rw [ColumnEvent.Kind.isClosed_of_closing hend] at hopen
    exact Bool.noConfusion hopen

/-- In the life of a column a chunk is yielded at most once. -/
theorem countP_yields_le (h : Standing events c) : events.countP ColumnEvent.yields ≤ 1 := by
  cases h with
  | working hdone _ _ =>
    exact Nat.le_succ_of_le (Nat.le_of_eq (ColumnEvent.countP_yields_of_allDone hdone))
  | @closed before after e _ hdone _ hafter =>
    have hnone : after.countP ColumnEvent.yields = 0 := by
      refine List.countP_eq_zero.2 fun e he hyields => ?_
      obtain hkind | haway := hafter e he
      · rw [ColumnEvent.kind_of_yields hyields] at hkind
        exact ColumnEvent.Kind.noConfusion hkind
      · rw [ColumnEvent.yields_of_isTurnedAway haway] at hyields
        exact Bool.noConfusion hyields
    rw [List.countP_append, List.countP_cons, ColumnEvent.countP_yields_of_allDone hdone, hnone]
    split <;> decide

/-- If a chunk was yielded, every operation before was done. -/
theorem allDone_of_yields (h : Standing events c) {m : Ledger} {chunk : Chunk}
    (hchunk : (ColumnCall.finish.run c m).1 = .chunk chunk) : ColumnEvent.AllDone events := by
  refine h.allDone_iff.2 (Bool.eq_false_iff.2 fun hclosed => ?_)
  obtain ⟨cause, hrun⟩ := run_of_isClosed hclosed .finish (fun _ => nofun) m
  rw [hrun] at hchunk
  exact nomatch hchunk

end Standing

/-- What the stage of a column and its number of slots tell about all calls on it. -/
structure Tells (c : Column) (events : List ColumnEvent) : Prop where
  fresh_iff : c.stage = .fresh ↔ ∀ e ∈ events, e.kind = .hint
  reserved_iff : c.stage = .reserved ↔
    (∃ e ∈ events, e.kind = .reservation) ∧ ∀ e ∈ events, e.kind = .hint ∨ e.kind = .reservation
  filling_iff : c.stage = .filling ↔
    (∃ e ∈ events, e.kind = .addition) ∧ ColumnEvent.AllDone events
  /-- A column has failed if an operation failed while it still worked. -/
  failed_iff : c.stage = .failed ↔
    ∃ before e after, events = before ++ e :: after ∧ ColumnEvent.AllDone before ∧
      e.kind = .failure
  /-- A column is finished if it was finished while it still worked. -/
  finished_iff : c.stage = .finished ↔
    ∃ before e after, events = before ++ e :: after ∧ ColumnEvent.AllDone before ∧
      e.kind = .finish
  /-- A column that works counts one slot for each addition that was done. -/
  length_eq : c.stage.isClosed = false →
    c.length = ColumnEvent.additions events
  yields_once : events.countP ColumnEvent.yields ≤ 1
  /-- Finishing yields a chunk only where nothing failed and nothing was finished. -/
  done_of_yields : ∀ m chunk, (ColumnCall.finish.run c m).1 = .chunk chunk →
    ColumnEvent.AllDone events

/-- **The life of a column.**  Whatever is called on a new column, its stage and its
number of slots tell what happened.  It never returns to an earlier stage, and it
fails with the first operation that is not done.  A column that has failed or is
finished turns every call away but a new guess of items, and neither it nor the
ledger changes by that. -/
theorem tells_of_lives {layout : Layout} {m₀ m₁ : Ledger} {start c : Column}
    {events : List ColumnEvent} (hnew : new layout m₀ = (.ok start, m₁))
    (hlives : start.Lives events c) :
    c.Tells events ∧
      (∀ later d, c.Lives later d → c.stage.rank ≤ d.stage.rank) ∧
      (c.stage.isClosed = false → ∀ (op : ColumnOp) (m : Ledger), (op.run c m).fault ≠ none →
        (op.run c m).value.stage = .failed) ∧
      (c.stage.isClosed = true → ∀ call : ColumnCall, (∀ hint, call ≠ .withHint hint) → ∀ m,
        ∃ cause, call.run c m = (.refused (.invalidState cause), c, m)) := by
  have hstanding := Standing.of_lives hnew hlives
  refine ⟨?_, ?_, ?_, ?_⟩
  · exact {
      fresh_iff := hstanding.fresh_iff
      reserved_iff := hstanding.reserved_iff
      filling_iff := hstanding.filling_iff
      failed_iff := hstanding.closed_iff rfl
      finished_iff := hstanding.closed_iff rfl
      length_eq := hstanding.length_eq
      yields_once := hstanding.countP_yields_le
      done_of_yields := fun _ _ => hstanding.allDone_of_yields }
  · intro later d hlater
    induction hlater with
    | here => exact Nat.le_refl _
    | step call m _ ih => exact Nat.le_trans ih (rank_le_run _ call m)
  · intro hopen op m hfault
    obtain ⟨before, writer, hstate⟩ := exists_of_isOpen hopen
    obtain ⟨hdone, -, -⟩ | ⟨-, hstage⟩ := run_work hstate op m
    · cases hnone : (op.run c m).fault with
      | none => exact absurd hnone hfault
      | some fault => simp [ColumnCall.run, hnone, ColumnReply.ofFault] at hdone
    · exact hstage
  · exact fun hclosed => run_of_isClosed hclosed

/-- A new column of lists of numbers. -/
private def tallyColumn : Column :=
  match new (.list (.number .uint16) false) {} with
  | (.ok c, _) => c
  | (.error _, _) => { layout := .boolean, state := .finished }

/-- A list and a missing truth value are two slots of a column of lists of numbers.
Finishing it yields its chunk, and a second time nothing. -/
theorem tells_of_tally :
    ∃ (c : Column) (events : List ColumnEvent), tallyColumn.Lives events c ∧ c.Tells events ∧
      c.stage = .finished ∧ ColumnEvent.additions events = 2 ∧
      events.countP ColumnEvent.yields = 1 ∧ events.length = 6 := by
  have hnew : new (.list (.number .uint16) false) {} =
      (.ok tallyColumn, (new (.list (.number .uint16) false) {}).2) := rfl
  have hstart : tallyColumn.Lives [] tallyColumn := .here
  have hreserved := (hstart.step (.withHint 5) {}).step (.work (.reserve 2)) {}
  have hlist := hreserved.step (.work (.appendList (.number .uint16) [7#16, 9#16])) {}
  have hnull := hlist.step (.work (.append (.option .boolean) none)) {}
  have hfinished := (hnull.step .finish { limit := some 0 }).step .finish {}
  obtain ⟨htells, -⟩ := tells_of_lives hnew hfinished
  exact ⟨_, _, hfinished, htells, rfl, rfl, rfl, rfl⟩

end Column

end Columnar
