import Columnar.Proofs.Adding
import Columnar.Proofs.Finishing
/-!
# Slots tile the children

A slot that gathers children ends where the child ends, any other where the slot
before it ended.  So the slots of a list follow each other from zero on, and what is
added between two gathering slots is in the second of them, whatever slots lie
between.  Children that are added after the last gathering slot are in none.

This is first shown of tilings, which are lists of numbers.  Then the offsets of a
list under construction are those of its tiling, since an operation adds to the
child as many slots as it is counted for.
-/

namespace Columnar

open ListOp

namespace Tiling

variable (t : Tiling) (ops : List ListOp)

/-- All children count, whether they are in a slot or not. -/
theorem count_log (op : ListOp) : (op.log t).count = t.count + op.children := by
  cases op with
  | child way op => simp [log, count, placed, Nat.add_assoc]
  | close => simp [log, count, placed, slotLists_append, children]
  | absent => simp [log, count, placed, slotLists_append, children]
  | null => simp [log, count, placed, slotLists_append, children]

/-- Children are never lost, doubled or moved past each other. -/
theorem placed_log (op : ListOp) :
    (op.log t).placed ++ (op.log t).pending =
      t.placed ++ t.pending ++ List.range' t.count op.children := by
  cases op with
  | child way op => simp [log, placed]
  | close => simp [log, placed, slotLists_append, children]
  | absent => simp [log, placed, slotLists_append, children]
  | null => simp [log, placed, slotLists_append, children]

/-- Slots are only added at the end, one by each operation that adds any. -/
theorem slots_log (op : ListOp) :
    ∃ more, (op.log t).slots = t.slots ++ more ∧ more.length = if op.closes then 1 else 0 := by
  cases op with
  | child way op => exact ⟨[], (List.append_nil _).symm, rfl⟩
  | close => exact ⟨[some t.pending], rfl, rfl⟩
  | absent => exact ⟨[some []], rfl, rfl⟩
  | null => exact ⟨[none], rfl, rfl⟩

/-- The operations of a run follow those before it. -/
theorem run_append (more : List ListOp) : t.run (ops ++ more) = (t.run ops).run more :=
  List.foldl_append

theorem run_cons (op : ListOp) : t.run (op :: ops) = (op.log t).run ops := rfl

/-- Operations on a list count all children that they add. -/
theorem count_run : (t.run ops).count = t.count + total ops := by
  induction ops generalizing t with
  | nil => rfl
  | cons op ops ih =>
    rw [run_cons, ih, count_log, total, Nat.add_assoc]

/-- The children of all operations come one after the other. -/
theorem placed_run : (t.run ops).placed ++ (t.run ops).pending =
    t.placed ++ t.pending ++ List.range' t.count (total ops) := by
  induction ops generalizing t with
  | nil => exact (List.append_nil _).symm
  | cons op ops ih =>
    rw [run_cons, ih, placed_log, count_log, List.append_assoc, List.range'_append_1, total]

/-- Every operation that closes a slot adds one, and none goes away. -/
theorem slots_run : ∃ more, (t.run ops).slots = t.slots ++ more ∧ more.length = closings ops := by
  induction ops generalizing t with
  | nil => exact ⟨[], (List.append_nil _).symm, rfl⟩
  | cons op ops ih =>
    obtain ⟨first, hfirst, hone⟩ := slots_log t op
    obtain ⟨rest, hrest, hlength⟩ := ih (op.log t)
    refine ⟨first ++ rest, ?_, ?_⟩
    · rw [run_cons, hrest, hfirst, List.append_assoc]
    · rw [List.length_append, hone, hlength, closings, closings, List.countP_cons, Nat.add_comm]

/-- Without a gathering slot all children stay in no slot. -/
theorem pending_run (h : close ∉ ops) :
    (t.run ops).pending = t.pending ++ List.range' t.count (total ops) := by
  induction ops generalizing t with
  | nil => exact (List.append_nil _).symm
  | cons op ops ih =>
    have hops : close ∉ ops := fun hmem => h (List.mem_cons_of_mem op hmem)
    have hlog : (op.log t).pending = t.pending ++ List.range' t.count op.children := by
      cases op with
      | close => exact absurd List.mem_cons_self h
      | _ => simp [log, children]
    rw [run_cons, ih _ hops, hlog, count_log, List.append_assoc, List.range'_append_1, total]

variable {ops} {before between rest : List ListOp}

theorem after_concat (op : ListOp) : after (ops ++ [op]) = op.log (after ops) := by
  rw [after, run_append, ← after]
  rfl

theorem count_after : (after ops).count = total ops := by
  rw [after, count_run]
  exact Nat.zero_add _

/-- All children are in slots, or in none yet, in the order in which they came. -/
theorem placed_after :
    (after ops).placed ++ (after ops).pending = List.range (total ops) := by
  rw [after, placed_run, List.range_eq_range']
  rfl

/-- There are as many slots as operations that add one. -/
theorem length_slots_after : (after ops).slots.length = closings ops := by
  obtain ⟨more, hmore, hlength⟩ := slots_run {} ops
  rw [after, hmore, List.nil_append, hlength]

/-- What a slot takes is fixed when it is added, whatever operations follow. -/
theorem slot_after {op : ListOp} {slot : Option (List Nat)}
    (h : (op.log (after before)).slots = (after before).slots ++ [slot]) :
    (after (before ++ op :: rest)).slots[closings before]? = some slot := by
  obtain ⟨more, hmore, -⟩ := slots_run (op.log (after before)) rest
  rw [after, run_append, run_cons, ← after, hmore, h, List.append_assoc, ← length_slots_after,
    List.getElem?_append_right (Nat.le_refl _), Nat.sub_self]
  rfl

/-- In no slot are the children since the last gathering slot. -/
theorem pending_after (hbefore : before = [] ∨ ∃ earlier, before = earlier ++ [close])
    (hbetween : close ∉ between) :
    (after (before ++ between)).pending = List.range' (total before) (total between) := by
  have hnone : (after before).pending = [] := by
    rcases hbefore with rfl | ⟨earlier, rfl⟩
    · rfl
    · rw [after_concat, log]
  rw [after, run_append, ← after, pending_run _ between hbetween, hnone, count_after,
    List.nil_append]

/-- A gathering slot has the children since the gathering slot before it. -/
theorem slot_close (hbefore : before = [] ∨ ∃ earlier, before = earlier ++ [close])
    (hbetween : close ∉ between) :
    (after (before ++ between ++ close :: rest)).slots[closings (before ++ between)]? =
      some (some (List.range' (total before) (total between))) :=
  slot_after (by rw [log, pending_after hbefore hbetween])

end Tiling

/-- An operation on the child adds the children that it is counted for. -/
theorem ListOp.ensures_children (way : List Inward) (op : WriterOp) (w : Writer) (m : Ledger) :
    (Writer.inside op.run way w m).Ensures fun w' =>
      w'.length = w.length + (child way op).children := by
  cases way with
  | nil => exact op.ensures_length w m
  | cons inward way => exact fun _ => Writer.length_inside op.run inward way w m

/-- The list has the slots of the tiling and the child has all the children. -/
def Writer.FollowsTiling (nullable : Bool) (t : Tiling) (w : Writer) : Prop :=
  ∃ (ends : Slots) (child : Writer), w = .list ends nullable child ∧ ends.Holds t.slots ∧
    child.length = t.count

namespace Writer.FollowsTiling

variable {nullable : Bool} {t : Tiling} {w : Writer}

/-- An operation takes the list along with the tiling. -/
theorem step (h : w.FollowsTiling nullable t) (op : ListOp) (m : Ledger) :
    (op.run w m).Ensures fun w' => w'.FollowsTiling nullable (op.log t) := by
  obtain ⟨ends, child, rfl, hends, hchild⟩ := h
  have hlength := Tiling.count_log t op
  cases op with
  | child way op =>
    refine Outcome.ensures_map ((ensures_children way op child m).imp ?_)
    intro child' hchild'
    exact ⟨ends, child', rfl, hends, by rw [hchild', hchild, hlength]⟩
  | close =>
    exact Outcome.ensures_map ((hends.close (some t.pending) hchild m).imp fun ends' hends' =>
      ⟨ends', child, rfl, hends', hchild.trans hlength.symm⟩)
  | absent =>
    exact Outcome.ensures_map ((hends.closeEmpty (some []) rfl m).imp fun ends' hends' =>
      ⟨ends', child, rfl, hends', hchild.trans hlength.symm⟩)
  | null =>
    show ((Writer.list ends nullable child).appendNull m).Ensures _
    rw [Writer.appendNull]
    exact Outcome.ensures_map ((hends.closeEmpty none rfl m).imp fun ends' hends' =>
      ⟨ends', child, rfl, hends', hchild.trans hlength.symm⟩)

/-- A new list over an empty child has no slots. -/
theorem of_newList {capacity : Nat} {child : Writer} {m m' : Ledger} (hempty : child.length = 0)
    (hnew : Writer.newList capacity child nullable m = (.ok w, m')) :
    ∃ ends, w = .list ends nullable child ∧ w.FollowsTiling nullable {} := by
  rw [Writer.newList_eq] at hnew
  obtain ⟨ends, _, hends, hmade⟩ := Made.eq_ok_of_chain hnew
  obtain rfl := Made.ok_inj hmade
  exact ⟨ends, rfl, ends, child, rfl, Slots.holds_new hends, hempty⟩

/-- A smooth history takes it along all the way. -/
theorem of_history {start : Writer} {steps : List (Step ListOp Writer)}
    (hstart : start.FollowsTiling nullable {}) (hhistory : History ListOp.run start steps w)
    (hok : Smooth ListOp.run steps) :
    w.FollowsTiling nullable (.after (steps.map (·.op))) := by
  induction hhistory with
  | here => exact hstart
  | step op m _ ih =>
    obtain ⟨hearlier, hlast⟩ := smooth_append_singleton.1 hok
    rw [List.map_append, List.map_singleton, Tiling.after_concat]
    exact (ih hearlier).step op m hlast

end Writer.FollowsTiling

/-- The cells of one operation more come last. -/
theorem ListOp.allCells?_concat {item : Layout} {ops : List ListOp} {op : ListOp}
    {cells : List (Option item.Cell)} (h : allCells? item (ops ++ [op]) = some cells) :
    ∃ earlier last, allCells? item ops = some earlier ∧ op.cells? item = some last ∧
      cells = earlier ++ last := by
  obtain ⟨lists, hlists, rfl⟩ := Option.map_eq_some_iff.1 h
  rw [mapM_eq_some_iff, List.map_append, List.map_singleton] at hlists
  obtain ⟨firsts, lasts, rfl, hfirsts, hlasts⟩ := List.map_eq_append_iff.1 hlists.symm
  obtain ⟨last, rfl, hlast⟩ := List.map_eq_singleton_iff.1 hlasts
  refine ⟨firsts.flatten, last, ?_, hlast.symm, ?_⟩
  · rw [allCells?, mapM_eq_some_iff.2 hfirsts.symm, Option.map_some]
  · rw [List.flatten_append, List.flatten_singleton]

/-- The child holds the children that were added, one after the other. -/
theorem Writer.holds_child_of_history {item : Layout} {nullable : Bool} {start w : Writer}
    {steps : List (Step ListOp Writer)} {cells : List (Option item.Cell)}
    (hempty : ∃ ends child, start = .list ends nullable child ∧ child.Holds item [])
    (hhistory : History ListOp.run start steps w) (hok : Smooth ListOp.run steps)
    (hcells : allCells? item (steps.map (·.op)) = some cells) :
    ∃ ends child, w = .list ends nullable child ∧ child.Holds item cells := by
  induction hhistory generalizing cells with
  | here =>
    obtain rfl := Option.some.inj hcells
    exact hempty
  | step op m hbefore ih =>
    obtain ⟨hearlier, hlast⟩ := smooth_append_singleton.1 hok
    rw [List.map_append, List.map_singleton] at hcells
    obtain ⟨earlier, last, hcellsBefore, hop, rfl⟩ := allCells?_concat hcells
    obtain ⟨ends, child, rfl, hchild⟩ := ih hearlier hcellsBefore
    cases op with
    | child way op =>
      cases way with
      | cons inward way => exact nomatch hop
      | nil => exact ⟨ends, _, rfl, op.ensures_cells hop hchild m hlast⟩
    | close | absent | null =>
      obtain rfl := Option.some.inj hop
      rw [List.append_nil]
      exact ⟨_, child, rfl, hchild⟩

/-- The slots with what the children hold in place of their numbers. -/
def Tiling.cellSlots {α : Type} (t : Tiling) (cells : List (Option α)) :
    List (Option (List (Option α))) :=
  t.slots.map (·.map (·.map (cells.getD · none)))

/-- The list with the slots of a tiling over a finished child. -/
def Tiling.chunk (t : Tiling) (nullable : Bool) (child : Chunk) : Chunk :=
  .list Layout.itemName nullable (Chunk.offsetsOf (slotLists t.slots)) child (Mask.ofSlots t.slots)

namespace Tiling

variable {α : Type} {t : Tiling} {cells : List (Option α)}

/-- The lists in the slots are looked up child by child. -/
theorem slotLists_cellSlots (t : Tiling) (cells : List (Option α)) :
    slotLists (t.cellSlots cells) = (slotLists t.slots).map (·.map (cells.getD · none)) := by
  rw [cellSlots, slotLists, slotLists, List.map_map, List.map_map]
  refine List.map_congr_left fun slot _ => ?_
  cases slot <;> rfl

/-- The numbers of the children are their places. -/
theorem map_getD_range (cells : List (Option α)) :
    (List.range cells.length).map (cells.getD · none) = cells := by
  refine List.ext_getElem (by simp) fun i _ hi => ?_
  rw [List.getElem_map, List.getElem_range, List.getD_eq_getElem?_getD,
    List.getElem?_eq_getElem hi, Option.getD_some]

/-- The cells in the slots come first, then those that are in none. -/
theorem flatten_cellSlots_append (h : t.placed ++ t.pending = List.range cells.length) :
    (slotLists (t.cellSlots cells)).flatten ++ t.pending.map (cells.getD · none) = cells := by
  rw [slotLists_cellSlots, ← List.map_flatten, ← List.map_append, ← placed, h, map_getD_range]

/-- Looking children up does not change where slots end. -/
theorem offsetsOf_cellSlots (t : Tiling) (cells : List (Option α)) :
    Chunk.offsetsOf (slotLists (t.cellSlots cells)) = Chunk.offsetsOf (slotLists t.slots) := by
  rw [Chunk.offsetsOf, Chunk.offsetsOf, slotLists_cellSlots, List.map_map]
  exact congrArg _ (List.map_congr_left fun list _ => List.length_map _)

/-- Cut where the slots end, the cells are those in the slots. -/
theorem contents_offsetsOf_slots (h : t.placed ++ t.pending = List.range cells.length) :
    Chunk.contents (Chunk.offsetsOf (slotLists t.slots)) cells = slotLists (t.cellSlots cells) := by
  have hcontents := Chunk.contents_offsetsOf_append (slotLists (t.cellSlots cells))
    (t.pending.map (cells.getD · none))
  rwa [flatten_cellSlots_append h, offsetsOf_cellSlots] at hcontents

/-- Children that are in no slot do not keep a list from being finished. -/
theorem finish_eq {nullable : Bool} {ends : Slots} {child : Writer} {chunk : Chunk}
    (hends : ends.Holds t.slots) (hchild : child.finish = .ok chunk)
    (hle : t.placed.length ≤ chunk.length) (hnulls : nullable = false → chunk.nullCount = 0) :
    (Writer.list ends nullable child).finish = .ok (t.chunk nullable chunk) := by
  rw [Writer.finish, hchild]
  dsimp only
  rw [hends.offsets.items, hends.validity.finish_eq]
  exact Chunk.assembleList_offsetsOf hle hnulls Layout.itemName

/-- The finished list has one slot for each of the tiling. -/
theorem length_chunk (t : Tiling) (nullable : Bool) (child : Chunk) :
    (t.chunk nullable child).length = t.slots.length :=
  Chunk.slots_offsetsOf t.slots

/-- The slots of the finished list are those of the tiling. -/
theorem cells_chunk {item : Layout} (nullable : Bool) {child : Chunk}
    (h : t.placed ++ t.pending = List.range (item.cells child).length) :
    (Layout.list item nullable).cells (t.chunk nullable child) =
      t.cellSlots (item.cells child) := by
  have hmask : Mask.ofSlots t.slots = Mask.ofSlots (t.cellSlots (item.cells child)) :=
    (Chunk.ofSlots_map _ t.slots).symm
  show Chunk.shown (Mask.ofSlots t.slots)
    (Chunk.contents (Chunk.offsetsOf (slotLists t.slots)) (item.cells child)) = _
  rw [contents_offsetsOf_slots h, hmask]
  exact Chunk.shown_ofSlots _ fun _ => rfl

end Tiling

namespace Writer

/-- The slots of a list after operations on it. -/
structure Tiled (ops : List ListOp) (ends : Slots) (child : Writer) : Prop where
  /-- Each slot starts where the one before it ends, the first at zero. -/
  offsets : ends.offsets.ends.items = Chunk.offsetsOf (slotLists (Tiling.after ops).slots)
  /-- So the child's slots are cut into the slots' children. -/
  contents : Chunk.contents ends.offsets.ends.items (List.range child.length) =
    slotLists (Tiling.after ops).slots
  /-- No child is lost, doubled or moved before another. -/
  children : (Tiling.after ops).placed ++ (Tiling.after ops).pending = List.range child.length
  length : ends.length = closings ops
  /-- A gathering slot has the children since the gathering slot before it. -/
  gathered : ∀ before between rest, ops = before ++ between ++ close :: rest →
    (before = [] ∨ ∃ earlier, before = earlier ++ [close]) → close ∉ between →
    (Tiling.after ops).slots[closings (before ++ between)]? =
      some (some (List.range' (total before) (total between)))
  /-- Other slots have none. -/
  absent : ∀ before rest, ops = before ++ .absent :: rest →
    (Tiling.after ops).slots[closings before]? = some (some [])
  null : ∀ before rest, ops = before ++ .null :: rest →
    (Tiling.after ops).slots[closings before]? = some none
  /-- Children that came after the last gathering slot are in no slot. -/
  pending : ∀ before between, ops = before ++ between →
    (before = [] ∨ ∃ earlier, before = earlier ++ [close]) → close ∉ between →
    (Tiling.after ops).pending = List.range' (total before) (total between)

/-- Where the offsets are those of the tiling, the slots are. -/
theorem tiled_of_holds {ops : List ListOp} {ends : Slots} {child : Writer}
    (hends : ends.Holds (Tiling.after ops).slots) (hchild : child.length = total ops) :
    Tiled ops ends child where
  offsets := hends.offsets.items
  contents := by
    have hcontents := Chunk.contents_offsetsOf_append (slotLists (Tiling.after ops).slots)
      (Tiling.after ops).pending
    rw [← Tiling.placed, Tiling.placed_after] at hcontents
    rw [hchild, hends.offsets.items]
    exact hcontents
  children := hchild ▸ Tiling.placed_after
  length := by
    rw [Slots.length, hends.validity.length_eq, List.length_map, Tiling.length_slots_after]
  gathered := by
    rintro before between rest rfl hbefore hbetween
    exact Tiling.slot_close hbefore hbetween
  absent := by
    rintro before rest rfl
    exact Tiling.slot_after rfl
  null := by
    rintro before rest rfl
    exact Tiling.slot_after rfl
  pending := by
    rintro before between rfl hbefore hbetween
    exact Tiling.pending_after hbefore hbetween

/-- **Slots tile the children.**  However children are added and slots are ended, if
all goes well each slot starts where the one before it ends.  A gathering slot has the
children since the gathering slot before it, whatever slots lie between, and the
others have none.  Children after the last gathering slot are in no slot.

The child's slots are what was added to it, one after the other.  When it can be
finished, so can the list, which then has a slot for every operation that ended one,
with the child's slots in it. -/
theorem tiled_of_history {nullable : Bool} {capacity : Nat} {child₀ start w : Writer}
    {m m' : Ledger} {steps : List (Step ListOp Writer)} {ops : List ListOp}
    (hempty : child₀.length = 0) (hnew : newList capacity child₀ nullable m = (.ok start, m'))
    (hhistory : History ListOp.run start steps w) (hok : Smooth ListOp.run steps)
    (hops : steps.map (·.op) = ops) :
    ∃ ends child, w = .list ends nullable child ∧ Tiled ops ends child ∧
      (∀ {item : Layout} {cells : List (Option item.Cell)}, child₀.Holds item [] →
        allCells? item ops = some cells → child.Holds item cells) ∧
      (∀ chunk, child.finish = .ok chunk → chunk.length = child.length →
        (nullable = false → chunk.nullCount = 0) →
        w.finish = .ok ((Tiling.after ops).chunk nullable chunk) ∧
          ((Tiling.after ops).chunk nullable chunk).length = closings ops) ∧
      ∀ {item : Layout} {cells : List (Option item.Cell)}, child.Holds item cells →
        item.AdmitsAll cells → (nullable = false → none ∉ cells) →
        ∃ chunk, w.finish = .ok chunk ∧ chunk.length = closings ops ∧
          (Layout.list item nullable).cells chunk = (Tiling.after ops).cellSlots cells := by
  subst hops
  obtain ⟨ends₀, hlist, hstart⟩ := FollowsTiling.of_newList hempty hnew
  obtain ⟨ends, child, rfl, hends, hchild⟩ := hstart.of_history hhistory hok
  rw [Tiling.count_after] at hchild
  have htiled := tiled_of_holds hends hchild
  have hplaced : (Tiling.after (steps.map (·.op))).placed.length ≤ child.length := by
    rw [← List.length_range (n := child.length), ← htiled.children, List.length_append]
    exact Nat.le_add_right _ _
  have hfinish : ∀ chunk, child.finish = .ok chunk → chunk.length = child.length →
      (nullable = false → chunk.nullCount = 0) →
      (Writer.list ends nullable child).finish =
          .ok ((Tiling.after (steps.map (·.op))).chunk nullable chunk) ∧
        ((Tiling.after (steps.map (·.op))).chunk nullable chunk).length =
          closings (steps.map (·.op)) := by
    intro chunk hdone hlength hnulls
    refine ⟨Tiling.finish_eq hends hdone (hlength ▸ hplaced) hnulls, ?_⟩
    rw [Tiling.length_chunk, Tiling.length_slots_after]
  refine ⟨ends, child, rfl, htiled, ?_, hfinish, ?_⟩
  · intro item cells hitem hcells
    obtain ⟨_, _, hsame, hholds⟩ := holds_child_of_history ⟨ends₀, child₀, hlist, hitem⟩
      hhistory hok hcells
    obtain ⟨-, -, rfl⟩ := Writer.list.inj hsame
    exact hholds
  · intro item cells hholds hadmits hnulls
    have hlength : (item.chunk cells).length = child.length :=
      (item.length_chunk cells).trans hholds.length_eq.symm
    obtain ⟨hdone, hslots⟩ := hfinish _ (hholds.finish_eq hadmits) hlength fun hnullable =>
      item.nullCount_chunk (hnulls hnullable)
    have hchildren := htiled.children
    rw [hholds.length_eq, ← item.cells_chunk cells] at hchildren
    have hread := Tiling.cells_chunk nullable hchildren
    rw [item.cells_chunk] at hread
    exact ⟨_, hdone, hslots, hread⟩

/-- A column of class ids without any. -/
private def noClassIds : Writer :=
  match new (.number .uint16) {} with
  | (.ok w, _) => w
  | (.error _, _) => .struct (.new 0) .nil

/-- A list around them, whose items can be null. -/
private def noClassLists : Writer :=
  match newList 0 noClassIds true {} with
  | (.ok w, _) => w
  | (.error _, _) => noClassIds

/-- Class ids are added before, between and after slots without any. -/
private def classListOps : List ListOp :=
  [.child [] (.appendNumber .uint16 (some 7#16)), .absent,
    .child [] (.appendNumbers .uint16 [8#16, 9#16]), .null, .close, .absent,
    .child [] .appendNull]

/-- Three ids are kept past two slots for the one that gathers them.  The last id is in
no slot, and the list is finished without it. -/
theorem tiled_of_history_classes :
    ∃ w chunk, History ListOp.run noClassLists
        (stepsOf ListOp.run noClassLists (callsOn {} classListOps)) w ∧
      w.finish = .ok chunk ∧
      (Layout.list (.number .uint16) true).cells chunk =
        [some [], none, some [some 7#16, some 8#16, some 9#16], some []] := by
  have hnew : newList 0 noClassIds true {} =
      (.ok noClassLists, (newList 0 noClassIds true {}).2) := rfl
  have hempty : noClassIds.Holds (.number .uint16) [] :=
    holds_new (.number .uint16) (show new (.number .uint16) {} = (.ok noClassIds, _) from rfl)
  have hhistory : History ListOp.run noClassLists _ _ :=
    history_of_calls noClassLists (callsOn {} classListOps)
  have hok : Smooth ListOp.run (stepsOf ListOp.run noClassLists (callsOn {} classListOps)) := by
    decide
  obtain ⟨ends, child, -, -, hholds, -, hfinish⟩ :=
    tiled_of_history rfl hnew hhistory hok (ops_stepsOf _ _)
  have hcells := hholds hempty rfl
  obtain ⟨chunk, hdone, -, hread⟩ := hfinish hcells (fun _ _ _ _ => trivial) nofun
  exact ⟨_, chunk, hhistory, hdone, hread⟩

end Writer

end Columnar
