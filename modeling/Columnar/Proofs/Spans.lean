import Columnar.Chunk.Select
import Columnar.Chunk.Sound
/-!
# Spans that lie side by side

Spans fit a list when each begins where the one before it ends, or later, and the last ends
within the list: `Chunk.SpansFit`.  The runs of a mask fit whatever is as long as the mask, and
they pick exactly the marked members: `Chunk.pick_runs`.  Picking the members in spans that fit
goes together with everything that is done to lists member by member.

Spans of slots lead through the offsets to spans of content.  When the offsets fit, these ascend
again, they pick the content of the chosen slots and nothing else, and the new offsets are those
of the chosen slots without gaps: `OffsetsFit.pickOffsets_eq` and `OffsetsFit.pick_descend`.
This holds wherever the offsets start, and whatever content no slot refers to.
-/

namespace Columnar

namespace Chunk

variable {α β γ : Type}

/-- The spans ascend from a start and stay within so many members. -/
def SpansFit (n : Int) : Int → List Span → Prop
  | start, [] => start ≤ n
  | start, span :: spans =>
    start ≤ span.first ∧ span.first ≤ span.last ∧ SpansFit n span.last spans

/-- What begins later begins after an earlier start too. -/
theorem SpansFit.weaken {n start start' : Int} {spans : List Span} (h : SpansFit n start spans)
    (hle : start' ≤ start) : SpansFit n start' spans := by
  cases spans with
  | nil => exact Int.le_trans hle h
  | cons span spans => exact ⟨Int.le_trans hle h.1, h.2⟩

/-- No span that fits begins past the end of what it fits. -/
theorem SpansFit.start_le {n start : Int} {spans : List Span} (h : SpansFit n start spans) :
    start ≤ n := by
  induction spans generalizing start with
  | nil => exact h
  | cons span spans ih =>
    obtain ⟨hfirst, hlast, hrest⟩ := h
    have hend := ih hrest
    omega

/-- The spans together are no longer than what they lie in. -/
theorem SpansFit.spansLength_le {n start : Int} {spans : List Span} (h : SpansFit n start spans) :
    0 ≤ spansLength spans ∧ start + spansLength spans ≤ n := by
  induction spans generalizing start with
  | nil =>
    have hle : start ≤ n := h
    simp only [spansLength]
    omega
  | cons span spans ih =>
    obtain ⟨hfirst, hlast, hrest⟩ := h
    have htail := ih hrest
    simp only [spansLength, Span.length]
    omega

/-- A span within a list has as many members as it is long. -/
theorem length_cut {xs : List α} {span : Span} (hfirst : 0 ≤ span.first)
    (hlast : span.last ≤ xs.length) : (cut xs span).length = span.length.toNat := by
  rw [cut, List.length_take, List.length_drop, Span.length]
  omega

/-- What is picked from a list is a member of it. -/
theorem mem_of_mem_cut {xs : List α} {span : Span} {x : α} (h : x ∈ cut xs span) : x ∈ xs :=
  List.mem_of_mem_drop (List.mem_of_mem_take h)

/-- What is picked from a list is a member of it. -/
theorem mem_of_mem_pick {spans : List Span} {xs : List α} {x : α} (h : x ∈ pick spans xs) :
    x ∈ xs := by
  obtain ⟨span, -, hspan⟩ := List.mem_flatMap.1 h
  exact mem_of_mem_cut hspan

/-- Cutting a span out of a list and applying a function to the members can be done in either order.
-/
theorem cut_map (f : α → β) (xs : List α) (span : Span) :
    cut (xs.map f) span = (cut xs span).map f := by
  simp only [cut, List.map_take, List.map_drop]

/-- Picking spans from a list and applying a function to the members can be done in either order. -/
theorem pick_map (f : α → β) (spans : List Span) (xs : List α) :
    pick spans (xs.map f) = (pick spans xs).map f := by
  have hcut : cut (xs.map f) = fun span => (cut xs span).map f := funext (cut_map f xs)
  rw [pick, pick, List.map_flatMap, hcut]

/-- Cutting goes before or after joining two lists member by member. -/
theorem cut_zipWith (f : α → β → γ) (xs : List α) (ys : List β) (span : Span) :
    cut (List.zipWith f xs ys) span = List.zipWith f (cut xs span) (cut ys span) := by
  rw [cut, List.drop_zipWith, List.take_zipWith]
  rfl

/-- As many members are picked as the spans are long. -/
theorem SpansFit.length_pick {start : Int} {spans : List Span} {xs : List α}
    (h : SpansFit xs.length start spans) (hstart : 0 ≤ start) :
    (pick spans xs).length = (spansLength spans).toNat := by
  induction spans generalizing start with
  | nil => rfl
  | cons span spans ih =>
    obtain ⟨hfirst, hlast, hrest⟩ := h
    have htail := ih hrest (by omega)
    have hlengths := hrest.spansLength_le
    have hhead : (cut xs span).length = span.length.toNat := length_cut (by omega) hrest.start_le
    rw [pick] at htail ⊢
    rw [List.flatMap_cons, List.length_append, htail, hhead, spansLength]
    simp only [Span.length]
    omega

/-- Picking goes before or after joining two lists member by member. -/
theorem SpansFit.pick_zipWith {start : Int} {spans : List Span} {xs : List α} {ys : List β}
    (h : SpansFit xs.length start spans) (hstart : 0 ≤ start) (hsame : xs.length = ys.length)
    (f : α → β → γ) :
    pick spans (List.zipWith f xs ys) = List.zipWith f (pick spans xs) (pick spans ys) := by
  induction spans generalizing start with
  | nil => rfl
  | cons span spans ih =>
    obtain ⟨hfirst, hlast, hrest⟩ := h
    have htail := ih hrest (by omega)
    have hxs : (cut xs span).length = span.length.toNat := length_cut (by omega) hrest.start_le
    have hys : (cut ys span).length = span.length.toNat :=
      length_cut (by omega) (hsame ▸ hrest.start_le)
    simp only [pick, List.flatMap_cons] at htail ⊢
    rw [List.zipWith_append (hxs.trans hys.symm), cut_zipWith, htail]

/-- What comes after the last span plays no part. -/
theorem SpansFit.pick_append {start : Int} {spans : List Span} {xs : List α}
    (h : SpansFit xs.length start spans) (hstart : 0 ≤ start) (more : List α) :
    pick spans (xs ++ more) = pick spans xs := by
  induction spans generalizing start with
  | nil => rfl
  | cons span spans ih =>
    obtain ⟨hfirst, hlast, hrest⟩ := h
    have htail := ih hrest (by omega)
    have hend := hrest.start_le
    have hcut : cut (xs ++ more) span = cut xs span := by
      rw [cut, List.drop_append_of_le_length (by omega), List.take_append_of_le_length
        (by rw [List.length_drop, Span.length]; omega)]
      rfl
    simp only [pick, List.flatMap_cons] at htail ⊢
    rw [hcut, htail]

/-- The runs of a mask ascend and stay within the mask. -/
theorem spansFit_runsFrom (i : Int) (mask : Mask) :
    SpansFit (i + mask.length) i (mask.runsFrom i) := by
  induction mask generalizing i with
  | nil => simp [Mask.runsFrom, SpansFit]
  | cons bit mask ih =>
    have hrest : SpansFit (i + (bit :: mask).length) (i + 1) (Mask.runsFrom (i + 1) mask) := by
      have hend : i + 1 + mask.length = i + ((bit :: mask).length : Int) := by
        rw [List.length_cons]
        omega
      rw [← hend]
      exact ih (i + 1)
    cases bit with
    | false => exact hrest.weaken (by omega)
    | true =>
      rw [Mask.runsFrom]
      split
      · rename_i hruns
        rw [hruns] at hrest
        exact ⟨Int.le_refl i, by dsimp only; omega, hrest⟩
      · rename_i run runs hruns
        rw [hruns] at hrest
        split
        · exact ⟨Int.le_refl i, by dsimp only; have hlast := hrest.2.1; omega, hrest.2.2⟩
        · exact ⟨Int.le_refl i, by dsimp only; omega, hrest⟩

/-- The runs of a mask fit what is as long as the mask. -/
theorem spansFit_runs (mask : Mask) : SpansFit mask.length 0 mask.runs := by
  have hruns := spansFit_runsFrom 0 mask
  rwa [Int.zero_add] at hruns

/-- A span that begins at a member has the member first. -/
private theorem cut_cons_of_first {before xs : List α} {x : α} {last : Int}
    (hlast : before.length + 1 ≤ last) :
    cut (before ++ x :: xs) ⟨before.length, last⟩ =
      x :: cut ((before ++ [x]) ++ xs) ⟨before.length + 1, last⟩ := by
  have hlength : (last - before.length).toNat = (last - (before.length + 1)).toNat + 1 := by omega
  have hfirst : (before.length + 1 : Int).toNat = (before ++ [x]).length := by
    rw [List.length_append, List.length_singleton]
    omega
  simp only [cut, Span.length]
  rw [hfirst, List.drop_left, Int.toNat_natCast, List.drop_left, hlength, List.take_succ_cons]

/-- The runs of the marks of some members pick these members, whatever comes
before them. -/
private theorem pick_runsFrom (p : α → Bool) (before xs : List α) :
    pick (Mask.runsFrom before.length (xs.map p)) (before ++ xs) = xs.filter p := by
  induction xs generalizing before with
  | nil => rfl
  | cons x xs ih =>
    have hrest := ih (before ++ [x])
    have hlength : ((before ++ [x]).length : Int) = before.length + 1 := by simp
    have hfit := spansFit_runsFrom (before.length + 1) (xs.map p)
    rw [hlength] at hrest
    rw [List.map_cons]
    cases hx : p x with
    | false =>
      rw [Mask.runsFrom, List.filter_cons_of_neg (by simp [hx]), ← hrest, List.append_assoc]
      rfl
    | true =>
      rw [Mask.runsFrom, List.filter_cons_of_pos hx]
      split
      · rename_i hruns
        rw [hruns] at hrest
        rw [← hrest, pick, List.flatMap_singleton, cut_cons_of_first (Int.le_refl _)]
        simp [cut, pick, Span.length]
      · rename_i run runs hruns
        rw [hruns] at hrest hfit
        obtain ⟨hfirst, hlast, -⟩ := hfit
        rw [← hrest]
        split
        · rename_i hjoin
          have hrun : run = ⟨before.length + 1, run.last⟩ := by
            rw [← hjoin]
          rw [pick, pick, List.flatMap_cons, List.flatMap_cons,
            cut_cons_of_first (by omega), hrun, List.append_assoc before [x] xs]
          rfl
        · rw [pick, pick, List.flatMap_cons, cut_cons_of_first (Int.le_refl _),
            List.append_assoc before [x] xs]
          simp [cut, Span.length]

/-- The runs of the marks of the members that pass a test pick just these. -/
theorem pick_runs (p : α → Bool) (xs : List α) :
    pick (Mask.runs (xs.map p)) xs = xs.filter p :=
  pick_runsFrom p [] xs

end Chunk

namespace Chunk

variable {α : Type}

/-- Offsets have one span for each slot, which is one less than there are offsets. -/
theorem length_itemSpans (offsets : List Int) :
    (itemSpans offsets).length = offsets.length - 1 := by
  rw [itemSpans, List.length_zipWith, List.length_tail]
  omega

/-- The spans of a window of offsets are the window of their spans. -/
theorem itemSpans_take (offsets : List Int) (n : Nat) :
    itemSpans (offsets.take (n + 1)) = (itemSpans offsets).take n := by
  induction offsets generalizing n with
  | nil => simp [itemSpans]
  | cons start offsets ih =>
    cases offsets with
    | nil => simp [itemSpans]
    | cons stop offsets =>
      cases n with
      | zero => simp [itemSpans]
      | succ n =>
        have hrest := ih n
        rw [List.take_succ_cons] at hrest ⊢
        show Span.mk start stop :: itemSpans (stop :: offsets.take n) = _
        rw [hrest]
        rfl

/-- The spans of a window of offsets are the window of their spans. -/
theorem itemSpans_drop (offsets : List Int) (n : Nat) :
    itemSpans (offsets.drop n) = (itemSpans offsets).drop n := by
  rw [itemSpans, itemSpans, List.drop_zipWith, List.tail_drop, List.drop_tail]

/-- The spans of the slots in a span. -/
theorem itemSpans_cut (offsets : List Int) {span : Span} (h : span.first ≤ span.last) :
    itemSpans (cut offsets ⟨span.first, span.last + 1⟩) = cut (itemSpans offsets) span := by
  have hlength : (span.last + 1 - span.first).toNat = (span.last - span.first).toNat + 1 := by
    omega
  rw [cut, cut, Span.length, Span.length]
  dsimp only
  rw [hlength, itemSpans_take, itemSpans_drop]

/-- An offset that is there. -/
private theorem getD_of_lt {offsets : List Int} {i : Nat} (h : i < offsets.length) :
    offsets.getD i 0 = offsets[i] := by
  rw [List.getD_eq_getElem?_getD, List.getElem?_eq_getElem h, Option.getD_some]

/-- Of offsets that fit, a later one is never smaller than an earlier one. -/
theorem OffsetsFit.getD_le {offsets : List Int} {length : Nat} (h : OffsetsFit offsets length)
    {i j : Nat} (hij : i ≤ j) (hj : j < offsets.length) :
    offsets.getD i 0 ≤ offsets.getD j 0 := by
  rw [getD_of_lt (by omega), getD_of_lt hj]
  rcases Nat.eq_or_lt_of_le hij with rfl | hlt
  · exact Int.le_refl _
  · exact List.pairwise_iff_getElem.1 h.2.2 i j (by omega) hj hlt

/-- Each of the offsets that fit lies within the content. -/
theorem OffsetsFit.getD_mem {offsets : List Int} {length : Nat} (h : OffsetsFit offsets length)
    {i : Nat} (hi : i < offsets.length) :
    0 ≤ offsets.getD i 0 ∧ offsets.getD i 0 ≤ length ∧ offsets.getD i 0 ≤ Offsets.maxOffset := by
  rw [getD_of_lt hi]
  exact h.2.1 _ (List.getElem_mem hi)

/-- The span of a slot reaches from its offset to the next. -/
theorem getElem?_itemSpans {offsets : List Int} {i : Nat} (hi : i + 1 < offsets.length) :
    (itemSpans offsets)[i]? = some ⟨offsets.getD i 0, offsets.getD (i + 1) 0⟩ := by
  rw [itemSpans, List.getElem?_zipWith, List.getElem?_tail, List.getElem?_eq_getElem (by omega),
    List.getElem?_eq_getElem hi, getD_of_lt (by omega), getD_of_lt hi]

/-- The spans of the slots lie within the content that the offsets fit. -/
theorem OffsetsFit.mem_itemSpans {offsets : List Int} {length : Nat} (h : OffsetsFit offsets length)
    {span : Span} (hspan : span ∈ itemSpans offsets) :
    0 ≤ span.first ∧ span.first ≤ span.last ∧ span.last ≤ length := by
  obtain ⟨i, hi⟩ := List.mem_iff_getElem?.1 hspan
  have hlt : i < (itemSpans offsets).length := (List.getElem?_eq_some_iff.1 hi).1
  rw [length_itemSpans] at hlt
  rw [getElem?_itemSpans (by omega)] at hi
  obtain rfl := Option.some.inj hi
  exact ⟨(h.getD_mem (by omega)).1, h.getD_le (Nat.le_succ i) (by omega),
    (h.getD_mem (by omega)).2.1⟩

/-- What two neighbouring spans cut out of a list is what they cut out as one span. -/
theorem cut_append_cut (xs : List α) {first middle last : Int} (hfirst : 0 ≤ first)
    (hmiddle : first ≤ middle) (hlast : middle ≤ last) :
    cut xs ⟨first, middle⟩ ++ cut xs ⟨middle, last⟩ = cut xs ⟨first, last⟩ := by
  have hdrop : middle.toNat = first.toNat + (middle - first).toNat := by omega
  have hlength : (last - first).toNat = (middle - first).toNat + (last - middle).toNat := by omega
  simp only [cut, Span.length]
  rw [hlength, List.take_add, List.drop_drop, hdrop]

/-- The slots from one to another have the content between their offsets. -/
theorem OffsetsFit.flatten_cut {offsets : List Int} {xs : List α}
    (h : OffsetsFit offsets xs.length) {i n : Nat} (hn : i + n < offsets.length) :
    (((itemSpans offsets).drop i).take n |>.map (cut xs)).flatten =
      cut xs ⟨offsets.getD i 0, offsets.getD (i + n) 0⟩ := by
  induction n with
  | zero => simp [cut, Span.length]
  | succ n ih =>
    have hbefore := ih (by omega)
    have hslot : (itemSpans offsets)[i + n]? =
        some ⟨offsets.getD (i + n) 0, offsets.getD (i + n + 1) 0⟩ := getElem?_itemSpans (by omega)
    rw [List.take_add_one, List.getElem?_drop, hslot, List.map_append, List.flatten_append,
      hbefore]
    show _ ++ (cut xs _ ++ []) = _
    rw [List.append_nil]
    exact cut_append_cut xs (h.getD_mem (by omega)).1 (h.getD_le (by omega) (by omega))
      (h.getD_le (by omega) (by omega))

/-- The spans of content ascend when the spans of slots do. -/
theorem OffsetsFit.spansFit_descend {offsets : List Int} {length : Nat}
    (h : OffsetsFit offsets length) {start bound : Int} {spans : List Span}
    (hspans : SpansFit (offsets.length - 1 : Nat) start spans) (hstart : 0 ≤ start)
    (hbound : ∀ offset ∈ offsets, offset ≤ bound) :
    SpansFit bound (offsets.getD start.toNat 0) (descend spans offsets) := by
  have hpos : 0 < offsets.length := List.length_pos_iff.2 h.1
  induction spans generalizing start with
  | nil =>
    have hlt : start.toNat < offsets.length := by
      have hle : start ≤ (offsets.length - 1 : Nat) := hspans
      omega
    show offsets.getD start.toNat 0 ≤ bound
    rw [getD_of_lt hlt]
    exact hbound _ (List.getElem_mem hlt)
  | cons span spans ih =>
    obtain ⟨hfirst, hlast, hrest⟩ := hspans
    have hend := hrest.start_le
    exact ⟨h.getD_le (by omega) (by omega), h.getD_le (by omega) (by omega),
      ih hrest (by omega)⟩

/-- The spans of the chosen slots are picked from the spans of all. -/
theorem flatMap_itemSpans {bound start : Int} {spans : List Span} (offsets : List Int)
    (hspans : SpansFit bound start spans) :
    (spans.flatMap fun span => itemSpans (cut offsets ⟨span.first, span.last + 1⟩)) =
      pick spans (itemSpans offsets) := by
  induction spans generalizing start with
  | nil => rfl
  | cons span spans ih =>
    obtain ⟨-, hlast, hrest⟩ := hspans
    rw [List.flatMap_cons, itemSpans_cut offsets hlast, ih hrest, pick, pick, List.flatMap_cons]

/-- Spans that lie within a list are as long as what they cut out of it. -/
theorem rebase_eq_offsetsFrom {xs : List α} (start : Int) {spans : List Span}
    (h : ∀ span ∈ spans, 0 ≤ span.first ∧ span.first ≤ span.last ∧ span.last ≤ xs.length) :
    rebase start spans = offsetsFrom start ((spans.map (cut xs)).map List.length) := by
  induction spans generalizing start with
  | nil => rfl
  | cons span spans ih =>
    obtain ⟨hfirst, hlast, hend⟩ := h span List.mem_cons_self
    have hlength : ((cut xs span).length : Int) = span.length := by
      rw [length_cut hfirst hend, Span.length]
      omega
    rw [rebase, List.map_cons, List.map_cons, offsetsFrom, hlength,
      ih _ fun other hother => h other (List.mem_cons_of_mem span hother)]

/-- The new offsets are those of the chosen slots without gaps. -/
theorem OffsetsFit.pickOffsets_eq {offsets : List Int} {xs : List α}
    (h : OffsetsFit offsets xs.length) {spans : List Span}
    (hspans : SpansFit (offsets.length - 1 : Nat) 0 spans) :
    pickOffsets spans offsets = offsetsOf (pick spans (contents offsets xs)) := by
  have hinner : SpansFit (itemSpans offsets).length 0 spans := by
    rw [length_itemSpans]
    exact hspans
  have hlength := hinner.length_pick (Int.le_refl 0)
  have htotal := hspans.spansLength_le.1
  rw [pickOffsets, flatMap_itemSpans offsets hspans, List.take_of_length_le]
  · rw [rebase_eq_offsetsFrom 0 fun span hspan => h.mem_itemSpans (mem_of_mem_pick hspan),
      contents, pick_map, offsetsOf]
  · rw [length_rebase, hlength]
    omega

/-- The spans of content pick just the content of the chosen slots. -/
theorem OffsetsFit.pick_descend {offsets : List Int} {xs : List α}
    (h : OffsetsFit offsets xs.length) {start : Int} {spans : List Span}
    (hspans : SpansFit (offsets.length - 1 : Nat) start spans) (hstart : 0 ≤ start) :
    pick (descend spans offsets) xs = (pick spans (contents offsets xs)).flatten := by
  have hpos : 0 < offsets.length := List.length_pos_iff.2 h.1
  induction spans generalizing start with
  | nil => rfl
  | cons span spans ih =>
    obtain ⟨hfirst, hlast, hrest⟩ := hspans
    have hend := hrest.start_le
    have htail := ih hrest (by omega)
    have hslots : span.last.toNat = span.first.toNat + span.length.toNat := by
      rw [Span.length]
      omega
    have hhead : (cut (contents offsets xs) span).flatten =
        cut xs ⟨offsets.getD span.first.toNat 0, offsets.getD span.last.toNat 0⟩ := by
      rw [contents, cut_map, hslots]
      exact h.flatten_cut (by omega)
    simp only [pick, descend, List.map_cons, List.flatMap_cons, List.flatten_append] at htail ⊢
    rw [hhead, htail]

end Chunk

end Columnar
