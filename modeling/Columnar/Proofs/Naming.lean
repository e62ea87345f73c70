import Mathlib.Data.List.Nodup
import Columnar.Names
import Columnar.Proofs.Demands
/-!
# Layouts are judged by their names

A layout is accepted exactly if no struct in it, however deep, repeats a name, and the first
field that does is the one that is named when it is not accepted.  All fields of all structs
are listed once, so the first repetition in a struct is the first one in a list.

A column is refused for its layout before anything is asked of the ledger.  A layout that is
accepted makes a column, unless memory is lacking.
-/

namespace Columnar

section Repetitions

variable {α β : Type} [DecidableEq α] [DecidableEq β]

/-- The first element that is one of those seen, or that stood before in the list. -/
def firstRepeated? : List α → (seen : List α) → Option α
  | [], _ => none
  | x :: xs, seen => if x ∈ seen then some x else firstRepeated? xs (x :: seen)

/-- Of what was seen, only what comes again counts. -/
theorem firstRepeated?_congr {xs seen seen' : List α} (h : ∀ x ∈ xs, x ∈ seen ↔ x ∈ seen') :
    firstRepeated? xs seen = firstRepeated? xs seen' := by
  induction xs generalizing seen seen' with
  | nil => rfl
  | cons x xs ih =>
    have hrest : firstRepeated? xs (x :: seen) = firstRepeated? xs (x :: seen') := by
      refine ih fun y hy => ?_
      rw [List.mem_cons, List.mem_cons, h y (List.mem_cons_of_mem x hy)]
    rw [firstRepeated?, firstRepeated?, hrest]
    exact if_congr (h x List.mem_cons_self) rfl rfl

/-- In the second of two lists the first one was seen. -/
theorem firstRepeated?_append (xs ys seen : List α) :
    firstRepeated? (xs ++ ys) seen =
      (firstRepeated? xs seen).or (firstRepeated? ys (xs.reverse ++ seen)) := by
  induction xs generalizing seen with
  | nil => rfl
  | cons x xs ih =>
    rw [List.cons_append, firstRepeated?, firstRepeated?, ih, List.reverse_cons, List.append_assoc]
    split <;> rfl

/-- Elements under new names of their own are repeated where they were. -/
theorem firstRepeated?_map {f : α → β} (hf : Function.Injective f) (xs seen : List α) :
    firstRepeated? (xs.map f) (seen.map f) = (firstRepeated? xs seen).map f := by
  induction xs generalizing seen with
  | nil => rfl
  | cons x xs ih =>
    have hrest := ih (x :: seen)
    rw [List.map_cons] at hrest
    rw [List.map_cons, firstRepeated?, firstRepeated?, hrest]
    by_cases hx : x ∈ seen
    · rw [if_pos hx, if_pos (List.mem_map_of_mem hx), Option.map_some]
    · rw [if_neg hx, if_neg fun h => hx ((List.mem_map_of_injective hf).1 h)]

/-- Nothing comes again exactly if all is new and there is nothing twice. -/
theorem firstRepeated?_eq_none_iff {xs seen : List α} :
    firstRepeated? xs seen = none ↔ xs.Nodup ∧ ∀ x ∈ xs, x ∉ seen := by
  induction xs generalizing seen with
  | nil => simp [firstRepeated?]
  | cons x xs ih =>
    rw [firstRepeated?, List.nodup_cons, List.forall_mem_cons]
    by_cases hx : x ∈ seen
    · simp [hx]
    · rw [if_neg hx, ih]
      constructor
      · rintro ⟨hnodup, hnew⟩
        refine ⟨⟨fun hmem => hnew x hmem List.mem_cons_self, hnodup⟩, hx, fun y hy hseen => ?_⟩
        exact hnew y hy (List.mem_cons_of_mem x hseen)
      · rintro ⟨⟨hmem, hnodup⟩, -, hnew⟩
        refine ⟨hnodup, fun y hy hseen => ?_⟩
        rcases List.mem_cons.1 hseen with rfl | hseen
        · exact hmem hy
        · exact hnew y hy hseen

/-- What comes again stands behind elements of which none does. -/
theorem firstRepeated?_eq_some_iff {x : α} {xs seen : List α} :
    firstRepeated? xs seen = some x ↔ ∃ before after, xs = before ++ x :: after ∧
      firstRepeated? before seen = none ∧ (x ∈ before ∨ x ∈ seen) := by
  induction xs generalizing seen with
  | nil => simp [firstRepeated?]
  | cons y xs ih =>
    rw [firstRepeated?]
    by_cases hy : y ∈ seen
    · rw [if_pos hy, Option.some.injEq]
      constructor
      · rintro rfl
        exact ⟨[], xs, rfl, rfl, .inr hy⟩
      · rintro ⟨_ | ⟨z, before⟩, after, heq, hbefore, hx⟩
        · exact (List.cons.inj heq).1
        · obtain ⟨rfl, -⟩ := List.cons.inj heq
          rw [firstRepeated?, if_pos hy] at hbefore
          exact nomatch hbefore
    · rw [if_neg hy, ih]
      constructor
      · rintro ⟨before, after, rfl, hbefore, hx⟩
        refine ⟨y :: before, after, rfl, ?_, ?_⟩
        · rw [firstRepeated?, if_neg hy, hbefore]
        · rw [List.mem_cons] at hx ⊢
          tauto
      · rintro ⟨_ | ⟨z, before⟩, after, heq, hbefore, hx⟩
        · obtain ⟨rfl, -⟩ := List.cons.inj heq
          exact absurd (hx.resolve_left List.not_mem_nil) hy
        · obtain ⟨rfl, rfl⟩ := List.cons.inj heq
          rw [firstRepeated?, if_neg hy] at hbefore
          refine ⟨before, after, rfl, hbefore, ?_⟩
          rw [List.mem_cons] at hx ⊢
          tauto

/-- Nothing seen before, the first repetition in a list is the first member that stands in front of
itself. -/
theorem firstRepeated?_nil_eq_some_iff {x : α} {xs : List α} :
    firstRepeated? xs [] = some x ↔ IsFirstRepeated x xs := by
  rw [firstRepeated?_eq_some_iff, IsFirstRepeated]
  simp [firstRepeated?_eq_none_iff]

/-- There is no repetition in a list exactly if its members are distinct. -/
theorem firstRepeated?_nil_eq_none_iff {xs : List α} : firstRepeated? xs [] = none ↔ xs.Nodup := by
  simp [firstRepeated?_eq_none_iff]

end Repetitions

theorem Naming.within_injective (inward : Inward) : Function.Injective (Naming.within inward) := by
  rintro ⟨way, name⟩ ⟨way', name'⟩ h
  simpa [Naming.within] using h

namespace LayoutFields

/-- A field is of the struct itself or inside a field from place `i` on. -/
theorem way_of_mem_namings {n : Naming} : {fields : LayoutFields} → {i : Nat} →
    n ∈ fields.namings i → n.way = [] ∨ ∃ j way, i ≤ j ∧ n.way = .field j :: way
  | .nil, _, h => absurd h List.not_mem_nil
  | .cons name layout nullable rest, i, h => by
    rw [namings] at h
    rcases List.mem_cons.1 h with rfl | h
    · exact .inl rfl
    · rcases List.mem_append.1 h with h | h
      · obtain ⟨inner, -, rfl⟩ := List.mem_map.1 h
        exact .inr ⟨i, inner.way, Nat.le_refl i, rfl⟩
      · refine (way_of_mem_namings h).imp id ?_
        rintro ⟨j, way, hle, hway⟩
        exact ⟨j, way, Nat.le_of_succ_le hle, hway⟩

/-- The fields of the struct itself have the names of the struct. -/
theorem mem_namings_nil_iff {name : String} : {fields : LayoutFields} → {i : Nat} →
    ⟨[], name⟩ ∈ fields.namings i ↔ name ∈ fields.names
  | .nil, _ => by simp [namings, names]
  | .cons own layout nullable rest, i => by
    have hinner : ⟨[], name⟩ ∉ layout.namings.map (Naming.within (.field i)) := by
      intro h
      obtain ⟨inner, -, heq⟩ := List.mem_map.1 h
      exact nomatch congrArg Naming.way heq
    rw [namings, names, List.mem_cons, List.mem_cons, List.mem_append, or_iff_right hinner,
      mem_namings_nil_iff, Naming.mk.injEq, and_iff_right rfl]

/-- A field inside one field is not a field of the struct, nor inside another field. -/
theorem not_mem_within {layout : Layout} {fields : LayoutFields} {i : Nat} {n : Naming}
    (h : n ∈ fields.namings (i + 1)) : n ∉ layout.namings.map (Naming.within (.field i)) := by
  intro hinner
  obtain ⟨inner, -, rfl⟩ := List.mem_map.1 hinner
  rcases way_of_mem_namings h with hway | ⟨j, way, hle, hway⟩
  · exact nomatch hway
  · obtain ⟨hij, -⟩ := List.cons.inj hway
    obtain rfl := Inward.field.inj hij
    exact absurd hle (Nat.not_succ_le_self i)

/-- There is nothing twice exactly if the names of the struct differ and there is nothing
twice inside each field. -/
theorem nodup_namings_iff : {fields : LayoutFields} → {i : Nat} → (fields.namings i).Nodup ↔
    fields.names.Nodup ∧ ∀ field ∈ fields.toList, field.2.1.namings.Nodup
  | .nil, _ => by simp [namings, names, toList]
  | .cons name layout nullable rest, i => by
    have hown : ⟨[], name⟩ ∉ layout.namings.map (Naming.within (.field i)) := by
      intro h
      obtain ⟨inner, -, heq⟩ := List.mem_map.1 h
      exact List.cons_ne_nil _ _ (congrArg Naming.way heq)
    have happart : (layout.namings.map (Naming.within (.field i))).Disjoint
        (rest.namings (i + 1)) := fun n hinner hrest => not_mem_within hrest hinner
    rw [namings, names, toList, List.nodup_cons, List.nodup_cons, List.forall_mem_cons,
      List.mem_append, or_iff_right hown, mem_namings_nil_iff, List.nodup_append',
      List.nodup_map_iff (Naming.within_injective _), nodup_namings_iff]
    tauto

end LayoutFields

namespace Layout

/-- What a layout comes to whose first repetition is known. -/
def judged : Option Naming → Except Fault Unit
  | none => .ok ()
  | some n => .error (.invalidArgument (.duplicateField n.name))

end Layout

mutual

/-- A layout is checked for the first repetition among its fields. -/
theorem Layout.check_eq : (layout : Layout) →
    layout.check = Layout.judged (firstRepeated? layout.namings [])
  | .boolean | .number _ | .binary | .utf8 => rfl
  | .list item nullable => by
    have hitem := firstRepeated?_map (Naming.within_injective .items) item.namings []
    rw [List.map_nil] at hitem
    rw [Layout.check, Layout.namings, hitem, item.check_eq]
    cases firstRepeated? item.namings [] <;> rfl
  | .struct fields => fields.check_eq 0 []

/-- Fields are checked for the first repetition among them and those seen before. -/
theorem LayoutFields.check_eq : (fields : LayoutFields) → (i : Nat) → (seen : List String) →
    fields.check seen =
      Layout.judged (firstRepeated? (fields.namings i) (seen.map (Naming.mk [])))
  | .nil, _, _ => rfl
  | .cons name layout nullable rest, i, seen => by
    have hname : Naming.mk [] name ∈ seen.map (Naming.mk []) ↔ name ∈ seen := by simp
    rw [LayoutFields.check, LayoutFields.namings, firstRepeated?, firstRepeated?_append]
    by_cases hseen : name ∈ seen
    · rw [if_pos hseen, if_pos (hname.2 hseen)]
      rfl
    · -- What is inside the field was not seen, and what follows is not inside it.
      have hinner : firstRepeated? (layout.namings.map (Naming.within (.field i)))
          (Naming.mk [] name :: seen.map (Naming.mk [])) =
            (firstRepeated? layout.namings []).map (Naming.within (.field i)) := by
        rw [← firstRepeated?_map (Naming.within_injective _)]
        refine firstRepeated?_congr fun n hn => ?_
        obtain ⟨inner, -, rfl⟩ := List.mem_map.1 hn
        simp [Naming.within]
      have hrest : firstRepeated? (rest.namings (i + 1))
          ((layout.namings.map (Naming.within (.field i))).reverse ++
            Naming.mk [] name :: seen.map (Naming.mk [])) =
          firstRepeated? (rest.namings (i + 1)) ((name :: seen).map (Naming.mk [])) := by
        refine firstRepeated?_congr fun n hn => ?_
        have hapart : n ∉ layout.namings.map (Naming.within (.field i)) :=
          LayoutFields.not_mem_within hn
        rw [List.mem_append, List.mem_reverse, or_iff_right hapart, List.map_cons]
      rw [if_neg hseen, if_neg (mt hname.1 hseen), hinner, hrest, layout.check_eq,
        rest.check_eq (i + 1) (name :: seen)]
      cases firstRepeated? layout.namings [] <;> rfl

end

namespace Layout.Distinct

/-- The items of a list are distinct with it. -/
theorem item {item : Layout} {nullable : Bool} (h : (Layout.list item nullable).Distinct) :
    item.Distinct :=
  fun way fields hway => h (.items :: way) fields hway

/-- The fields of a struct are distinct with it. -/
theorem field {fields : LayoutFields} (h : (Layout.struct fields).Distinct)
    {field : String × Layout × Bool} (hfield : field ∈ fields.toList) : field.2.1.Distinct := by
  obtain ⟨i, hi⟩ := List.mem_iff_getElem?.1 hfield
  refine fun way inner hway => h (.field i :: way) inner ?_
  rw [Layout.inside, hi]
  exact hway

end Layout.Distinct

mutual

/-- Where no struct repeats a name, no field comes twice. -/
theorem Layout.Distinct.nodup_namings : {layout : Layout} → layout.Distinct → layout.namings.Nodup
  | .boolean, _ | .number _, _ | .binary, _ | .utf8, _ => List.nodup_nil
  | .list _ _, h => h.item.nodup_namings.map (Naming.within_injective _)
  | .struct fields, h =>
    LayoutFields.nodup_namings_iff.2
      ⟨h [] fields rfl, LayoutFields.nodup_namings_of_distinct fun _ hfield => h.field hfield⟩

/-- The same inside each field. -/
theorem LayoutFields.nodup_namings_of_distinct : {fields : LayoutFields} →
    (∀ field ∈ fields.toList, field.2.1.Distinct) →
    ∀ field ∈ fields.toList, field.2.1.namings.Nodup
  | .nil, _ => nofun
  | .cons .., h =>
    List.forall_mem_cons.2 ⟨(List.forall_mem_cons.1 h).1.nodup_namings,
      LayoutFields.nodup_namings_of_distinct (List.forall_mem_cons.1 h).2⟩

end

/-- Where no field comes twice, no struct repeats a name. -/
theorem Layout.distinct_of_nodup {layout : Layout} (h : layout.namings.Nodup) :
    layout.Distinct := by
  intro way
  induction way generalizing layout with
  | nil =>
    rintro fields hway
    obtain rfl := Option.some.inj hway
    exact (LayoutFields.nodup_namings_iff.1 h).1
  | cons inward way ih =>
    intro fields hway
    -- Behind a field the way goes on in the layout of the field.
    have hgo : ∀ {outer : LayoutFields} {found : Option (String × Layout × Bool)},
        (outer.namings 0).Nodup → (∀ field ∈ found, field ∈ outer.toList) →
        (found.bind fun field => field.2.1.inside way) = some (.struct fields) →
        fields.names.Nodup := by
      intro outer found houter hfound hbind
      obtain ⟨field, hfield, hinner⟩ := Option.bind_eq_some_iff.1 hbind
      have hmem := hfound field hfield
      exact ih ((LayoutFields.nodup_namings_iff.1 houter).2 field hmem) fields hinner
    cases layout with
    | list item nullable =>
      cases inward with
      | items => exact ih (h.of_map _) fields hway
      | _ => exact nomatch hway
    | struct outer =>
      cases inward with
      | field i => exact hgo h (fun _ hfield => List.mem_of_getElem? hfield) hway
      | named name => exact hgo h (fun _ hfield => List.mem_of_find?_eq_some hfield) hway
      | items => exact nomatch hway
    | boolean | number | binary | utf8 => cases inward <;> exact nomatch hway

/-- A layout is accepted exactly if no struct in it repeats a name. -/
theorem Layout.check_eq_ok_iff (layout : Layout) : layout.check = .ok () ↔ layout.Distinct := by
  have hnone : layout.check = .ok () ↔ firstRepeated? layout.namings [] = none := by
    rw [layout.check_eq]
    cases firstRepeated? layout.namings [] <;> simp [Layout.judged]
  rw [hnone, firstRepeated?_nil_eq_none_iff]
  exact ⟨Layout.distinct_of_nodup, fun h => h.nodup_namings⟩

/-- Otherwise the first name is reported that is repeated. -/
theorem Layout.check_eq_error_iff (layout : Layout) (fault : Fault) :
    layout.check = .error fault ↔
      ∃ n, IsFirstRepeated n layout.namings ∧
        fault = .invalidArgument (.duplicateField n.name) := by
  simp only [← firstRepeated?_nil_eq_some_iff]
  rw [layout.check_eq]
  cases firstRepeated? layout.namings [] <;> simp [Layout.judged, eq_comm]

/-- A construction on a ledger leaves the limit as it is.  It fails only for lack of
memory, and never where there is no limit. -/
structure Made.Lacking {σ : Type} (m : Ledger) (made : Made σ) : Prop where
  limit_eq : made.2.limit = m.limit
  outOfMemory (fault : Fault) : made.1 = .error fault →
    m.limit ≠ none ∧ ∃ refusal, fault = .outOfMemory refusal

namespace Made.Lacking

variable {σ τ : Type} {m : Ledger} {made : Made σ}

theorem ok (a : σ) (m : Ledger) : Made.Lacking m ((.ok a, m) : Made σ) :=
  ⟨rfl, nofun⟩

theorem map (h : made.Lacking m) (whole : σ → τ) : (made.map whole).Lacking m := by
  rcases made with ⟨fault | a, m'⟩
  · refine ⟨h.limit_eq, fun fault' hfault => ?_⟩
    obtain rfl := Except.error.inj hfault
    exact h.outOfMemory fault rfl
  · exact ⟨h.limit_eq, nofun⟩

theorem chain (h : made.Lacking m) (rest : Nat) {next : σ → Ledger → Made τ}
    (hnext : ∀ a m', made = (.ok a, m') → (next a m').Lacking m') :
    (made.chain rest next).Lacking m := by
  rcases made with ⟨fault | a, m'⟩
  · refine ⟨h.limit_eq, fun fault' hfault => ?_⟩
    obtain rfl := Except.error.inj hfault
    exact h.outOfMemory fault rfl
  · obtain ⟨hlimit, hfault⟩ := hnext a m' rfl
    have hkept : m'.limit = m.limit := h.limit_eq
    exact ⟨hlimit.trans hkept, hkept ▸ hfault⟩

end Made.Lacking

/-- A loan fails to grow only under a limit. -/
theorem Loan.lacking_grow {α : Type} (loan : Loan) (n : Nat) (make : Loan → α) (m : Ledger) :
    Made.Lacking m ((loan.grow n m).elim (fun loan m => ((.ok (make loan), m) : Made α))
      fun _ m fault => (.error fault, m)) := by
  have hlimit : (loan.grow n m).ledger.limit = m.limit := by
    unfold Loan.grow
    split
    · rfl
    · have hkept := m.limit_ask n
      rcases hasked : m.ask n with ⟨_ | refusal, m'⟩ <;> rwa [hasked] at hkept
  cases hfault : (loan.grow n m).fault with
  | none =>
    rw [Outcome.elim_of_none hfault]
    exact ⟨hlimit, nofun⟩
  | some fault =>
    rw [Outcome.elim_of_some hfault]
    refine ⟨hlimit, fun fault' hfault' => ⟨fun hnone => ?_, ?_⟩⟩
    · exact nomatch hfault.symm.trans (loan.grow_of_unlimited n hnone).1
    · obtain rfl := Except.error.inj hfault'
      exact outOfMemory_of_grow hfault

namespace Buffer

variable {α : Type} {width : Nat}

/-- A buffer that is not too large is made where there is memory. -/
theorem lacking_new (bytes room : Nat) (h : roomFor? bytes = some room) (m : Ledger) :
    (new bytes m : Made (Buffer α width)).Lacking m := by
  rw [new_eq h]
  exact Loan.lacking_grow {} room (fun loan => ({ loan } : Buffer α width)) m

/-- A buffer is made with the room for what is asked. -/
theorem eq_of_new {bytes room : Nat} (h : roomFor? bytes = some room) {m m' : Ledger}
    {b : Buffer α width} (hnew : new bytes m = (.ok b, m')) : b = { loan := ⟨room⟩ } := by
  rw [new_eq h] at hnew
  cases hfault : (Loan.grow {} room m).fault with
  | none =>
    rw [Outcome.elim_of_none hfault] at hnew
    rw [← Made.ok_inj hnew, Loan.value_grow hfault]
    exact congrArg (fun n => ({ loan := ⟨n⟩ } : Buffer α width)) (Nat.zero_add room)
  | some fault =>
    rw [Outcome.elim_of_some hfault] at hnew
    exact nomatch congrArg Prod.fst hnew

end Buffer

/-- New offsets have room for the offset zero. -/
theorem Offsets.lacking_new (m : Ledger) : (Offsets.new 0 m).Lacking m := by
  rw [Offsets.new_eq]
  have hroom : Buffer.roomFor? (4 * (0 + 1)) = some 64 := rfl
  refine (Buffer.lacking_new _ _ hroom m).chain 0 fun ends m' hnew => ?_
  rw [Buffer.eq_of_new hroom hnew]
  exact .ok _ m'

theorem Slots.lacking_new (m : Ledger) : (Slots.new 0 m).Lacking m := by
  rw [Slots.new_eq]
  exact (Offsets.lacking_new m).map _

theorem BytesWriter.lacking_new (m : Ledger) : (BytesWriter.new 0 0 m).Lacking m := by
  rw [BytesWriter.new_eq]
  refine (Slots.lacking_new m).chain 0 fun slots m' _ => ?_
  exact (Buffer.lacking_new 0 0 rfl m').chain slots.room fun content m'' _ => .ok _ m''

mutual

/-- A new writer is made where there is memory. -/
theorem Writer.lacking_new : (layout : Layout) → (m : Ledger) →
    (Writer.new layout m).Lacking m
  | .boolean, m => by
    rw [Writer.new, BooleanWriter.new_eq, Bitmap.new_eq]
    exact (((Buffer.lacking_new 0 0 rfl m).map _).map _).map _
  | .number kind, m => by
    rw [Writer.new, NumberWriter.new_eq, Nat.mul_zero]
    exact ((Buffer.lacking_new 0 0 rfl m).map _).map _
  | .binary, m => (BytesWriter.lacking_new m).map _
  | .utf8, m => (BytesWriter.lacking_new m).map _
  | .list item nullable, m => by
    rw [Writer.new_list]
    refine (Writer.lacking_new item m).chain 0 fun child m' _ => ?_
    rw [Writer.newList_eq]
    exact (Slots.lacking_new m').chain child.room fun slots m'' _ => .ok _ m''
  | .struct fields, m => (Writers.lacking_new fields m).map _

/-- Writers for the fields of a struct are made, unless memory is lacking. -/
theorem Writers.lacking_new : (fields : LayoutFields) → (m : Ledger) →
    (Writers.new fields m).Lacking m
  | .nil, m => .ok _ m
  | .cons name layout nullable rest, m => by
    rw [Writers.new_cons]
    refine (Writer.lacking_new layout m).chain 0 fun column m' _ => ?_
    exact (Writers.lacking_new rest m').chain column.room fun columns m'' _ => .ok _ m''

end

namespace Layout

/-- What the names in a layout decide: whether it is acceptable, what is reported of it, and whether
columns are made for it. -/
structure Judges (layout : Layout) : Prop where
  /-- It is accepted exactly if no struct in it, however deep, repeats a name. -/
  ok_iff : layout.check = .ok () ↔ layout.Distinct
  /-- Otherwise the first field is reported whose name is repeated. -/
  error_iff (fault : Fault) : layout.check = .error fault ↔
    ∃ n, IsFirstRepeated n layout.namings ∧ fault = .invalidArgument (.duplicateField n.name)
  /-- No column is made then, and the ledger is not asked for anything. -/
  refused (fault : Fault) : layout.check = .error fault →
    ∀ m, Column.new layout m = (.error fault, m)
  /-- It is refused for nothing else. -/
  invalid_iff (m : Ledger) :
    (∃ cause, (Column.new layout m).1 = .error (.invalidArgument cause)) ↔ ¬ layout.Distinct
  /-- For an accepted layout a column is made, unless a limit leaves too little memory. -/
  lacking : layout.Distinct → ∀ m, (Column.new layout m).Lacking m

theorem judges (layout : Layout) : layout.Judges := by
  have hrefused : ∀ fault, layout.check = .error fault →
      ∀ m, Column.new layout m = (.error fault, m) := by
    intro fault hcheck m
    rw [Column.new, hcheck]
  have hlacking : layout.Distinct → ∀ m, (Column.new layout m).Lacking m := by
    intro hdistinct m
    rw [Column.new, layout.check_eq_ok_iff.2 hdistinct]
    exact (Writer.lacking_new layout m).map _
  refine ⟨layout.check_eq_ok_iff, layout.check_eq_error_iff, hrefused, fun m => ?_, hlacking⟩
  constructor
  · rintro ⟨cause, hcause⟩ hdistinct
    obtain ⟨-, refusal, hrefusal⟩ := (hlacking hdistinct m).outOfMemory _ hcause
    cases hrefusal
  · intro hnot
    cases hcheck : layout.check with
    | ok _ => exact absurd (layout.check_eq_ok_iff.1 hcheck) hnot
    | error fault =>
      obtain ⟨n, -, rfl⟩ := (layout.check_eq_error_iff fault).1 hcheck
      exact ⟨_, congrArg Prod.fst (hrefused _ hcheck m)⟩

end Layout

end Columnar
