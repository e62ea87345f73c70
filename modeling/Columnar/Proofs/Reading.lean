import Columnar.Chunk.Sound
import Columnar.Proofs.Cells
import Columnar.Proofs.Selection
import Columnar.Value.Read
/-!
# Reading chunks that fit

A chunk that fits the layout of a type is read slot by slot: every slot stands
for a value, and reading gives just these values, in order:
`ValueType.exists_read`.  There is one condition, that nothing is null at the
top unless the type knows missing values.  Below the top it holds by itself,
since the layout says what may be null.

How the chunk lies in memory plays no part.  Values that may be missing are
read from a chunk with fewer slots, lists from a child with more.
-/

namespace Columnar

namespace Chunk

/-- Values of the slots that are not null go back to their places. -/
theorem exists_spread {α β : Type} {f : Option α → Option β} {slots : List (Option α)}
    {values : List β} (h : (slots.filter Option.isSome).map f = values.map some) :
    ∃ options, spread (slots.map Option.isSome) values = .ok options ∧
      slots.map (fun slot => if slot.isSome then (f slot).map some else some none) =
        options.map some := by
  induction slots generalizing values with
  | nil => exact ⟨[], rfl, rfl⟩
  | cons slot slots ih =>
    cases slot with
    | none =>
      obtain ⟨options, hspread, hoptions⟩ := ih h
      refine ⟨none :: options, ?_, ?_⟩
      · rw [List.map_cons, Option.isSome_none, spread, hspread]
        rfl
      · rw [List.map_cons, List.map_cons, hoptions]
        rfl
    | some a =>
      rw [List.filter_cons_of_pos rfl, List.map_cons] at h
      cases values with
      | nil => exact nomatch h
      | cons value values =>
        obtain ⟨hvalue, hvalues⟩ := List.cons.inj h
        obtain ⟨options, hspread, hoptions⟩ := ih hvalues
        refine ⟨some value :: options, ?_, ?_⟩
        · rw [List.map_cons, Option.isSome_some, spread, hspread]
          rfl
        · rw [List.map_cons, List.map_cons, hoptions, hvalue]
          rfl

/-- What counts as the mask of a chunk that fits is the mask of its slots. -/
theorem keepIfNull_logicalValidity {layout : Layout} {chunk : Chunk} (h : layout.Fits chunk) :
    keepIfNull chunk.logicalValidity = Mask.ofSlots (layout.cells chunk) := by
  rw [h.logicalValidity_eq, Mask.ofSlots, h.map_isSome_cells]
  cases chunk.validity with
  | some mask => rfl
  | none =>
    refine (keepIfNull_of_not_mem fun hfalse => ?_).symm
    have hbit : false = true := List.eq_of_mem_replicate hfalse
    exact Bool.false_ne_true hbit

/-- Values that are read from slots of which none is null are all there. -/
theorem map_option_of_not_mem {α β : Type} {f : Option α → Option β} {slots : List (Option α)}
    {values : List β} (hnone : none ∉ slots) (h : slots.map f = values.map some) :
    slots.map (fun slot => if slot.isSome then (f slot).map some else some none) =
      (values.map some).map some := by
  have hslots : ∀ slot ∈ slots,
      (if slot.isSome then (f slot).map some else some none) = (f slot).map some := by
    intro slot hslot
    cases slot with
    | none => exact absurd hslot hnone
    | some a => rfl
  have hwhole := congrArg (List.map (Option.map some)) h
  rw [List.map_map, List.map_map] at hwhole
  rw [List.map_congr_left hslots, List.map_map]
  exact hwhole

/-- Values that may be missing are read if those that are there can be. -/
theorem exists_readOptions {layout : Layout} {chunk : Chunk} {β : Type}
    {f : Option layout.Cell → Option β} {read : Chunk → Except Fault (List β)}
    (h : layout.Fits chunk) (hfields : layout.hasEmptyStruct = false)
    (hread : ∀ kept, layout.Fits kept → none ∉ layout.cells kept →
      ∃ values, read kept = .ok values ∧ (layout.cells kept).map f = values.map some) :
    ∃ options, readOptions read chunk = .ok options ∧
      (layout.cells chunk).map (fun slot => if slot.isSome then (f slot).map some else some none) =
        options.map some := by
  have hmask : chunk.logicalValidity.filter (0 < Mask.nullCount ·) =
      Mask.ofSlots (layout.cells chunk) := keepIfNull_logicalValidity h
  by_cases hnull : none ∈ layout.cells chunk
  · -- What is there is filtered out and read on its own.
    rw [ofSlots_of_mem hnull] at hmask
    obtain ⟨kept, hfilter, hkept, hcells⟩ := h.filter_map hfields Option.isSome
    have hsome : none ∉ layout.cells kept := by
      rw [hcells]
      simp
    obtain ⟨values, hvalues, hsame⟩ := hread kept hkept hsome
    rw [hcells] at hsame
    obtain ⟨options, hspread, hoptions⟩ := exists_spread hsame
    refine ⟨options, ?_, hoptions⟩
    rw [readOptions, hmask]
    dsimp only
    rw [hfilter]
    dsimp only
    rw [hvalues]
    exact hspread
  · rw [ofSlots_of_not_mem hnull] at hmask
    obtain ⟨values, hvalues, hsame⟩ := hread chunk h hnull
    refine ⟨values.map some, ?_, map_option_of_not_mem hnull hsame⟩
    rw [readOptions, hmask]
    dsimp only
    rw [hvalues]
    rfl

/-- An offset that is not negative and fits its word is a size as it is. -/
theorem offsetSize_eq {offset : Int} (h : 0 ≤ offset ∧ offset ≤ Offsets.maxOffset) :
    offsetSize offset = offset.toNat := by
  rw [offsetSize, BitVec.toNat_ofInt,
    Int.emod_eq_of_lt h.1 (Int.lt_of_le_of_lt h.2 (by decide))]

/-- Places of a list that are in order have the members between them. -/
theorem range_eq {α : Type} {values : List α} {first last : Nat} (hle : first ≤ last)
    (hlength : last ≤ values.length) :
    range values first last = .ok ((values.drop first).take (last - first)) :=
  if_pos ⟨hle, hlength⟩

/-- A mask that reaches as far as the slot has its flag. -/
theorem flagAt_some {mask : Mask} {i : Nat} (hi : i < mask.length) :
    flagAt (some mask) i = .ok mask[i] := by
  rw [flagAt, List.getElem?_eq_getElem hi, Option.elim_some]

/-- A slot whose flag is there and whose offsets are in order is cut. -/
theorem cutList_eq {α : Type} {values : List α} {validity : Option Mask} {i first last : Nat}
    {valid : Bool} (hflag : flagAt validity i = .ok valid) (hle : first ≤ last)
    (hlength : last ≤ values.length) :
    cutList values validity i first last =
      .ok (if valid then .ofList ((values.drop first).take (last - first)) else .unset) := by
  rw [cutList, hflag]
  cases valid with
  | false => rfl
  | true =>
    rw [range_eq hle hlength]
    rfl

/-- Lists are cut out of values that reach far enough, a null slot is not set. -/
private theorem cutLists_from {α : Type} {values : List α} {validity : Option Mask}
    {offsets : List Int} {bits : List Bool} {i : Nat} (h : OffsetsFit offsets values.length)
    (hbits : bits.length = offsets.length - 1)
    (hflags : ∀ k (hk : k < bits.length), flagAt validity (i + k) = .ok bits[k]) :
    cutLists values validity offsets i =
      .ok ((List.zipWith slotOf bits (contents offsets values)).map
        (·.elim .unset Collection.ofList)) := by
  induction offsets generalizing bits i with
  | nil => exact absurd rfl h.1
  | cons start offsets ih =>
    cases offsets with
    | nil =>
      obtain rfl : bits = [] := List.eq_nil_of_length_eq_zero hbits
      rfl
    | cons stop offsets =>
      obtain ⟨-, hmem, hpairs⟩ := h
      obtain ⟨hhead, htail⟩ := List.pairwise_cons.1 hpairs
      cases bits with
      | nil => simp at hbits
      | cons bit bits =>
        have hrest : OffsetsFit (stop :: offsets) values.length :=
          ⟨List.cons_ne_nil _ _, fun offset hoffset => hmem offset (List.mem_cons_of_mem _ hoffset),
            htail⟩
        have hlater : ∀ k (hk : k < bits.length), flagAt validity (i + 1 + k) = .ok bits[k] := by
          intro k hk
          have hflag := hflags (k + 1) (Nat.succ_lt_succ hk)
          rw [Nat.add_right_comm i 1 k]
          exact hflag
        have hlists := ih hrest (Nat.succ.inj hbits) hlater
        have hbit : flagAt validity i = .ok bit := hflags 0 (Nat.succ_pos _)
        have hstart := hmem start List.mem_cons_self
        have hstop := hmem stop (List.mem_cons_of_mem _ List.mem_cons_self)
        have hle := hhead stop List.mem_cons_self
        have hlength : stop.toNat - start.toNat = (stop - start).toNat := by omega
        rw [cutLists, offsetSize_eq ⟨hstart.1, hstart.2.2⟩, offsetSize_eq ⟨hstop.1, hstop.2.2⟩]
        rw [if_neg (by omega), cutList_eq hbit (by omega) (by omega), hlists, hlength]
        cases bit <;> rfl

/-- Lists are cut out of values that reach far enough, a null slot is not set. -/
theorem cutLists_eq {α : Type} {values : List α} {validity : Option Mask} {offsets : List Int}
    (h : OffsetsFit offsets values.length) (hmask : MaskFits (offsets.length - 1) validity) :
    cutLists values validity offsets 0 =
      .ok ((shown validity (contents offsets values)).map (·.elim .unset Collection.ofList)) := by
  have hslots := length_contents offsets values
  rw [shown_eq_zipWith, hslots]
  refine cutLists_from h (length_flags hmask) ?_
  intro k hk
  rw [Nat.zero_add]
  cases validity with
  | none => exact congrArg Except.ok (List.getElem_replicate hk).symm
  | some mask => exact flagAt_some hk

/-- A mask shows what a function makes of the members. -/
theorem shown_map {α β : Type} (g : α → β) (validity : Option Mask) (xs : List α) :
    shown validity (xs.map g) = (shown validity xs).map (·.map g) := by
  have hslot : (fun valid x => slotOf valid (g x)) = fun valid x => (slotOf valid x).map g := by
    funext valid x
    cases valid <;> rfl
  rw [shown_eq_zipWith, shown_eq_zipWith, List.length_map, List.zipWith_map_right,
    List.map_zipWith, hslot]

/-- Lists of items are cut out of the values of all items. -/
theorem exists_cutLists {α β : Type} {f : Option α → Option β} {items : List (Option α)}
    {values : List β} {validity : Option Mask} {offsets : List Int}
    (h : OffsetsFit offsets items.length) (hmask : MaskFits (offsets.length - 1) validity)
    (hvalues : items.map f = values.map some) :
    ∃ lists, cutLists values validity offsets 0 = .ok lists ∧
      (shown validity (contents offsets items)).map
          (·.elim (some .unset) fun items => (items.mapM f).map Collection.ofList) =
        lists.map some := by
  have hlength : items.length = values.length := by
    have hlengths := congrArg List.length hvalues
    rwa [List.length_map, List.length_map] at hlengths
  rw [hlength] at h
  refine ⟨_, cutLists_eq h hmask, ?_⟩
  have hcontents : (contents offsets items).map (List.mapM f) =
      (contents offsets values).map some := by
    rw [contents, contents, List.map_map, List.map_map]
    refine List.map_congr_left ?_
    intro span _
    apply mapM_eq_some_iff.2
    rw [← cut_map, hvalues, cut_map]
  have hshown := congrArg (shown validity) hcontents
  rw [shown_map, shown_map] at hshown
  have hmaps := congrArg
    (List.map fun slot => slot.elim (some .unset) (Option.map Collection.ofList)) hshown
  rw [List.map_map, List.map_map] at hmaps
  have hleft : ∀ slot : Option (List (Option α)),
      slot.elim (some .unset) (fun items => (items.mapM f).map Collection.ofList) =
        (slot.map (List.mapM f)).elim (some .unset) (Option.map Collection.ofList) := by
    intro slot
    cases slot <;> rfl
  have hright : ∀ slot : Option (List β),
      (slot.map some).elim (some .unset) (Option.map Collection.ofList) =
        some (slot.elim .unset Collection.ofList) := by
    intro slot
    cases slot <;> rfl
  rw [List.map_map, List.map_congr_left fun slot _ => hleft slot]
  exact hmaps.trans (List.map_congr_left fun slot _ => hright slot)

/-- A mask without nulls shows every member. -/
theorem shown_of_not_mem {α : Type} {validity : Option Mask} {xs : List α}
    (hfits : MaskFits xs.length validity) (h : none ∉ shown validity xs) :
    flags xs.length validity = List.replicate xs.length true ∧ shown validity xs = xs.map some := by
  have hflags : flags xs.length validity = List.replicate xs.length true := by
    refine List.eq_replicate_iff.2 ⟨length_flags hfits, ?_⟩
    intro bit hbit
    rw [← map_isSome_shown rfl hfits] at hbit
    obtain ⟨slot, hslot, rfl⟩ := List.mem_map.1 hbit
    cases slot with
    | none => exact absurd hslot h
    | some x => rfl
  have hall : shown none xs = List.zipWith slotOf (flags xs.length none) xs := shown_eq_zipWith
  refine ⟨hflags, ?_⟩
  rw [shown_eq_zipWith, hflags]
  exact hall.symm

end Chunk

/-- Lists are cut out of the values of the child. -/
theorem ValueType.read_list (type : ValueType) (item : String) (nullable : Bool)
    (offsets : List Int) (child : Chunk) (validity : Option Mask) :
    (ValueType.collection type).read (.list item nullable offsets child validity) =
      (type.read child).bind (Chunk.cutLists · validity offsets 0) := by
  rw [read]
  cases type.read child <;> rfl

/-- The lists hold the values of the rows, column by column. -/
def FieldTypes.Shows : (fields : FieldTypes) → List fields.layoutFields.Cells → fields.Lists → Prop
  | .nil, _, _ => True
  | .cons _ type rest, rows, (values, lists) =>
    rows.map (fun row => type.ofCell row.1) = values.map some ∧
      rest.Shows (rows.map fun row => row.2) lists

/-- The first value of every column makes the first record. -/
theorem FieldTypes.exists_takeRow (record : String) : (fields : FieldTypes) →
    {row : fields.layoutFields.Cells} → {rows : List fields.layoutFields.Cells} →
    {lists : fields.Lists} → fields.Shows (row :: rows) lists →
    ∃ value rest, fields.takeRow record lists = .ok (value, rest) ∧
      fields.ofCells row = some value ∧ fields.Shows rows rest
  | .nil, _, _, _, _ => ⟨(), (), rfl, rfl, trivial⟩
  | .cons name type rest, (slot, row), rows, (values, lists), ⟨hvalues, hlists⟩ => by
    obtain ⟨others, remaining, htake, hrow, hrest⟩ := rest.exists_takeRow record hlists
    cases values with
    | nil => exact nomatch hvalues
    | cons value values =>
      obtain ⟨hvalue, hvalues⟩ := List.cons.inj hvalues
      have hslot : type.ofCell slot = some value := hvalue
      have hrow : rest.ofCells row = some others := hrow
      refine ⟨(value, others), (values, remaining), ?_, ?_, hvalues, hrest⟩
      · rw [FieldTypes.takeRow, htake]
      · rw [FieldTypes.ofCells, hslot, hrow]

/-- The values of the columns make the records, row by row. -/
theorem FieldTypes.exists_takeRows (record : String) (fields : FieldTypes)
    {rows : List fields.layoutFields.Cells} {lists : fields.Lists} (h : fields.Shows rows lists) :
    ∃ values, fields.takeRows record rows.length lists = .ok values ∧
      rows.map fields.ofCells = values.map some := by
  induction rows generalizing lists with
  | nil => exact ⟨[], rfl, rfl⟩
  | cons row rows ih =>
    obtain ⟨value, rest, htake, hrow, hrest⟩ := fields.exists_takeRow record h
    obtain ⟨values, htakes, hrows⟩ := ih hrest
    refine ⟨value :: values, ?_, ?_⟩
    · rw [List.length_cons, FieldTypes.takeRows, htake]
      dsimp only
      rw [htakes]
      rfl
    · rw [List.map_cons, List.map_cons, hrow, hrows]

/-- Where columns are found behind those of other names, the first of them is
found, and the rest behind it. -/
theorem Chunks.find?_of_agree {whole others : Chunks} {name : String} {nullable : Bool}
    {column : Chunk} {seen : List String} (hname : name ∉ seen)
    (hfind : ∀ other, other ∉ seen →
      whole.find? other = (Chunks.cons name nullable column others).find? other) :
    whole.find? name = some column ∧
      ∀ other, other ∉ name :: seen → whole.find? other = others.find? other := by
  constructor
  · rw [hfind name hname, Chunks.find?, if_pos rfl]
  · intro other hother
    rw [List.mem_cons, not_or] at hother
    rw [hfind other hother.2, Chunks.find?, if_neg fun h => hother.1 h.symm]

/-- In fields that are accepted the first has a name of its own. -/
theorem LayoutFields.check_cons_eq_ok {name : String} {layout : Layout} {nullable : Bool}
    {rest : LayoutFields} {seen : List String}
    (h : (LayoutFields.cons name layout nullable rest).check seen = .ok ()) :
    name ∉ seen ∧ layout.check = .ok () ∧ rest.check (name :: seen) = .ok () := by
  rw [LayoutFields.check] at h
  by_cases hname : name ∈ seen
  · rw [if_pos hname] at h
    exact nomatch h
  · rw [if_neg hname] at h
    cases hlayout : layout.check with
    | error fault =>
      rw [hlayout] at h
      exact nomatch h
    | ok accepted =>
      rw [hlayout] at h
      exact ⟨hname, rfl, h⟩

/-- A type whose values may be missing gives a meaning to nulls. -/
theorem ValueType.toleratesNulls_of_isNullable : (type : ValueType) → type.isNullable = true →
    type.toleratesNulls = true
  | .option _, _ => rfl
  | .named _ type, h => type.toleratesNulls_of_isNullable h
  | .boolean, h => nomatch h
  | .number _, h => nomatch h
  | .text, h => nomatch h
  | .bytes, h => nomatch h
  | .collection _, h => nomatch h
  | .record .., h => nomatch h

/-- Where a chunk may only have nulls if its values may be missing, its nulls mean
something. -/
theorem ValueType.toleratesNulls_or_nullCount (type : ValueType) {chunk : Chunk}
    (h : type.layout.Fits chunk)
    (hnone : type.isNullable = false → none ∉ type.layout.cells chunk) :
    type.toleratesNulls = true ∨ chunk.nullCount = 0 := by
  cases hnullable : type.isNullable with
  | true => exact .inl (type.toleratesNulls_of_isNullable hnullable)
  | false => exact .inr (h.nullCount_eq_zero_iff.2 (hnone hnullable))

/-- Where every row is there and no row has a null, there is no null. -/
theorem not_mem_of_zip_replicate {α : Type} {slots : List (Option α)} {length : Nat}
    (hlength : slots.length = length)
    (h : ∀ pair ∈ (List.replicate length true).zip slots, pair.1 = true → pair.2.isSome) :
    none ∉ slots := by
  intro hnone
  obtain ⟨i, hi⟩ := List.mem_iff_getElem?.1 hnone
  have hlt : i < length := by
    rw [← hlength]
    exact (List.getElem?_eq_some_iff.1 hi).1
  have hrow : (List.replicate length true)[i]? = some true := by
    rw [List.getElem?_replicate, if_pos hlt]
  have hzip : ((List.replicate length true).zip slots)[i]? = some (true, none) :=
    List.getElem?_zip_eq_some.2 ⟨hrow, hi⟩
  exact Bool.noConfusion (h _ (List.mem_of_getElem? hzip) rfl)

/-- Without nulls every member is a slot of its own. -/
theorem Layout.Fits.cells_eq_map_some {layout : Layout} {chunk : Chunk} (h : layout.Fits chunk)
    (hcount : chunk.nullCount = 0) {validity : Option Mask} {members : List layout.Cell}
    (hcells : layout.cells chunk = Chunk.shown validity members)
    (hmask : Chunk.MaskFits members.length validity) :
    layout.cells chunk = members.map some := by
  have hnone := h.nullCount_eq_zero_iff.1 hcount
  rw [hcells] at hnone ⊢
  exact (Chunk.shown_of_not_mem hmask hnone).2

/-- Requiring that there are no nulls lets a chunk through exactly if it has none. -/
theorem Chunk.requireNoNulls_eq_ok {chunk : Chunk} (h : chunk.nullCount = 0) :
    chunk.requireNoNulls = .ok () :=
  if_neg (by rw [h]; exact Nat.lt_irrefl 0)

mutual

/-- Reading a chunk that fits gives the value of every slot. -/
theorem ValueType.exists_read : (type : ValueType) → {chunk : Chunk} →
    type.optionsHaveFields = true → type.layout.check = .ok () → type.layout.Fits chunk →
    (type.toleratesNulls = true ∨ chunk.nullCount = 0) →
    ∃ values, type.read chunk = .ok values ∧
      (type.layout.cells chunk).map type.ofCell = values.map some
  | .boolean, _, _, _, hfits, hnulls => by
    have hcount := hnulls.resolve_left Bool.false_ne_true
    have hleaf : Layout.boolean.Fits _ := hfits
    obtain ⟨values, validity, rfl, h⟩ := hfits
    have hcells := hleaf.cells_eq_map_some hcount rfl h
    refine ⟨values, ?_, ?_⟩
    · rw [ValueType.read, Chunk.requireNoNulls_eq_ok hcount]
      rfl
    · exact (congrArg (List.map ValueType.boolean.ofCell) hcells).trans List.map_map
  | .number kind, _, _, _, hfits, hnulls => by
    have hcount := hnulls.resolve_left Bool.false_ne_true
    have hleaf : (Layout.number kind).Fits _ := hfits
    obtain ⟨values, validity, rfl, h⟩ := hfits
    have hcells := hleaf.cells_eq_map_some hcount (dif_pos rfl) h
    refine ⟨values, ?_, ?_⟩
    · rw [ValueType.read]
      dsimp only
      rw [dif_pos rfl, Chunk.requireNoNulls_eq_ok hcount]
      rfl
    · exact (congrArg (List.map (ValueType.number kind).ofCell) hcells).trans List.map_map
  | .text, _, _, _, hfits, hnulls => by
    have hcount := hnulls.resolve_left Bool.false_ne_true
    have hleaf : Layout.utf8.Fits _ := hfits
    obtain ⟨offsets, content, validity, rfl, -, h⟩ := hfits
    have hslots : ((Chunk.contents offsets content).map Text.decode).length =
        offsets.length - 1 := by
      rw [List.length_map, Chunk.length_contents]
    rw [← hslots] at h
    have hcells := hleaf.cells_eq_map_some hcount rfl h
    refine ⟨(Chunk.contents offsets content).map Text.decode, ?_, ?_⟩
    · rw [ValueType.read, Chunk.requireNoNulls_eq_ok hcount]
      rfl
    · exact (congrArg (List.map ValueType.text.ofCell) hcells).trans List.map_map
  | .bytes, _, _, _, hfits, hnulls => by
    have hcount := hnulls.resolve_left Bool.false_ne_true
    have hleaf : Layout.binary.Fits _ := hfits
    obtain ⟨offsets, content, validity, rfl, -, h⟩ := hfits
    rw [← Chunk.length_contents offsets content] at h
    have hcells := hleaf.cells_eq_map_some hcount rfl h
    refine ⟨Chunk.contents offsets content, ?_, ?_⟩
    · rw [ValueType.read, Chunk.requireNoNulls_eq_ok hcount]
      rfl
    · exact (congrArg (List.map ValueType.bytes.ofCell) hcells).trans List.map_map
  | .option type, chunk, hfields, hcheck, hfits, _ => by
    obtain ⟨hempty, hfields⟩ :
        type.layout.hasEmptyStruct = false ∧ type.optionsHaveFields = true := by
      simpa [ValueType.optionsHaveFields] using hfields
    have hfits : type.layout.Fits chunk := hfits
    have hread : ∀ kept, type.layout.Fits kept → none ∉ type.layout.cells kept →
        ∃ values, type.read kept = .ok values ∧
          (type.layout.cells kept).map type.ofCell = values.map some := by
      intro kept hkept hnone
      exact type.exists_read hfields hcheck hkept (.inr (hkept.nullCount_eq_zero_iff.2 hnone))
    exact Chunk.exists_readOptions hfits hempty hread
  | .collection type, chunk, hfields, hcheck, hfits, _ => by
    have hfits : (Layout.list type.layout type.isNullable).Fits chunk := hfits
    obtain ⟨name, offsets, child, validity, rfl, hoffsets, h, hchild, hnone⟩ := hfits
    have hnulls := type.toleratesNulls_or_nullCount hchild hnone
    obtain ⟨values, hread, hvalues⟩ := type.exists_read hfields hcheck hchild hnulls
    rw [← hchild.length_cells] at hoffsets
    obtain ⟨lists, hcut, hlists⟩ := Chunk.exists_cutLists hoffsets h hvalues
    refine ⟨lists, ?_, ?_⟩
    · rw [ValueType.read, hread]
      exact hcut
    · refine Eq.trans (List.map_congr_left fun slot _ => ?_) hlists
      cases slot <;> rfl
  | .record name fields, chunk, hfields, hcheck, hfits, hnulls => by
    have hfits : (Layout.struct fields.layoutFields).Fits chunk := hfits
    have hcount := hnulls.resolve_left Bool.false_ne_true
    have hnone := hfits.nullCount_eq_zero_iff.1 hcount
    obtain ⟨length, columns, validity, rfl, h, hcolumns⟩ := hfits
    have hrows := hcolumns.length_rows
    rw [← hrows] at h
    obtain ⟨hflags, hshown⟩ := Chunk.shown_of_not_mem h hnone
    rw [hrows] at hflags
    rw [hflags] at hcolumns
    obtain ⟨lists, hread, hlists⟩ :=
      fields.exists_read name hfields hcheck hcolumns fun _ _ => rfl
    obtain ⟨values, htake, hvalues⟩ := fields.exists_takeRows name hlists
    rw [hrows] at htake
    refine ⟨values, ?_, ?_⟩
    · rw [ValueType.read, Chunk.requireNoNulls_eq_ok hcount, locatedAt]
      dsimp only
      rw [hread]
      exact htake
    · refine Eq.trans ?_ hvalues
      exact (congrArg (List.map (ValueType.record name fields).ofCell) hshown).trans List.map_map
  | .named _ type, chunk, hfields, hcheck, hfits, hnulls =>
    type.exists_read hfields hcheck hfits hnulls

/-- Reading the columns of rows without nulls gives the values of every row. -/
theorem FieldTypes.exists_read (record : String) : (fields : FieldTypes) → {length : Nat} →
    {seen : List String} → {whole columns : Chunks} → fields.optionsHaveFields = true →
    fields.layoutFields.check seen = .ok () →
    fields.layoutFields.Fit length (List.replicate length true) columns →
    (∀ name, name ∉ seen → whole.find? name = columns.find? name) →
    ∃ lists, fields.read record whole = .ok lists ∧
      fields.Shows (fields.layoutFields.rows length columns) lists
  | .nil, _, _, _, _, _, _, _, _ => ⟨(), rfl, trivial⟩
  | .cons name type rest, length, seen, whole, _, hfields, hcheck, hfit, hfind => by
    obtain ⟨htype, hrest⟩ : type.optionsHaveFields = true ∧ rest.optionsHaveFields = true := by
      simpa [FieldTypes.optionsHaveFields] using hfields
    obtain ⟨hname, hlayout, hothers⟩ := LayoutFields.check_cons_eq_ok hcheck
    obtain ⟨column, others, rfl, hlength, hcolumn, hnone, hfit⟩ := hfit
    obtain ⟨hhead, htail⟩ := Chunks.find?_of_agree hname hfind
    have hcount : (type.layout.cells column).length = length := by
      rw [hcolumn.length_cells, hlength]
    have hnulls := type.toleratesNulls_or_nullCount hcolumn fun hnullable =>
      not_mem_of_zip_replicate hcount (hnone hnullable)
    obtain ⟨values, hread, hvalues⟩ := type.exists_read htype hlayout hcolumn hnulls
    obtain ⟨lists, hreads, hlists⟩ := rest.exists_read record hrest hothers hfit htail
    have hsame : (type.layout.cells column).length =
        (rest.layoutFields.rows length others).length := by
      rw [hcount, hfit.length_rows]
    have hfirst : ((type.layout.cells column).zip
        (rest.layoutFields.rows length others)).map Prod.fst = type.layout.cells column :=
      List.map_fst_zip (Nat.le_of_eq hsame)
    refine ⟨(values, lists), ?_, ?_, ?_⟩
    · rw [FieldTypes.read, hhead]
      dsimp only
      rw [hread, locatedAt]
      dsimp only
      rw [hreads]
    · refine Eq.trans ?_ hvalues
      rw [← hfirst, List.map_map]
      rfl
    · have hsecond : ((type.layout.cells column).zip
          (rest.layoutFields.rows length others)).map Prod.snd =
            rest.layoutFields.rows length others :=
        List.map_snd_zip (Nat.le_of_eq hsame.symm)
      rw [← hsecond] at hlists
      exact hlists

end

end Columnar
