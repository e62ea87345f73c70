import Columnar.Encoder
import Columnar.Proofs.Reading
import Columnar.Value.Meaning
/-!
# Decoding gives the meaning of slots

`ValueType.meaning` looks at a chunk itself, at one slot after the other and from there into
its columns and its child.  `Layout.cells` lays all slots out at once.  For a chunk that fits
they agree: the meaning of a slot is the value that its cell stands for,
`ValueType.meaning_eq`.

Decoding refuses the chunks of another datatype and no others for it.  A sound chunk of the
registered datatype is decoded into the meanings of its slots, whatever its memory looks like;
only a null at the top that means nothing to the type stands in the way:
`Component.decode_eq_meaning`.
-/

namespace Columnar

namespace Chunk

/-- What is made of a slot is made of nothing if it is null, and of its member
otherwise. -/
theorem bind_shown {α β : Type} {validity : Option Mask} {xs : List α} {i : Nat}
    (hfits : MaskFits xs.length validity) (hi : i < xs.length) {isNull : Bool}
    (hnull : isNull = true ↔ (shown validity xs)[i]? = some none) (f : Option α → Option β) :
    (shown validity xs)[i]?.bind f =
      if isNull then f none else xs[i]?.bind fun x => f (some x) := by
  have hlt : i < (flags xs.length validity).length := by
    rw [length_flags hfits]
    exact hi
  have hslot : (shown validity xs)[i]? = some (slotOf (flags xs.length validity)[i] xs[i]) := by
    rw [shown_eq_zipWith, List.getElem?_zipWith, List.getElem?_eq_getElem hlt,
      List.getElem?_eq_getElem hi]
  rw [hslot] at hnull ⊢
  cases hflag : (flags xs.length validity)[i] with
  | true =>
    rw [hflag] at hnull
    cases isNull with
    | true => exact nomatch hnull.1 rfl
    | false =>
      rw [List.getElem?_eq_getElem hi]
      rfl
  | false =>
    rw [hflag] at hnull
    rw [if_pos (hnull.2 rfl)]
    rfl

/-- The content of a slot reaches from its offset to the next. -/
theorem getElem?_contents {α : Type} {offsets : List Int} {content : List α}
    (h : OffsetsFit offsets content.length) {i : Nat} (hi : i < offsets.length - 1) :
    (contents offsets content)[i]? =
      some ((content.drop (offsets.getD i 0).toNat).take
        ((offsets.getD (i + 1) 0).toNat - (offsets.getD i 0).toNat)) := by
  have hspan : (itemSpans offsets)[i]? = some ⟨offsets.getD i 0, offsets.getD (i + 1) 0⟩ :=
    getElem?_itemSpans (by omega)
  have hfirst : 0 ≤ offsets.getD i 0 := (h.getD_mem (by omega)).1
  have hlength : (offsets.getD (i + 1) 0).toNat - (offsets.getD i 0).toNat =
      (offsets.getD (i + 1) 0 - offsets.getD i 0).toNat := by omega
  rw [contents, List.getElem?_map, hspan, hlength]
  rfl

/-- Members are looked up one by one or cut out together. -/
theorem mapM_range' {α β : Type} {f : α → Option β} {g : Nat → Option β} {xs : List α}
    (h : ∀ i, i < xs.length → g i = xs[i]?.bind f) {start n : Nat} (hend : start + n ≤ xs.length) :
    (List.range' start n).mapM g = ((xs.drop start).take n).mapM f := by
  induction n generalizing start with
  | zero => rfl
  | succ n ih =>
    have hlt : start < xs.length := by omega
    have hrest := @ih (start + 1) (by omega)
    have hfirst : g start = f xs[start] := by
      rw [h start hlt, List.getElem?_eq_getElem hlt]
      rfl
    rw [List.range'_succ, List.drop_eq_getElem_cons hlt, List.take_succ_cons, List.mapM_cons,
      List.mapM_cons, hfirst, hrest]

end Chunk

/-- A slot that is not null means the value that is there. -/
theorem ValueType.meaning_option (type : ValueType) {chunk : Chunk} (hfits : type.layout.Fits chunk)
    {i : Nat} (hi : i < chunk.length)
    (hinner : type.meaning chunk i = (type.layout.cells chunk)[i]?.bind type.ofCell) :
    (ValueType.option type).meaning chunk i =
      (type.layout.cells chunk)[i]?.bind (ValueType.option type).ofCell := by
  have hnull := hfits.isNullAt_eq_true_iff i
  have hmeaning : (ValueType.option type).meaning chunk i =
      if chunk.isNullAt i then some none else (type.meaning chunk i).map some := rfl
  have hlt : i < (type.layout.cells chunk).length := by
    rw [hfits.length_cells]
    exact hi
  obtain ⟨slot, hslot⟩ : ∃ slot, (type.layout.cells chunk)[i]? = some slot :=
    ⟨_, List.getElem?_eq_getElem hlt⟩
  rw [hmeaning, hslot]
  rw [hslot] at hnull hinner
  cases slot with
  | none =>
    rw [if_pos (hnull.2 rfl)]
    rfl
  | some cell =>
    rw [if_neg fun h => nomatch hnull.1 h]
    exact congrArg (Option.map some) hinner

/-- A list means the values of its items, wherever they lie in the child. -/
theorem ValueType.meaning_collection (type : ValueType) {chunk : Chunk}
    (hfits : (Layout.list type.layout type.isNullable).Fits chunk) {i : Nat} (hi : i < chunk.length)
    (hitems : ∀ child, type.layout.Fits child → ∀ j, j < child.length →
      type.meaning child j = (type.layout.cells child)[j]?.bind type.ofCell) :
    (ValueType.collection type).meaning chunk i =
      ((Layout.list type.layout type.isNullable).cells chunk)[i]?.bind
        (ValueType.collection type).ofCell := by
  have hcell := hfits.isNullAt_eq_true_iff i
  obtain ⟨name, offsets, child, validity, rfl, hoffsets, h, hchild, -⟩ := hfits
  have hi : i < offsets.length - 1 := hi
  have hnull : (Chunk.list name type.isNullable offsets child validity).isNullAt i = true ↔
      (Chunk.shown validity (Chunk.contents offsets (type.layout.cells child)))[i]? =
        some none := hcell
  have hslots := Chunk.length_contents offsets (type.layout.cells child)
  have hmeanings : ∀ j, j < (type.layout.cells child).length →
      type.meaning child j = (type.layout.cells child)[j]?.bind type.ofCell := by
    intro j hj
    rw [hchild.length_cells] at hj
    exact hitems child hchild j hj
  rw [← hchild.length_cells] at hoffsets
  have hfirst : offsets.getD i 0 ≤ offsets.getD (i + 1) 0 :=
    hoffsets.getD_le (Nat.le_succ i) (by omega)
  have hlast : offsets.getD (i + 1) 0 ≤ (type.layout.cells child).length :=
    (hoffsets.getD_mem (by omega)).2.1
  have hlist : (Chunk.itemsAt offsets i).mapM (type.meaning child) =
      (((type.layout.cells child).drop (offsets.getD i 0).toNat).take
        ((offsets.getD (i + 1) 0).toNat - (offsets.getD i 0).toNat)).mapM type.ofCell :=
    Chunk.mapM_range' hmeanings (by omega)
  have hbind := Chunk.bind_shown (hslots.symm ▸ h) (hslots.symm ▸ hi) hnull
    (ValueType.collection type).ofCell
  rw [Chunk.getElem?_contents hoffsets hi] at hbind
  have hmeaning : (ValueType.collection type).meaning
      (.list name type.isNullable offsets child validity) i =
        if (Chunk.list name type.isNullable offsets child validity).isNullAt i then some .unset
        else ((Chunk.itemsAt offsets i).mapM (type.meaning child)).map Collection.ofList := rfl
  refine Eq.trans ?_ hbind.symm
  rw [hmeaning, hlist]
  rfl

mutual

/-- The meaning of a slot is the value that its cell stands for. -/
theorem ValueType.meaning_eq : (type : ValueType) → {chunk : Chunk} →
    type.layout.check = .ok () → type.layout.Fits chunk → {i : Nat} → i < chunk.length →
    type.meaning chunk i = (type.layout.cells chunk)[i]?.bind type.ofCell
  | .boolean, chunk, _, hfits, i, hi => by
    have hfits : Layout.boolean.Fits chunk := hfits
    have hnull := hfits.isNullAt_eq_true_iff i
    obtain ⟨values, validity, rfl, h⟩ := hfits
    have hbind := Chunk.bind_shown h hi hnull fun slot : Option Bool => slot
    rw [Option.bind_fun_some] at hbind
    exact hbind.symm
  | .number kind, chunk, _, hfits, i, hi => by
    have hfits : (Layout.number kind).Fits chunk := hfits
    have hnull := hfits.isNullAt_eq_true_iff i
    obtain ⟨values, validity, rfl, h⟩ := hfits
    have hcells : (Layout.number kind).cells (.number kind values validity) =
        Chunk.shown validity values := dif_pos rfl
    rw [hcells] at hnull
    have hbind := Chunk.bind_shown h hi hnull fun slot : Option kind.Carrier => slot
    rw [Option.bind_fun_some, ← hcells] at hbind
    refine Eq.trans ?_ hbind.symm
    exact dif_pos rfl
  | .text, chunk, _, hfits, i, hi => by
    have hfits : Layout.utf8.Fits chunk := hfits
    have hcell := hfits.isNullAt_eq_true_iff i
    obtain ⟨offsets, content, validity, rfl, hoffsets, h⟩ := hfits
    have hi : i < offsets.length - 1 := hi
    have hnull : (Chunk.utf8 offsets content validity).isNullAt i = true ↔
        (Chunk.shown validity ((Chunk.contents offsets content).map Text.decode))[i]? =
          some none := hcell
    have hslots : ((Chunk.contents offsets content).map Text.decode).length =
        offsets.length - 1 := by
      rw [List.length_map, Chunk.length_contents]
    have hbind := Chunk.bind_shown (hslots.symm ▸ h) (hslots.symm ▸ hi) hnull
      fun slot : Option String => slot
    rw [List.getElem?_map, Chunk.getElem?_contents hoffsets hi] at hbind
    exact hbind.symm
  | .bytes, chunk, _, hfits, i, hi => by
    have hfits : Layout.binary.Fits chunk := hfits
    have hcell := hfits.isNullAt_eq_true_iff i
    obtain ⟨offsets, content, validity, rfl, hoffsets, h⟩ := hfits
    have hi : i < offsets.length - 1 := hi
    have hnull : (Chunk.binary offsets content validity).isNullAt i = true ↔
        (Chunk.shown validity (Chunk.contents offsets content))[i]? = some none := hcell
    have hslots := Chunk.length_contents offsets content
    have hbind := Chunk.bind_shown (hslots.symm ▸ h) (hslots.symm ▸ hi) hnull
      fun slot : Option (List UInt8) => slot
    rw [Chunk.getElem?_contents hoffsets hi] at hbind
    exact hbind.symm
  | .option type, chunk, hcheck, hfits, i, hi =>
    type.meaning_option hfits hi (type.meaning_eq hcheck hfits hi)
  | .collection type, chunk, hcheck, hfits, i, hi => by
    have hlist : (Layout.list type.layout type.isNullable).Fits chunk := hfits
    refine type.meaning_collection hlist hi ?_
    intro child hchild j hj
    exact type.meaning_eq hcheck hchild hj
  | .record name fields, chunk, hcheck, hfits, i, hi => by
    have hfits : (Layout.struct fields.layoutFields).Fits chunk := hfits
    have hnull := hfits.isNullAt_eq_true_iff i
    obtain ⟨length, columns, validity, rfl, h, hcolumns⟩ := hfits
    have hi : i < length := hi
    have hrows := hcolumns.length_rows
    have hrow := fields.meaning_eq hcheck hcolumns (fun _ _ => rfl) hi
    have hbind := Chunk.bind_shown (hrows.symm ▸ h) (hrows.symm ▸ hi) hnull
      (ValueType.record name fields).ofCell
    refine Eq.trans ?_ hbind.symm
    have hmeaning : (ValueType.record name fields).meaning (.struct length columns validity) i =
        if (Chunk.struct length columns validity).isNullAt i then none
        else fields.meaning columns i := rfl
    rw [hmeaning, hrow]
    rfl
  | .named _ type, chunk, hcheck, hfits, _, hi => type.meaning_eq hcheck hfits hi

/-- The meaning of a row is the record that its cells stand for. -/
theorem FieldTypes.meaning_eq : (fields : FieldTypes) → {length : Nat} → {rows : List Bool} →
    {seen : List String} → {whole columns : Chunks} →
    fields.layoutFields.check seen = .ok () → fields.layoutFields.Fit length rows columns →
    (∀ name, name ∉ seen → whole.find? name = columns.find? name) → {i : Nat} → i < length →
    fields.meaning whole i = (fields.layoutFields.rows length columns)[i]?.bind fields.ofCells
  | .nil, length, _, _, _, _, _, _, _, i, hi => by
    have hrow : (List.replicate length ())[i]? = some () := by
      rw [List.getElem?_replicate, if_pos hi]
    exact (congrArg (Option.bind · FieldTypes.nil.ofCells) hrow).symm
  | .cons name type rest, length, rows, seen, whole, _, hcheck, hfit, hfind, i, hi => by
    obtain ⟨hname, hlayout, hothers⟩ := LayoutFields.check_cons_eq_ok hcheck
    obtain ⟨column, others, rfl, hlength, hcolumn, -, hfit⟩ := hfit
    obtain ⟨hhead, htail⟩ := Chunks.find?_of_agree hname hfind
    have hvalue := type.meaning_eq hlayout hcolumn (hlength.symm ▸ hi : i < column.length)
    have hrow := rest.meaning_eq hothers hfit htail hi
    have hlt : i < (type.layout.cells column).length := by
      rw [hcolumn.length_cells, hlength]
      exact hi
    have hltRows : i < (rest.layoutFields.rows length others).length := by
      rw [hfit.length_rows]
      exact hi
    rw [List.getElem?_eq_getElem hlt] at hvalue
    rw [List.getElem?_eq_getElem hltRows] at hrow
    have hzip : ((type.layout.cells column).zip (rest.layoutFields.rows length others))[i]? =
        some ((type.layout.cells column)[i], (rest.layoutFields.rows length others)[i]) :=
      List.getElem?_zip_eq_some.2
        ⟨List.getElem?_eq_getElem hlt, List.getElem?_eq_getElem hltRows⟩
    refine Eq.trans ?_
      (congrArg (Option.bind · (FieldTypes.cons name type rest).ofCells) hzip).symm
    rw [FieldTypes.meaning, hhead]
    dsimp only
    rw [hvalue, hrow]
    rfl

end

/-- What is wrong with a chunk whose nulls mean nothing. -/
def Chunk.nullsFault (chunk : Chunk) : Fault :=
  .missingData (.nulls chunk.nullCount chunk.length chunk.dataType)

/-- A chunk with nulls is refused. -/
theorem Chunk.requireNoNulls_eq_error {chunk : Chunk} (h : 0 < chunk.nullCount) :
    chunk.requireNoNulls = .error chunk.nullsFault :=
  if_pos h

/-- A null at the top that means nothing to the type is missing data. -/
theorem ValueType.read_of_nulls : (type : ValueType) → {chunk : Chunk} →
    type.toleratesNulls = false → type.layout.Fits chunk → 0 < chunk.nullCount →
    ∃ fault, type.read chunk = .error fault ∧ fault.root = chunk.nullsFault
  | .boolean, _, _, ⟨values, validity, rfl, _⟩, hcount => by
    refine ⟨(Chunk.boolean values validity).nullsFault, ?_, rfl⟩
    rw [ValueType.read, Chunk.requireNoNulls_eq_error hcount]
    rfl
  | .number kind, _, _, ⟨values, validity, rfl, _⟩, hcount => by
    refine ⟨(Chunk.number kind values validity).nullsFault, ?_, rfl⟩
    rw [ValueType.read]
    dsimp only
    rw [dif_pos rfl, Chunk.requireNoNulls_eq_error hcount]
    rfl
  | .text, _, _, ⟨offsets, content, validity, rfl, _⟩, hcount => by
    refine ⟨(Chunk.utf8 offsets content validity).nullsFault, ?_, rfl⟩
    rw [ValueType.read, Chunk.requireNoNulls_eq_error hcount]
    rfl
  | .bytes, _, _, ⟨offsets, content, validity, rfl, _⟩, hcount => by
    refine ⟨(Chunk.binary offsets content validity).nullsFault, ?_, rfl⟩
    rw [ValueType.read, Chunk.requireNoNulls_eq_error hcount]
    rfl
  | .option _, _, h, _, _ => nomatch h
  | .collection _, _, h, _, _ => nomatch h
  | .record name fields, _, _, ⟨length, columns, validity, rfl, _⟩, hcount => by
    refine ⟨.within name (Chunk.struct length columns validity).nullsFault, ?_, rfl⟩
    rw [ValueType.read, Chunk.requireNoNulls_eq_error hcount]
    rfl
  | .named _ type, _, h, hfits, hcount => type.read_of_nulls h hfits hcount

/-- Every slot of a chunk that fits is read as what it means. -/
theorem ValueType.read_eq_meaning (type : ValueType) {chunk : Chunk}
    (hfields : type.optionsHaveFields = true) (hcheck : type.layout.check = .ok ())
    (hfits : type.layout.Fits chunk) (hnulls : type.toleratesNulls = true ∨ chunk.nullCount = 0) :
    ∃ values, type.read chunk = .ok values ∧
      values.map some = (List.range chunk.length).map (type.meaning chunk) := by
  obtain ⟨values, hread, hvalues⟩ := type.exists_read hfields hcheck hfits hnulls
  refine ⟨values, hread, hvalues.symm.trans ?_⟩
  apply List.ext_getElem?
  intro i
  rw [List.getElem?_map, List.getElem?_map]
  by_cases hi : i < chunk.length
  · have hlt : i < (type.layout.cells chunk).length := by
      rw [hfits.length_cells]
      exact hi
    have hmeaning := type.meaning_eq hcheck hfits hi
    rw [List.getElem?_eq_getElem hlt] at hmeaning ⊢
    rw [List.getElem?_range hi, Option.map_some, Option.map_some, hmeaning]
    rfl
  · have hge : (type.layout.cells chunk).length ≤ i := by
      rw [hfits.length_cells]
      exact Nat.not_lt.1 hi
    rw [List.getElem?_eq_none hge, List.getElem?_eq_none (by rw [List.length_range]; omega)]
    rfl

namespace Component

/-- Another datatype than the registered one is refused without a look inside. -/
theorem decode_of_dataType_ne {r : Registry} {c : Component} {chunk : Chunk}
    (h : chunk.dataType ≠ (r.entryFor c).dataType) :
    c.decode r chunk = .error (.typeMismatch (r.entryFor c).dataType chunk.dataType) := by
  rw [decode, ComponentEntry.check, if_neg h]

/-- A chunk of the registered datatype is read; faults carry the component's
name. -/
theorem decode_of_dataType_eq {r : Registry} {c : Component} {chunk : Chunk}
    (h : chunk.dataType = (r.entryFor c).dataType) :
    c.decode r chunk = locatedAt c.name (c.type.read chunk) := by
  rw [decode, ComponentEntry.check, if_pos h]

/-- The datatype alone decides whether a chunk is refused for its datatype. -/
theorem decode_eq_typeMismatch_iff {r : Registry} {c : Component} {chunk : Chunk}
    {expected actual : DataType} :
    c.decode r chunk = .error (.typeMismatch expected actual) ↔
      chunk.dataType ≠ (r.entryFor c).dataType ∧
        expected = (r.entryFor c).dataType ∧ actual = chunk.dataType := by
  constructor
  · intro hdecode
    by_cases htype : chunk.dataType = (r.entryFor c).dataType
    · -- Whatever is wrong inside is reported with the component's name.
      rw [decode_of_dataType_eq htype] at hdecode
      cases hread : c.type.read chunk with
      | ok values =>
        rw [hread] at hdecode
        exact nomatch hdecode
      | error fault =>
        rw [hread] at hdecode
        exact Fault.noConfusion (Except.error.inj hdecode)
    · rw [decode_of_dataType_ne htype] at hdecode
      obtain ⟨hexpected, hactual⟩ := Fault.typeMismatch.inj (Except.error.inj hdecode)
      exact ⟨htype, hexpected.symm, hactual.symm⟩
  · rintro ⟨htype, rfl, rfl⟩
    exact decode_of_dataType_ne htype

/-- A sound chunk is refused for its datatype exactly if that is not the
registered one.  Otherwise every slot is decoded as what it means, unless there
is a null at the top that means nothing to the type.  Columns are found by name,
so the fields of a record need names of their own; a record that repeats one
cannot be declared. -/
theorem decode_eq_meaning {r : Registry} {c : Component}
    (hown : (r.entryFor c).layout = c.type.layout) (hcheck : c.type.layout.check = .ok ())
    (hfields : c.type.optionsHaveFields = true) {chunk : Chunk} (hsound : chunk.Sound) :
    (∀ expected actual, c.decode r chunk = .error (.typeMismatch expected actual) ↔
      chunk.dataType ≠ (r.entryFor c).dataType ∧
        expected = (r.entryFor c).dataType ∧ actual = chunk.dataType) ∧
    (chunk.dataType = (r.entryFor c).dataType →
      (c.type.toleratesNulls = true ∨ ∀ i < chunk.length, chunk.isNullAt i = false) →
      ∃ values, c.decode r chunk = .ok values ∧
        values.map some = (List.range chunk.length).map (c.type.meaning chunk)) ∧
    (chunk.dataType = (r.entryFor c).dataType →
      c.type.toleratesNulls = false → (∃ i < chunk.length, chunk.isNullAt i = true) →
      ∃ fault cause, c.decode r chunk = .error fault ∧ fault.root = .missingData cause) := by
  have hfits : chunk.dataType = (r.entryFor c).dataType → c.type.layout.Fits chunk := by
    intro htype
    rw [ComponentEntry.dataType, hown] at htype
    exact c.type.layout.fits_of_sound hsound htype
  refine ⟨fun _ _ => decode_eq_typeMismatch_iff, ?_, ?_⟩
  · intro htype hnulls
    have hcount : c.type.toleratesNulls = true ∨ chunk.nullCount = 0 := by
      refine hnulls.imp_right ?_
      intro hvalid
      refine (hfits htype).nullCount_eq_zero_iff.2 ?_
      intro hnone
      obtain ⟨i, hlt, hnull⟩ := (hfits htype).none_mem_cells_iff.1 hnone
      exact Bool.false_ne_true ((hvalid i hlt).symm.trans hnull)
    obtain ⟨values, hread, hvalues⟩ := c.type.read_eq_meaning hfields hcheck (hfits htype) hcount
    refine ⟨values, ?_, hvalues⟩
    rw [decode_of_dataType_eq htype, hread]
    rfl
  · intro htype htolerates hnull
    have hnone := (hfits htype).none_mem_cells_iff.2 hnull
    have hcount : 0 < chunk.nullCount :=
      Nat.pos_of_ne_zero fun hzero => (hfits htype).nullCount_eq_zero_iff.1 hzero hnone
    obtain ⟨fault, hread, hroot⟩ := c.type.read_of_nulls htolerates (hfits htype) hcount
    refine ⟨.within c.name fault, _, ?_, hroot⟩
    rw [decode_of_dataType_eq htype, hread]
    rfl

/-- Collections of numbers that may be missing. -/
private def readingsComponent : Component where
  name := "samples.Readings"
  type := .collection (.option (.number .uint16))

/-- A window of lists: the first starts past the start of the child, the second
is null and covers an item all the same, and no list refers to the last item. -/
private def readingsWindow : Chunk :=
  .list Layout.itemName true [1, 3, 4, 4]
    (.number .uint16 [9#16, 1#16, 2#16, 7#16, 8#16] (some [true, true, false, true, true]))
    (some [true, false, true])

/-- The window is decoded into two readings of which one is missing, a collection
that is not set and an empty one. -/
theorem decode_readingsWindow :
    readingsWindow.Sound ∧ ∃ values, readingsComponent.decode {} readingsWindow = .ok values ∧
      values.map some = (List.range 3).map (readingsComponent.type.meaning readingsWindow) ∧
      values = [.populated [some 1#16, none], .unset, .empty] := by
  have hmask : ∀ {slots : Nat} {mask : Mask}, mask.length = slots →
      Chunk.MaskFits slots (some mask) := by
    intro slots mask hlength other hother
    rw [← Option.some.inj hother]
    exact hlength
  have hsound : readingsWindow.Sound :=
    ⟨⟨by decide, by decide, by decide⟩, hmask rfl, nofun, hmask rfl⟩
  have hown : (({} : Registry).entryFor readingsComponent).layout =
      readingsComponent.type.layout := rfl
  obtain ⟨-, hdecode, -⟩ := decode_eq_meaning hown rfl rfl hsound
  obtain ⟨values, hvalues, hmeaning⟩ := hdecode rfl (.inl rfl)
  refine ⟨hsound, values, hvalues, hmeaning, ?_⟩
  have hcomputed : readingsComponent.decode {} readingsWindow =
      .ok [.populated [some 1#16, none], .unset, .empty] := rfl
  exact Except.ok.inj (hvalues.symm.trans hcomputed)

end Component

end Columnar
