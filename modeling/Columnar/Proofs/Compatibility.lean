import Columnar.Proofs.Choosing
import Columnar.Proofs.Reading
/-!
# Reading looks at what the type names

A type is read from the datatypes that it accepts and from no others, with whatever
slots.  Even where nothing is to be read, the datatype is looked at on the way: what
an option leaves out, a list keeps in its child and a struct in its columns.

Two chunks that agree in all columns of the type's names are read alike, though they
may have them in another order and others between them.  Reading is followed side by
side, through what options choose from both.
-/

namespace Columnar

/-- Something pure can be done after anything. -/
theorem map_eq_bind {α β : Type} (result : Except Fault α) (f : α → β) :
    result.map f = result.bind fun a => .ok (f a) := by
  cases result <;> rfl

/-- Values that may be missing are read from the slots that are there. -/
theorem Chunk.readOptions_eq {α : Type} (read : Chunk → Except Fault (List α)) (chunk : Chunk) :
    readOptions read chunk =
      (chunk.logicalValidity.filter (0 < Mask.nullCount ·)).elim
        ((read chunk).map (·.map some))
        fun mask => (chunk.filter mask).bind fun kept => (read kept).bind (spread mask) := by
  rw [readOptions]
  cases chunk.logicalValidity.filter (0 < Mask.nullCount ·) with
  | none => rfl
  | some mask =>
    dsimp only [Option.elim_some]
    cases chunk.filter mask with
    | error fault => rfl
    | ok kept =>
      dsimp only [Except.bind]
      cases read kept <;> rfl

/-- Records are taken from the values of the columns, if no record is null. -/
theorem ValueType.read_struct (name : String) (fields : FieldTypes) (length : Nat)
    (columns : Chunks) (validity : Option Mask) :
    (ValueType.record name fields).read (.struct length columns validity) =
      (locatedAt name (Chunk.struct length columns validity).requireNoNulls).bind fun _ =>
        (fields.read name columns).bind (fields.takeRows name length) := by
  rw [read]
  cases locatedAt name (Chunk.struct length columns validity).requireNoNulls with
  | error fault => rfl
  | ok none => cases fields.read name columns <;> rfl

/-- The values of a column that is there are read first. -/
theorem FieldTypes.read_of_find? {name : String} {columns : Chunks} {column : Chunk}
    (h : columns.find? name = some column) (record : String) (type : ValueType)
    (rest : FieldTypes) :
    (FieldTypes.cons name type rest).read record columns =
      (locatedAt (fieldPlace record name) (type.read column)).bind fun values =>
        (rest.read record columns).bind fun lists => .ok (values, lists) := by
  rw [read, h]
  dsimp only
  cases locatedAt (fieldPlace record name) (type.read column) with
  | error fault => rfl
  | ok values => cases rest.read record columns <;> rfl

/-- What an option reads is what is read of a chunk of the same datatype. -/
theorem Chunk.exists_of_readOptions {α : Type} {read : Chunk → Except Fault (List α)}
    {chunk : Chunk} {slots : List (Option α)} (h : readOptions read chunk = .ok slots) :
    ∃ kept values, read kept = .ok values ∧ kept.dataType = chunk.dataType := by
  rw [readOptions_eq] at h
  cases hmask : chunk.logicalValidity.filter (0 < Mask.nullCount ·) with
  | none =>
    rw [hmask, Option.elim_none, map_eq_bind] at h
    obtain ⟨values, hread, -⟩ := exists_of_bind h
    exact ⟨chunk, values, hread, rfl⟩
  | some mask =>
    rw [hmask, Option.elim_some] at h
    obtain ⟨kept, hkept, hslots⟩ := exists_of_bind h
    obtain ⟨values, hread, -⟩ := exists_of_bind hslots
    exact ⟨kept, values, hread, dataType_of_filter hkept⟩

mutual

/-- What is read is of a datatype that the type accepts. -/
theorem ValueType.accepts_of_read : (type : ValueType) → {chunk : Chunk} →
    {values : List type.Datum} → type.read chunk = .ok values →
    type.accepts chunk.dataType = true
  | .boolean, chunk, _, h => by
    cases chunk with
    | boolean => rfl
    | _ => exact nomatch h
  | .number kind, chunk, _, h => by
    cases chunk with
    | number kind' values validity =>
      by_cases hsame : kind' = kind
      · subst hsame
        exact decide_eq_true rfl
      · exact nomatch (dif_neg hsame).symm.trans h
    | _ => exact nomatch h
  | .text, chunk, _, h => by
    cases chunk with
    | utf8 => rfl
    | _ => exact nomatch h
  | .bytes, chunk, _, h => by
    cases chunk with
    | binary => rfl
    | _ => exact nomatch h
  | .option type, chunk, _, h => by
    obtain ⟨kept, values, hread, hsame⟩ := Chunk.exists_of_readOptions h
    exact hsame ▸ type.accepts_of_read hread
  | .collection type, chunk, _, h => by
    cases chunk with
    | list _ _ offsets child validity =>
      rw [ValueType.read_list] at h
      obtain ⟨values, hread, -⟩ := exists_of_bind h
      exact type.accepts_of_read hread
    | _ => exact nomatch h
  | .record name fields, chunk, _, h => by
    cases chunk with
    | struct length columns validity =>
      rw [ValueType.read_struct] at h
      obtain ⟨_, -, hrows⟩ := exists_of_bind h
      obtain ⟨lists, hread, -⟩ := exists_of_bind hrows
      exact fields.accepts_of_read hread
    | _ => exact nomatch h
  | .named _ type, _, _, h => type.accepts_of_read h

/-- The columns that a record is read from have datatypes that its fields accept. -/
theorem FieldTypes.accepts_of_read {record : String} : (fields : FieldTypes) →
    {columns : Chunks} → {lists : fields.Lists} → fields.read record columns = .ok lists →
    fields.accepts columns.dataFields = true
  | .nil, _, _, _ => rfl
  | .cons name type rest, columns, _, h => by
    cases hfind : columns.find? name with
    | none =>
      rw [FieldTypes.read, hfind] at h
      exact nomatch h
    | some column =>
      rw [FieldTypes.read_of_find? hfind] at h
      obtain ⟨values, hvalues, hlists⟩ := exists_of_bind h
      obtain ⟨lists, hrest, -⟩ := exists_of_bind hlists
      have hread : type.read column = .ok values := by
        cases hresult : type.read column with
        | ok values' =>
          rw [hresult] at hvalues
          exact hvalues
        | error fault =>
          rw [hresult] at hvalues
          exact nomatch hvalues
      rw [FieldTypes.accepts, columns.find?_dataFields, hfind]
      exact Bool.and_eq_true_iff.2 ⟨type.accepts_of_read hread, rest.accepts_of_read hrest⟩

end

/-- The result is as said, unless the data does not fit. -/
def Delivers {α : Type} (P : α → Prop) : Except Fault α → Prop
  | .ok a => P a
  | .error fault => fault.isMisfit = true

namespace Delivers

variable {α β : Type} {P : α → Prop} {Q : β → Prop} {result : Except Fault α}

theorem map (h : Delivers P result) {f : α → β} (hf : ∀ a, P a → Q (f a)) :
    Delivers Q (result.map f) := by
  cases result with
  | ok a => exact hf a h
  | error fault => exact h

theorem bind (h : Delivers P result) {f : α → Except Fault β} (hf : ∀ a, P a → Delivers Q (f a)) :
    Delivers Q (result.bind f) := by
  cases result with
  | ok a => exact hf a h
  | error fault => exact h

/-- A place makes no other fault. -/
theorem locatedAt (h : Delivers P result) (place : String) :
    Delivers P (locatedAt place result) := by
  cases result <;> exact h

end Delivers

namespace Chunk

theorem delivers_requireNoNulls (chunk : Chunk) :
    Delivers (fun _ => True) chunk.requireNoNulls := by
  unfold requireNoNulls
  split
  · exact rfl
  · trivial

/-- There are as many values as places to put them in, or too few values. -/
theorem delivers_spread {α : Type} (mask : Mask) (values : List α) :
    Delivers (·.length = mask.length) (spread mask values) := by
  induction mask generalizing values with
  | nil => exact rfl
  | cons bit mask ih =>
    cases bit with
    | false => exact (ih values).map fun _ h => congrArg (· + 1) h
    | true =>
      cases values with
      | nil => exact rfl
      | cons value values => exact (ih values).map fun _ h => congrArg (· + 1) h

/-- Where no slots are lost, values that may be missing are read from a choice. -/
theorem Even.readOptions_eq {α : Type} {read : Chunk → Except Fault (List α)} {chunk : Chunk}
    (h : chunk.Even) (hempty : chunk.Mixed → chunk.hasEmptyStruct = false) :
    readOptions read chunk =
      (chunk.logicalValidity.filter (0 < Mask.nullCount ·)).elim
        ((read chunk).map (·.map some))
        fun mask => (read (chunk.select mask.runs)).bind (spread mask) := by
  rw [Chunk.readOptions_eq]
  cases hmask : chunk.logicalValidity.filter (0 < Mask.nullCount ·) with
  | none => rfl
  | some mask =>
    rw [Option.elim_some, (h.filter_eq_select hempty hmask).2.2]
    rfl

end Chunk

/-- A row is there, unless a column is too short. -/
theorem FieldTypes.delivers_takeRow (record : String) : (fields : FieldTypes) →
    (lists : fields.Lists) → Delivers (fun _ => True) (fields.takeRow record lists)
  | .nil, _ => trivial
  | .cons _ _ _, ([], _) => rfl
  | .cons _ _ rest, (_ :: _, lists) => by
    have hrest := rest.delivers_takeRow record lists
    rw [takeRow]
    cases htaken : rest.takeRow record lists with
    | error fault =>
      rw [htaken] at hrest
      exact hrest
    | ok taken => trivial

/-- There are as many rows as asked for, unless a column is too short. -/
theorem FieldTypes.delivers_takeRows (record : String) (fields : FieldTypes) (n : Nat)
    (lists : fields.Lists) : Delivers (·.length = n) (fields.takeRows record n lists) := by
  induction n generalizing lists with
  | zero => exact rfl
  | succ n ih =>
    have hrow := fields.delivers_takeRow record lists
    rw [takeRows]
    cases htaken : fields.takeRow record lists with
    | error fault =>
      rw [htaken] at hrow
      exact hrow
    | ok taken =>
      exact (ih taken.2).map fun _ h => congrArg (· + 1) h

mutual

/-- What is chosen from a sturdy chunk is sturdy. -/
theorem ValueType.sturdy_select (spans : List Span) : (type : ValueType) → {chunk : Chunk} →
    type.Sturdy chunk → type.Sturdy (chunk.select spans)
  | .option type, chunk, ⟨hempty, h⟩ =>
    ⟨fun hmixed => (chunk.hasEmptyStruct_select spans).trans (hempty hmixed.of_select),
      type.sturdy_select spans h⟩
  | .named _ type, _, h => type.sturdy_select spans h
  | .collection type, chunk, h => by
    cases chunk with
    | list _ _ offsets child validity =>
      exact type.sturdy_select (Chunk.descend spans offsets) h
    | _ => trivial
  | .record _ fields, chunk, h => by
    cases chunk with
    | struct length columns validity => exact fields.sturdy_select spans h
    | _ => trivial
  | .boolean, _, _ => trivial
  | .number _, _, _ => trivial
  | .text, _, _ => trivial
  | .bytes, _, _ => trivial

/-- So is what is chosen from sturdy columns. -/
theorem FieldTypes.sturdy_select (spans : List Span) : (fields : FieldTypes) →
    {columns : Chunks} → fields.Sturdy columns → fields.Sturdy (columns.select spans)
  | .nil, _, _ => trivial
  | .cons name type rest, columns, ⟨hfirst, hrest⟩ => by
    refine ⟨?_, rest.sturdy_select spans hrest⟩
    intro column hcolumn
    rw [columns.find?_select name spans] at hcolumn
    obtain ⟨whole, hwhole, rfl⟩ := Option.map_eq_some_iff.1 hcolumn
    exact type.sturdy_select spans (hfirst whole hwhole)

end

mutual

/-- As many values are read as there are slots, unless the data does not fit. -/
theorem ValueType.delivers_read : (type : ValueType) → {chunk : Chunk} → chunk.Even →
    type.Sturdy chunk → Delivers (·.length = chunk.length) (type.read chunk)
  | .boolean, chunk, _, _ => by
    cases chunk with
    | boolean values validity => exact (Chunk.delivers_requireNoNulls _).map fun _ _ => rfl
    | _ => exact rfl
  | .number kind, chunk, _, _ => by
    cases chunk with
    | number kind' values validity =>
      by_cases hsame : kind' = kind
      · subst hsame
        rw [ValueType.read, dif_pos rfl]
        exact (Chunk.delivers_requireNoNulls _).map fun _ _ => rfl
      · rw [ValueType.read, dif_neg hsame]
        exact rfl
    | _ => exact rfl
  | .text, chunk, _, _ => by
    cases chunk with
    | utf8 offsets content validity =>
      refine (Chunk.delivers_requireNoNulls _).map fun _ _ => ?_
      exact (List.length_map _).trans (Chunk.length_contents offsets content)
    | _ => exact rfl
  | .bytes, chunk, _, _ => by
    cases chunk with
    | binary offsets content validity =>
      exact (Chunk.delivers_requireNoNulls _).map fun _ _ => Chunk.length_contents offsets content
    | _ => exact rfl
  | .option type, chunk, heven, ⟨hempty, hsturdy⟩ => by
    show Delivers _ (Chunk.readOptions type.read chunk)
    rw [heven.readOptions_eq hempty]
    cases hmask : chunk.logicalValidity.filter (0 < Mask.nullCount ·) with
    | none =>
      exact (type.delivers_read heven hsturdy).map fun _ h => (List.length_map _).trans h
    | some mask =>
      obtain ⟨hspans, hlength, -⟩ := heven.filter_eq_select hempty hmask
      have hchosen := type.delivers_read (heven.select hspans).1
        (type.sturdy_select mask.runs hsturdy)
      exact hchosen.bind fun values _ => hlength ▸ Chunk.delivers_spread mask values
  | .collection type, chunk, heven, hsturdy => by
    cases chunk with
    | list _ _ offsets child validity =>
      obtain ⟨hoffsets, hmask, hchild⟩ := heven
      rw [ValueType.read_list]
      refine (type.delivers_read hchild hsturdy).bind fun values hlength => ?_
      rw [← hlength] at hoffsets
      rw [Chunk.cutLists_eq hoffsets hmask]
      exact (List.length_map _).trans
        (Chunk.length_shown (Chunk.length_contents offsets values) hmask)
    | _ => exact rfl
  | .record name fields, chunk, heven, hsturdy => by
    cases chunk with
    | struct length columns validity =>
      rw [ValueType.read_struct]
      refine ((Chunk.delivers_requireNoNulls _).locatedAt name).bind fun _ _ => ?_
      exact (fields.delivers_read name heven.2 hsturdy).bind fun lists _ =>
        fields.delivers_takeRows name length lists
    | _ => exact rfl
  | .named _ type, _, heven, hsturdy => type.delivers_read heven hsturdy

/-- The columns of a record are read, unless the data does not fit. -/
theorem FieldTypes.delivers_read (record : String) : (fields : FieldTypes) → {length : Nat} →
    {columns : Chunks} → columns.Even length → fields.Sturdy columns →
    Delivers (fun _ => True) (fields.read record columns)
  | .nil, _, _, _, _ => trivial
  | .cons name type rest, length, columns, heven, ⟨hfirst, hsturdy⟩ => by
    cases hfind : columns.find? name with
    | none =>
      rw [FieldTypes.read, hfind]
      exact rfl
    | some column =>
      have hvalues := type.delivers_read (heven.of_find? hfind).1 (hfirst column hfind)
      rw [FieldTypes.read_of_find? hfind]
      refine (hvalues.locatedAt (fieldPlace record name)).bind fun _ _ => ?_
      exact (rest.delivers_read record heven hsturdy).bind fun _ _ => trivial

end

section

variable {α β : Type} {first second : Except Fault α}

/-- Results that agree but for their faults are gone on with alike. -/
theorem toOption_bind {f g : α → Except Fault β} (h : first.toOption = second.toOption)
    (hnext : ∀ a, (f a).toOption = (g a).toOption) :
    (first.bind f).toOption = (second.bind g).toOption := by
  cases first with
  | error fault =>
    cases second with
    | error fault' => rfl
    | ok a => exact nomatch h
  | ok a =>
    cases second with
    | error fault => exact nomatch h
    | ok a' =>
      obtain rfl := Option.some.inj h
      exact hnext a

theorem toOption_map (f : α → β) (h : first.toOption = second.toOption) :
    (first.map f).toOption = (second.map f).toOption := by
  rw [map_eq_bind, map_eq_bind]
  exact toOption_bind h fun _ => rfl

/-- A place changes the fault alone. -/
theorem toOption_locatedAt (place : String) (result : Except Fault α) :
    (locatedAt place result).toOption = result.toOption := by
  cases result <;> rfl

end

/-- Whether nulls are refused depends on how many there are. -/
theorem Chunk.toOption_requireNoNulls (chunk : Chunk) :
    chunk.requireNoNulls.toOption = if 0 < chunk.nullCount then none else some () := by
  rw [requireNoNulls]
  split <;> rfl

/-- Chunks that agree are null in the same slots. -/
theorem ValueType.Alike.logicalValidity_eq : {type : ValueType} → {a b : Chunk} →
    type.Alike a b → a.logicalValidity = b.logicalValidity
  | .option type, _, _, h => (show type.Alike _ _ from h).logicalValidity_eq
  | .named _ type, _, _, h => (show type.Alike _ _ from h).logicalValidity_eq
  | .collection _, .list .., .list .., ⟨_, h, _⟩ => h
  | .record _ _, .struct .., .struct .., ⟨_, h, _⟩ => h
  | .boolean, _, _, rfl => rfl
  | .number _, _, _, rfl => rfl
  | .text, _, _, rfl => rfl
  | .bytes, _, _, rfl => rfl

mutual

/-- Choosing the same slots of chunks that agree leaves chunks that agree. -/
theorem ValueType.alike_select (spans : List Span) : (type : ValueType) → {a b : Chunk} →
    type.Alike a b → type.Alike (a.select spans) (b.select spans)
  | .option type, _, _, h => type.alike_select spans h
  | .named _ type, _, _, h => type.alike_select spans h
  | .collection type, .list _ _ offsets _ _, .list .., ⟨rfl, rfl, h⟩ =>
    ⟨rfl, rfl, type.alike_select (Chunk.descend spans offsets) h⟩
  | .record _ fields, .struct .., .struct .., ⟨_, rfl, h⟩ =>
    ⟨rfl, rfl, fields.alike_select spans h⟩
  | .boolean, _, _, rfl => rfl
  | .number _, _, _, rfl => rfl
  | .text, _, _, rfl => rfl
  | .bytes, _, _, rfl => rfl

/-- So does choosing the same rows of columns that agree. -/
theorem FieldTypes.alike_select (spans : List Span) : (fields : FieldTypes) →
    {columns columns' : Chunks} → fields.Alike columns columns' →
    fields.Alike (columns.select spans) (columns'.select spans)
  | .nil, _, _, _ => trivial
  | .cons name type rest, columns, columns', ⟨hfirst, hrest⟩ => by
    refine ⟨?_, rest.alike_select spans hrest⟩
    rw [columns.find?_select, columns'.find?_select]
    cases hfind : columns.find? name with
    | none =>
      rw [hfind] at hfirst
      exact hfirst
    | some column =>
      cases hfind' : columns'.find? name with
      | none =>
        rw [hfind, hfind'] at hfirst
        exact hfirst
      | some column' =>
        rw [hfind, hfind'] at hfirst
        exact type.alike_select spans hfirst

end

mutual

/-- From chunks that agree the same values are read, or from both none. -/
theorem ValueType.toOption_read : (type : ValueType) → {a b : Chunk} → a.Even → b.Even →
    type.Sturdy a → type.Sturdy b → type.Alike a b →
    (type.read a).toOption = (type.read b).toOption
  | .option type, a, b, ha, hb, ⟨hempty, hsturdy⟩, ⟨hempty', hsturdy'⟩, h => by
    have h : type.Alike a b := h
    show (Chunk.readOptions type.read a).toOption = (Chunk.readOptions type.read b).toOption
    rw [ha.readOptions_eq hempty, hb.readOptions_eq hempty', ← h.logicalValidity_eq]
    cases hmask : a.logicalValidity.filter (0 < Mask.nullCount ·) with
    | none => exact toOption_map _ (type.toOption_read ha hb hsturdy hsturdy' h)
    | some mask =>
      obtain ⟨hspans, -⟩ := ha.filter_eq_select hempty hmask
      rw [h.logicalValidity_eq] at hmask
      obtain ⟨hspans', -⟩ := hb.filter_eq_select hempty' hmask
      have hchosen := type.toOption_read (ha.select hspans).1 (hb.select hspans').1
        (type.sturdy_select mask.runs hsturdy) (type.sturdy_select mask.runs hsturdy')
        (type.alike_select mask.runs h)
      exact toOption_bind hchosen fun _ => rfl
  | .collection type, .list _ _ offsets child validity, .list _ _ _ child' _, ha, hb, hsturdy,
      hsturdy', ⟨rfl, rfl, h⟩ => by
    rw [ValueType.read_list, ValueType.read_list]
    exact toOption_bind (type.toOption_read ha.2.2 hb.2.2 hsturdy hsturdy' h) fun _ => rfl
  | .record name fields, .struct length columns validity, .struct _ columns' _, ha, hb, hsturdy,
      hsturdy', ⟨rfl, rfl, h⟩ => by
    have hlists := fields.toOption_read name ha.2 hb.2 hsturdy hsturdy' h
    rw [ValueType.read_struct, ValueType.read_struct]
    refine toOption_bind ?_ fun _ => toOption_bind hlists fun _ => rfl
    rw [toOption_locatedAt, toOption_locatedAt, Chunk.toOption_requireNoNulls,
      Chunk.toOption_requireNoNulls]
    rfl
  | .named _ type, _, _, ha, hb, hsturdy, hsturdy', h =>
    type.toOption_read ha hb hsturdy hsturdy' h
  | .boolean, _, _, _, _, _, _, rfl => rfl
  | .number _, _, _, _, _, _, _, rfl => rfl
  | .text, _, _, _, _, _, _, rfl => rfl
  | .bytes, _, _, _, _, _, _, rfl => rfl

/-- From columns that agree the same lists of values are read, or from both none. -/
theorem FieldTypes.toOption_read (record : String) : (fields : FieldTypes) →
    {length : Nat} → {columns columns' : Chunks} → columns.Even length → columns'.Even length →
    fields.Sturdy columns → fields.Sturdy columns' → fields.Alike columns columns' →
    (fields.read record columns).toOption = (fields.read record columns').toOption
  | .nil, _, _, _, _, _, _, _, _ => rfl
  | .cons name type rest, length, columns, columns', ha, hb, ⟨hfirst, hsturdy⟩,
      ⟨hfirst', hsturdy'⟩, ⟨hsame, h⟩ => by
    have hlists := rest.toOption_read record ha hb hsturdy hsturdy' h
    cases hfind : columns.find? name with
    | none =>
      rw [hfind] at hsame
      exact hsame.elim
    | some column =>
      cases hfind' : columns'.find? name with
      | none =>
        rw [hfind, hfind'] at hsame
        exact hsame.elim
      | some column' =>
        rw [hfind, hfind'] at hsame
        have hvalues := type.toOption_read (ha.of_find? hfind).1 (hb.of_find? hfind').1
          (hfirst column hfind) (hfirst' column' hfind') hsame
        rw [FieldTypes.read_of_find? hfind, FieldTypes.read_of_find? hfind']
        refine toOption_bind ?_ fun _ => toOption_bind hlists fun _ => rfl
        rw [toOption_locatedAt, toOption_locatedAt]
        exact hvalues

end

/-- Among columns with names of their own each is found, wherever it stands. -/
theorem Chunks.find?_of_mem {name : String} {nullable : Bool} {column : Chunk} :
    {columns : Chunks} → (columns.toList.map Prod.fst).Nodup →
    (name, nullable, column) ∈ columns.toList → columns.find? name = some column
  | .nil, _, h => nomatch h
  | .cons n _ first rest, hdistinct, h => by
    obtain ⟨hnew, hrest⟩ := List.nodup_cons.1 hdistinct
    rw [find?]
    rcases List.mem_cons.1 h with hfirst | hlater
    · obtain ⟨rfl, -, rfl⟩ : name = n ∧ nullable = _ ∧ column = first := by simpa using hfirst
      exact if_pos rfl
    · have hne : n ≠ name := by
        rintro rfl
        exact hnew (List.mem_map.2 ⟨_, hlater, rfl⟩)
      rw [if_neg hne]
      exact find?_of_mem hrest hlater

/-- **Reading looks at what the type names.**  Values are only ever read from a datatype
that the type accepts, with whatever slots.  A sound chunk of another datatype ends
with the fault that this is another datatype, or that data is missing.

From sound chunks that agree in what the type names the same values are read, or from
both none.  Where columns have names of their own, each is found wherever it stands,
so neither their order matters nor other columns, nor which items and columns may be
null, nor the name of items.

What an option chooses from must not lose slots on the way, as structs without columns
do. -/
theorem ValueType.reads_by_name (type : ValueType) :
    (∀ {chunk : Chunk} {values : List type.Datum}, type.read chunk = .ok values →
      type.accepts chunk.dataType = true) ∧
    (∀ {chunk : Chunk}, chunk.Sound → type.Sturdy chunk → type.accepts chunk.dataType = false →
      ∃ fault, type.read chunk = .error fault ∧ fault.isMisfit = true) ∧
    (∀ {a b : Chunk}, a.Sound → b.Sound → type.Sturdy a → type.Sturdy b → type.Alike a b →
      (type.read a).toOption = (type.read b).toOption) ∧
    ∀ {columns : Chunks} {name : String} {nullable : Bool} {column : Chunk},
      (columns.toList.map Prod.fst).Nodup → (name, nullable, column) ∈ columns.toList →
      columns.find? name = some column := by
  refine ⟨fun h => type.accepts_of_read h, ?_, ?_, Chunks.find?_of_mem⟩
  · intro chunk hsound hsturdy hrefused
    have hdelivers := type.delivers_read hsound.even hsturdy
    cases hread : type.read chunk with
    | ok values => exact absurd (type.accepts_of_read hread) (by simp [hrefused])
    | error fault =>
      rw [hread] at hdelivers
      exact ⟨fault, rfl, hdelivers⟩
  · intro a b ha hb hsturdy hsturdy' h
    exact type.toOption_read ha.even hb.even hsturdy hsturdy' h

/-- A class that may be missing, with a score that may be missing. -/
private def detectionType : ValueType :=
  .option (.record "Detection"
    (.cons "class_id" (.number .uint16) (.cons "score" (.option (.number .float32)) .nil)))

/-- The classes of three detections. -/
private def classIds : Chunk := .number .uint16 [7#16, 0#16, 9#16] none

/-- Their scores, of which the last is missing. -/
private def scores : Chunk :=
  .number .float32 [0x3f800000#32, 0#32, 0#32] (some [true, true, false])

/-- Three detections, the second null. -/
private def detections : Chunk :=
  .struct 3 (.cons "class_id" false classIds (.cons "score" true scores .nil))
    (some [true, false, true])

/-- The same with the columns in another order, and with lists of structs without
columns before them. -/
private def taggedDetections : Chunk :=
  .struct 3
    (.cons "tags" true (.list "tag" true [0, 0, 1, 2] (.struct 2 .nil none) none)
      (.cons "score" true scores (.cons "class_id" true classIds .nil)))
    (some [true, false, true])

/-- Detections are read, in whatever order their columns are, and not from numbers of
another width, even without any. -/
theorem ValueType.reads_by_name_detections :
    detectionType.read detections = .ok [some (7#16, some 0x3f800000#32, ()), none,
      some (9#16, none, ())] ∧
    detectionType.accepts detections.dataType = true ∧
    (detectionType.read detections).toOption = (detectionType.read taggedDetections).toOption ∧
    ∃ fault, detectionType.read
        (.struct 0 (.cons "class_id" false (.number .uint8 [] none) .nil) none) = .error fault ∧
      fault.isMisfit = true := by
  obtain ⟨haccepts, hrefuses, hsame, -⟩ := detectionType.reads_by_name
  have hmask : ∀ {slots : Nat} {mask : Mask}, mask.length = slots →
      Chunk.MaskFits slots (some mask) := by
    intro slots mask hlength other hother
    rw [← Option.some.inj hother]
    exact hlength
  have hread : detectionType.read detections = .ok [some (7#16, some 0x3f800000#32, ()), none,
      some (9#16, none, ())] := rfl
  have hsturdy : ∀ {columns : Chunks} {mask : Option Mask}, columns.find? "score" = some scores →
      (Chunk.struct 3 columns mask).hasEmptyStruct = false →
      detectionType.Sturdy (.struct 3 columns mask) := by
    intro columns mask hscores hempty
    refine ⟨fun _ => hempty, fun _ _ => trivial, ?_, trivial⟩
    intro column hcolumn
    obtain rfl := Option.some.inj (hscores.symm.trans hcolumn)
    exact ⟨fun _ => rfl, trivial⟩
  have hsound : detections.Sound :=
    ⟨hmask rfl, rfl, fun _ _ _ hnull => absurd hnull Bool.false_ne_true, nofun, rfl, nofun,
      hmask rfl, trivial⟩
  have hsoundTagged : taggedDetections.Sound :=
    ⟨hmask rfl, rfl, nofun, ⟨⟨by decide, by decide, by decide⟩, nofun, nofun, nofun, trivial⟩,
      rfl, nofun, hmask rfl, rfl, nofun, nofun, trivial⟩
  have hsoundEmpty :
      (Chunk.struct 0 (.cons "class_id" false (.number .uint8 [] none) .nil) none).Sound :=
    ⟨nofun, rfl, nofun, nofun, trivial⟩
  refine ⟨hread, haccepts hread, ?_, ?_⟩
  · exact hsame hsound hsoundTagged (hsturdy rfl rfl) (hsturdy rfl rfl)
      ⟨rfl, rfl, rfl, rfl, trivial⟩
  · exact hrefuses hsoundEmpty ⟨fun _ => rfl, fun _ _ => trivial, nofun, trivial⟩ rfl

/-- Two detections, the second null, with the given columns. -/
private def twoDetections (columns : List (String × Bool × Chunk)) : Chunk :=
  .struct 2 (.ofList columns) (some [true, false])

/-- A column that has no columns itself. -/
private def mark : String × Bool × Chunk := ("mark", true, .struct 2 .nil none)

/-- The columns that detections are read from. -/
private def detectionColumns : List (String × Bool × Chunk) :=
  [("class_id", true, .number .uint16 [7#16, 0#16] none),
    ("score", true, .number .float32 [0x3f800000#32, 0#32] none)]

/-- A stop on a line, at a place that may be missing. -/
private def stopType : ValueType :=
  .option (.record "Stop"
    (.cons "place" (.option (.record "Place" (.cons "x" (.number .float32) .nil)))
      (.cons "line" (.number .uint16) .nil)))

/-- The places of three stops, of which the second is missing, behind a column that has no
columns itself. -/
private def markedPlaces : Chunk :=
  .struct 3
    (.cons "mark" true (.struct 3 .nil none)
      (.cons "x" true (.number .float32 [0#32, 0#32, 0#32] none) .nil))
    (some [true, false, true])

/-- Three stops on no line, of which the third is missing. -/
private def stopsWithoutLine : Chunk :=
  .struct 3 (.cons "place" true markedPlaces .nil) (some [true, true, false])

/-- A struct without columns among the columns makes their order matter: as the last it
is left alone, as the first it takes away the slots of all.  It also hides that the data does
not fit: the places that an option of stops keeps have lost their slots, and choosing among
them again fails before anyone misses the line. -/
theorem ValueType.reads_by_name_marked_fails :
    detectionType.optionsHaveFields = true ∧
    (twoDetections (mark :: detectionColumns)).Sound ∧
    (twoDetections (detectionColumns ++ [mark])).Sound ∧
    detectionType.accepts (twoDetections (mark :: detectionColumns)).dataType = true ∧
    detectionType.accepts (twoDetections (detectionColumns ++ [mark])).dataType = true ∧
    ((mark :: detectionColumns).map Prod.fst).Nodup ∧
    (detectionColumns ++ [mark]).Perm (mark :: detectionColumns) ∧
    detectionType.Alike (twoDetections (mark :: detectionColumns))
      (twoDetections (detectionColumns ++ [mark])) ∧
    detectionType.read (twoDetections (mark :: detectionColumns)) =
      .error (.missingData .tooFewValues) ∧
    detectionType.read (twoDetections (detectionColumns ++ [mark])) =
      .ok [some (7#16, some 0x3f800000#32, ()), none] ∧
    stopType.optionsHaveFields = true ∧
    stopsWithoutLine.Sound ∧
    stopType.accepts stopsWithoutLine.dataType = false ∧
    stopType.read stopsWithoutLine = .error (.within "Stop#place" (.maskTooLong 2 0)) ∧
    (Fault.within "Stop#place" (.maskTooLong 2 0)).isMisfit = false := by
  have hmask : Chunk.MaskFits 2 (some [true, false]) := by simp [Chunk.MaskFits]
  have hmasks : Chunk.MaskFits 3 (some [true, false, true]) ∧
      Chunk.MaskFits 3 (some [true, true, false]) := by simp [Chunk.MaskFits]
  refine ⟨rfl, ?_, ?_, rfl, rfl, by decide, List.perm_append_singleton _ _,
    ⟨rfl, rfl, rfl, rfl, trivial⟩, rfl, rfl, rfl, ?_, rfl, rfl, rfl⟩
  · exact ⟨hmask, rfl, nofun, ⟨nofun, trivial⟩, rfl, nofun, nofun, rfl, nofun, nofun, trivial⟩
  · exact ⟨hmask, rfl, nofun, nofun, rfl, nofun, nofun, rfl, nofun, ⟨nofun, trivial⟩, trivial⟩
  · exact ⟨hmasks.2, rfl, nofun,
      ⟨hmasks.1, rfl, nofun, ⟨nofun, trivial⟩, rfl, nofun, nofun, trivial⟩, trivial⟩

end Columnar
