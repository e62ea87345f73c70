import Columnar.Proofs.Encoding
import Columnar.Proofs.Holding
/-!
# Writers and columns deal

Every operation on a writer or a column is a deal with the ledger, whatever it
adds and wherever it stops, and so is every construction.  Encoding a component
is a deal that starts and ends with nothing.
-/

namespace Columnar

mutual

/-- All parts of a writer are bounded: their items fit into the room that was granted for them, at
every depth. -/
def Writer.Bounded : Writer → Prop
  | .boolean leaf => leaf.Bounded
  | .number _ leaf => leaf.Bounded
  | .binary leaf => leaf.Bounded
  | .utf8 leaf => leaf.Bounded
  | .list slots _ child => slots.Bounded ∧ child.Bounded
  | .struct validity columns => validity.Bounded ∧ columns.Bounded

/-- All columns are bounded. -/
def Writers.Bounded : Writers → Prop
  | .nil => True
  | .cons _ _ column rest => column.Bounded ∧ rest.Bounded

end

mutual

/-- The content of a bounded writer fits its room. -/
theorem Writer.Bounded.byteLength_le : {w : Writer} → w.Bounded → w.byteLength ≤ w.room
  | .boolean _, h => Holder.byteLength_le (σ := BooleanWriter) h
  | .number kind _, h => Holder.byteLength_le (σ := NumberWriter kind) h
  | .binary _, h => Holder.byteLength_le (σ := BytesWriter) h
  | .utf8 _, h => Holder.byteLength_le (σ := BytesWriter) h
  | .list .., h => Nat.add_le_add h.1.byteLength_le (Writer.Bounded.byteLength_le h.2)
  | .struct .., h => Nat.add_le_add h.1.byteLength_le (Writers.Bounded.byteLength_le h.2)

/-- The content of bounded columns takes no more bytes than were granted to them. -/
theorem Writers.Bounded.byteLength_le : {ws : Writers} → ws.Bounded → ws.byteLength ≤ ws.room
  | .nil, _ => Nat.le_refl 0
  | .cons .., h =>
    Nat.add_le_add (Writer.Bounded.byteLength_le h.1) (Writers.Bounded.byteLength_le h.2)

end

/-- A column at a place of bounded columns is bounded. -/
theorem Writers.Bounded.get? : {ws : Writers} → ws.Bounded → (i : Nat) → {column : Writer} →
    ws.get? i = some column → column.Bounded
  | .nil, _, _, _, hget => by simp [Writers.get?] at hget
  | .cons .., h, 0, _, hget => by
    simp only [Writers.get?, Option.some.injEq] at hget
    exact hget ▸ h.1
  | .cons .., h, i + 1, _, hget => Writers.Bounded.get? h.2 i hget

/-- A writer that is found at the end of a way inside a bounded writer is bounded. -/
theorem Writer.Bounded.find : {w : Writer} → w.Bounded → (way : List Inward) → {inner : Writer} →
    w.find way = .ok inner → inner.Bounded
  | _, h, [], _, hfind => Except.ok.inj hfind ▸ h
  | .list .., h, .items :: way, _, hfind => Writer.Bounded.find h.2 way hfind
  | .struct _ columns, h, .field i :: way, _, hfind => by
    simp only [Writer.find] at hfind
    split at hfind
    · rename_i column hcolumn
      exact Writer.Bounded.find (Writers.Bounded.get? h.2 i hcolumn) way hfind
    · exact nomatch hfind
  | .struct _ columns, h, .named name :: way, _, hfind => by
    simp only [Writer.find] at hfind
    split at hfind
    · rename_i column hcolumn
      obtain ⟨i, -, hget⟩ := Option.bind_eq_some_iff.1 hcolumn
      exact Writer.Bounded.find (Writers.Bounded.get? h.2 i hget) way hfind
    · exact nomatch hfind
  | .boolean _, _, .items :: _, _, hfind | .number .., _, .items :: _, _, hfind
  | .binary _, _, .items :: _, _, hfind | .utf8 _, _, .items :: _, _, hfind
  | .struct .., _, .items :: _, _, hfind => nomatch hfind
  | .boolean _, _, .field _ :: _, _, hfind | .number .., _, .field _ :: _, _, hfind
  | .binary _, _, .field _ :: _, _, hfind | .utf8 _, _, .field _ :: _, _, hfind
  | .list .., _, .field _ :: _, _, hfind => nomatch hfind
  | .boolean _, _, .named _ :: _, _, hfind | .number .., _, .named _ :: _, _, hfind
  | .binary _, _, .named _ :: _, _, hfind | .utf8 _, _, .named _ :: _, _, hfind
  | .list .., _, .named _ :: _, _, hfind => nomatch hfind

instance : Holder Writer where
  room := Writer.room
  byteLength := Writer.byteLength
  Bounded := Writer.Bounded
  byteLength_le := Writer.Bounded.byteLength_le

instance : Holder Writers where
  room := Writers.room
  byteLength := Writers.byteLength
  Bounded := Writers.Bounded
  byteLength_le := Writers.Bounded.byteLength_le

/-- An operation on the leaf of a writer of booleans. -/
theorem Writer.deal_boolean {op : BooleanWriter → Ledger → Outcome BooleanWriter}
    (hop : Deals op) {leaf : BooleanWriter} (h : leaf.Bounded) :
    Deal (fun r => Holder.Bounded r.1) (Writer.boolean leaf).room
      fun m => ((op leaf m).map Writer.boolean).result :=
  hop.boxed Writer.boolean (fun _ => rfl) (fun _ h => h) h

/-- An operation on the leaf of a writer of numbers. -/
theorem Writer.deal_number {kind : NumberType}
    {op : NumberWriter kind → Ledger → Outcome (NumberWriter kind)}
    (hop : Deals op) {leaf : NumberWriter kind} (h : leaf.Bounded) :
    Deal (fun r => Holder.Bounded r.1) (Writer.number kind leaf).room
      fun m => ((op leaf m).map (Writer.number kind)).result :=
  hop.boxed (Writer.number kind) (fun _ => rfl) (fun _ h => h) h

/-- An operation on the leaf of a writer of byte strings. -/
theorem Writer.deal_binary {op : BytesWriter → Ledger → Outcome BytesWriter}
    (hop : Deals op) {leaf : BytesWriter} (h : leaf.Bounded) :
    Deal (fun r => Holder.Bounded r.1) (Writer.binary leaf).room
      fun m => ((op leaf m).map Writer.binary).result :=
  hop.boxed Writer.binary (fun _ => rfl) (fun _ h => h) h

/-- An operation on the leaf of a writer of texts. -/
theorem Writer.deal_utf8 {op : BytesWriter → Ledger → Outcome BytesWriter}
    (hop : Deals op) {leaf : BytesWriter} (h : leaf.Bounded) :
    Deal (fun r => Holder.Bounded r.1) (Writer.utf8 leaf).room
      fun m => ((op leaf m).map Writer.utf8).result :=
  hop.boxed Writer.utf8 (fun _ => rfl) (fun _ h => h) h

/-- An operation on the slots of a list. -/
theorem Writer.deal_slots {op : Slots → Ledger → Outcome Slots} (hop : Deals op) {slots : Slots}
    {nullable : Bool} {child : Writer} (hslots : slots.Bounded) (hchild : child.Bounded) :
    Deal (fun r => Holder.Bounded r.1) (Writer.list slots nullable child).room
      fun m => ((op slots m).map fun slots => Writer.list slots nullable child).result :=
  (hop slots hslots).part _ (fun slots => Writer.list slots nullable child) (fun _ => rfl)
    fun _ _ hslots => ⟨hslots, hchild⟩

/-- An operation on the columns of a struct. -/
theorem Writer.deal_columns {columns : Writers} {f : Ledger → Outcome Writers}
    (h : Deal (fun r => Holder.Bounded r.1) columns.room fun m => (f m).result)
    {validity : Validity} (hvalidity : validity.Bounded) :
    Deal (fun r => Holder.Bounded r.1) (Writer.struct validity columns).room
      fun m => ((f m).map (Writer.struct validity)).result := by
  have hpart := h.part (Q := fun r : Writer × Option Fault => r.1.Bounded) validity.room
    (Writer.struct validity) (fun _ => Nat.add_comm _ _) fun _ _ hcolumns => ⟨hvalidity, hcolumns⟩
  rw [Nat.add_comm] at hpart
  exact hpart

mutual

theorem Writer.deal_appendNull : (w : Writer) → w.Bounded →
    Deal (fun r => Holder.Bounded r.1) w.room fun m => (w.appendNull m).result
  | .boolean _, h => Writer.deal_boolean (BooleanWriter.deals_append none) h
  | .number .., h => Writer.deal_number (NumberWriter.deals_append none) h
  | .binary _, h => Writer.deal_binary (BytesWriter.deals_append none) h
  | .utf8 _, h => Writer.deal_utf8 (BytesWriter.deals_append none) h
  | .list .., h => Writer.deal_slots (Slots.deals_closeEmpty false) h.1 h.2
  | .struct validity columns, h => by
    have hboth := Deal.both (fun columns validity => Writer.struct validity columns)
      (Writers.deal_appendNull columns h.2) (Validity.deals_append false validity h.1) h.1
      (fun _ _ => Nat.add_comm _ _) fun _ _ hcolumns hvalidity => ⟨hvalidity, hcolumns⟩
    rw [Nat.add_comm] at hboth
    simp only [Writer.appendNull_struct]
    exact hboth

theorem Writers.deal_appendNull : (ws : Writers) → ws.Bounded →
    Deal (fun r => Holder.Bounded r.1) ws.room fun m => (ws.appendNull m).result
  | .nil, h => Deal.done (a := Writers.nil) h
  | .cons name nullable column rest, h => by
    have hboth := Deal.both (Writers.cons name nullable)
      (Writer.deal_appendNull column h.1) (Writers.deal_appendNull rest h.2) h.2
      (fun _ _ => rfl) fun _ _ hcolumn hrest => ⟨hcolumn, hrest⟩
    simp only [Writers.appendNull_cons]
    exact hboth

end

mutual

theorem Writer.deal_reserve (n : Nat) : (w : Writer) → w.Bounded →
    Deal (fun r => Holder.Bounded r.1) w.room fun m => (w.reserve n m).result
  | .boolean _, h => Writer.deal_boolean (BooleanWriter.deals_reserve n) h
  | .number .., h => Writer.deal_number (NumberWriter.deals_reserve n) h
  | .binary _, h => Writer.deal_binary (BytesWriter.deals_reserve n) h
  | .utf8 _, h => Writer.deal_utf8 (BytesWriter.deals_reserve n) h
  | .list .., h => Writer.deal_slots (Slots.deals_reserve n) h.1 h.2
  | .struct validity columns, h => by
    have hboth := Deal.both Writer.struct
      (Validity.deals_reserve n validity h.1) (Writers.deal_reserve n columns h.2) h.2
      (fun _ _ => rfl) fun _ _ hvalidity hcolumns => ⟨hvalidity, hcolumns⟩
    simp only [Writer.reserve_struct]
    exact hboth

theorem Writers.deal_reserve (n : Nat) : (ws : Writers) → ws.Bounded →
    Deal (fun r => Holder.Bounded r.1) ws.room fun m => (ws.reserve n m).result
  | .nil, h => Deal.done (a := Writers.nil) h
  | .cons name nullable column rest, h => by
    have hboth := Deal.both (Writers.cons name nullable)
      (Writer.deal_reserve n column h.1) (Writers.deal_reserve n rest h.2) h.2
      (fun _ _ => rfl) fun _ _ hcolumn hrest => ⟨hcolumn, hrest⟩
    simp only [Writers.reserve_cons]
    exact hboth

end

namespace Writer

theorem deals_appendNull : Deals Writer.appendNull := deal_appendNull

theorem deals_reserve (n : Nat) : Deals (Writer.reserve n) := deal_reserve n

/-- A writer that refuses an operation has no part in the ledger. -/
theorem deal_notA {w : Writer} (h : w.Bounded) (kind : String) :
    Deal (fun r => Holder.Bounded r.1) w.room fun m => (Outcome.stopped w m (w.notA kind)).result :=
  .stopped h (Fault.Quiet.of_none rfl)

theorem deals_appendBoolean (value : Option Bool) : Deals (appendBoolean value)
  | .boolean _, h => deal_boolean (BooleanWriter.deals_append value) h
  | .number .., h | .binary _, h | .utf8 _, h | .list .., h | .struct .., h => deal_notA h _

theorem deals_appendNumber (kind : NumberType) (value : Option kind.Carrier) :
    Deals (appendNumber kind value)
  | .number kind' leaf, h => by
    by_cases hsame : kind = kind'
    · subst hsame
      simp only [appendNumber, dite_true]
      exact deal_number (NumberWriter.deals_append value) h
    · simp only [appendNumber, dif_neg hsame]
      exact deal_notA h _
  | .boolean _, h | .binary _, h | .utf8 _, h | .list .., h | .struct .., h => deal_notA h _

theorem deals_appendNumbers (kind : NumberType) (values : List kind.Carrier) :
    Deals (appendNumbers kind values)
  | .number kind' leaf, h => by
    by_cases hsame : kind = kind'
    · subst hsame
      simp only [appendNumbers, dite_true]
      exact deal_number (NumberWriter.deals_appendAll values) h
    · simp only [appendNumbers, dif_neg hsame]
      exact deal_notA h _
  | .boolean _, h | .binary _, h | .utf8 _, h | .list .., h | .struct .., h => deal_notA h _

theorem deals_appendBytes (value : Option (List UInt8)) : Deals (appendBytes value)
  | .binary _, h => deal_binary (BytesWriter.deals_append value) h
  | .boolean _, h | .number .., h | .utf8 _, h | .list .., h | .struct .., h => deal_notA h _

theorem deals_appendText (value : Option String) : Deals (appendText value)
  | .utf8 _, h => deal_utf8 (BytesWriter.deals_append (value.map Text.encode)) h
  | .boolean _, h | .number .., h | .binary _, h | .list .., h | .struct .., h => deal_notA h _

theorem deals_reserveBytes (n : Nat) : Deals (reserveBytes n)
  | .binary _, h => deal_binary (BytesWriter.deals_reserveContent n) h
  | .boolean _, h | .number .., h | .utf8 _, h | .list .., h | .struct .., h => deal_notA h _

theorem deals_reserveText (n : Nat) : Deals (reserveText n)
  | .utf8 _, h => deal_utf8 (BytesWriter.deals_reserveContent n) h
  | .boolean _, h | .number .., h | .binary _, h | .list .., h | .struct .., h => deal_notA h _

theorem deals_closeList : Deals closeList
  | .list _ _ child, h => deal_slots (Slots.deals_close child.length true) h.1 h.2
  | .boolean _, h | .number .., h | .binary _, h | .utf8 _, h | .struct .., h => deal_notA h _

theorem deals_appendAbsent : Deals appendAbsent
  | .list .., h => deal_slots (Slots.deals_closeEmpty true) h.1 h.2
  | .boolean _, h | .number .., h | .binary _, h | .utf8 _, h | .struct .., h => deal_notA h _

theorem deals_closeRow : Deals closeRow
  | .struct validity columns, h => by
    simp only [closeRow]
    cases Size.add? validity.length 1 with
    | none => exact .stopped h (Fault.Quiet.of_none rfl)
    | some rows =>
      dsimp only
      cases columns.findUneven rows with
      | some uneven => exact .stopped h (Fault.Quiet.of_none rfl)
      | none =>
        exact (Validity.deals_append true validity h.1).part _
          (fun validity => Writer.struct validity columns) (fun _ => rfl)
          fun _ _ hvalidity => ⟨hvalidity, h.2⟩
  | .boolean _, h | .number .., h | .binary _, h | .utf8 _, h | .list .., h => deal_notA h _

section Inside

variable {op : Writer → Ledger → Outcome Writer}

theorem deals_onItems (hop : Deals op) : Deals (onItems op)
  | .list slots nullable child, h => by
    have hpart := (hop child h.2).part
      (Q := fun r : Writer × Option Fault => r.1.Bounded) slots.room (Writer.list slots nullable)
      (fun _ => Nat.add_comm _ _) fun _ _ hchild => ⟨h.1, hchild⟩
    rw [Nat.add_comm] at hpart
    exact hpart
  | .boolean _, h | .number .., h | .binary _, h | .utf8 _, h | .struct .., h => deal_notA h _

theorem deals_appendList {items : List (Writer → Ledger → Outcome Writer)}
    (hitems : ∀ item ∈ items, Deals item) : Deals (appendList items) :=
  (deals_onItems (Deals.foldl hitems .done)).andThen deals_closeList

end Inside

end Writer

/-- An operation on the column at a place deals, if there is such a column. -/
theorem Writers.deal_onPlace {op : Writer → Ledger → Outcome Writer} (hop : Deals op) :
    (i : Nat) → (ws : Writers) → ws.Bounded → ws.onPlace? op i = (fun _ => none) ∨
      ∃ f : Ledger → Outcome Writers, Writers.onPlace? op i ws = (fun m => some (f m)) ∧
        Deal (fun r => Holder.Bounded r.1) ws.room fun m => (f m).result
  | _, .nil, _ => .inl (by funext m; simp [Writers.onPlace?])
  | 0, .cons name nullable column rest, h =>
    .inr ⟨_, rfl, (hop column h.1).part _ (Writers.cons name nullable · rest) (fun _ => rfl)
      fun _ _ hcolumn => ⟨hcolumn, h.2⟩⟩
  | i + 1, .cons name nullable column rest, h => by
    rcases Writers.deal_onPlace hop i rest h.2 with hnone | ⟨f, hf, hdeal⟩
    · refine .inl (funext fun m => ?_)
      simp [Writers.onPlace?, hnone]
    · have hpart := hdeal.part
        (Q := fun r : Writers × Option Fault => r.1.Bounded) column.room
        (Writers.cons name nullable column)
        (fun _ => Nat.add_comm _ _) fun _ _ hrest => ⟨h.1, hrest⟩
      rw [Nat.add_comm] at hpart
      refine .inr ⟨fun m => (f m).map (Writers.cons name nullable column), ?_, hpart⟩
      funext m
      simp [Writers.onPlace?, hf]

namespace Writer

section Inside

variable {op : Writer → Ledger → Outcome Writer}

theorem deals_onField (i : Nat) (hop : Deals op) : Deals (onField i op)
  | .struct validity columns, h => by
    rcases Writers.deal_onPlace hop i columns h.2 with hnone | ⟨f, hf, hdeal⟩
    · simp only [onField, hnone]
      exact .stopped h (Fault.Quiet.of_none rfl)
    · simp only [onField, hf]
      exact deal_columns hdeal h.1
  | .boolean _, h | .number .., h | .binary _, h | .utf8 _, h | .list .., h => deal_notA h _

theorem deals_onFieldNamed (name : String) (hop : Deals op) : Deals (onFieldNamed name op)
  | .struct validity columns, h => by
    simp only [onFieldNamed]
    cases columns.place? name with
    | some i => exact deals_onField i hop (.struct validity columns) h
    | none => exact .stopped h (Fault.Quiet.of_none rfl)
  | .boolean _, h | .number .., h | .binary _, h | .utf8 _, h | .list .., h => deal_notA h _

/-- An operation at the end of any way inside. -/
theorem deals_inside (hop : Deals op) : (way : List Inward) → Deals (Writer.inside op way)
  | [] => hop
  | .items :: way => deals_onItems (deals_inside hop way)
  | .field i :: way => deals_onField i (deals_inside hop way)
  | .named name :: way => deals_onFieldNamed name (deals_inside hop way)

end Inside

end Writer

theorem Writer.deal_newList (capacity : Nat) {child : Writer} (hchild : child.Bounded)
    (nullable : Bool) :
    Deal (Makes Writer.Bounded) child.room (Writer.newList capacity child nullable) :=
  Deal.congr ((Slots.deal_new capacity).beside child.room (Writer.list · nullable child)
    (fun _ => rfl) fun _ hslots => ⟨hslots, hchild⟩) (Writer.newList_eq capacity child nullable)

/-- A list around a child that is made first. -/
theorem Writer.deal_listOf {makeChild : Ledger → Made Writer}
    (h : Deal (Makes Writer.Bounded) 0 makeChild) (capacity : Nat) (nullable : Bool) :
    Deal (Makes Writer.Bounded) 0 fun m =>
      (makeChild m).chain 0 fun child m => Writer.newList capacity child nullable m :=
  h.chain 0 _ fun _ hchild => Writer.deal_newList capacity hchild nullable

mutual

theorem Writer.deal_new : (layout : Layout) → Deal (Makes Writer.Bounded) 0 (Writer.new layout)
  | .boolean => (BooleanWriter.deal_new 0).boxed Writer.boolean (fun _ => rfl) fun _ h => h
  | .number kind =>
    (NumberWriter.deal_new kind 0).boxed (Writer.number kind) (fun _ => rfl) fun _ h => h
  | .binary => (BytesWriter.deal_new 0 0).boxed Writer.binary (fun _ => rfl) fun _ h => h
  | .utf8 => (BytesWriter.deal_new 0 0).boxed Writer.utf8 (fun _ => rfl) fun _ h => h
  | .list item nullable =>
    (Writer.deal_listOf (Writer.deal_new item) 0 nullable).congr (Writer.new_list item nullable)
  | .struct fields =>
    (Writers.deal_new fields).boxed (Writer.struct (.new 0)) (fun _ => Nat.zero_add _)
      fun _ h => ⟨trivial, h⟩

theorem Writers.deal_new : (fields : LayoutFields) →
    Deal (Makes Writers.Bounded) 0 (Writers.new fields)
  | .nil => Deal.made (a := Writers.nil) trivial
  | .cons name layout nullable rest => by
    refine Deal.congr ((Writer.deal_new layout).chain 0 _ fun column hcolumn => ?_)
      (Writers.new_cons name layout nullable rest)
    exact (Writers.deal_new rest).beside column.room (Writers.cons name nullable column)
      (fun _ => Nat.add_comm _ _) fun _ hcolumns => ⟨hcolumn, hcolumns⟩

end

theorem Writer.deal_newWith (capacity content : Nat) : (layout : Layout) →
    Deal (Makes Writer.Bounded) 0 (Writer.newWith capacity content layout)
  | .boolean =>
    (BooleanWriter.deal_new capacity).boxed Writer.boolean (fun _ => rfl) fun _ h => h
  | .number kind =>
    (NumberWriter.deal_new kind capacity).boxed (Writer.number kind) (fun _ => rfl) fun _ h => h
  | .binary =>
    (BytesWriter.deal_new capacity content).boxed Writer.binary (fun _ => rfl) fun _ h => h
  | .utf8 => (BytesWriter.deal_new capacity content).boxed Writer.utf8 (fun _ => rfl) fun _ h => h
  | .list item nullable =>
    (Writer.deal_listOf (Writer.deal_new item) capacity nullable).congr
      (Writer.newWith_list capacity content item nullable)
  | .struct fields => Writer.deal_new (.struct fields)

mutual

/-- Adding a value of any type, to a writer of whatever kind. -/
theorem ValueType.deals_write : (type : ValueType) → (value : type.Datum) →
    Deals (type.write value)
  | .boolean, (value : Bool) => Writer.deals_appendBoolean (some value)
  | .number kind, (value : kind.Carrier) => Writer.deals_appendNumber kind (some value)
  | .text, (value : String) => Writer.deals_appendText (some value)
  | .bytes, (value : List UInt8) => Writer.deals_appendBytes (some value)
  | .option _, none => Writer.deals_appendNull
  | .option type, some value => type.deals_write value
  | .collection _, .unset => Writer.deals_appendAbsent
  | .collection _, .empty => Writer.deals_closeList
  | .collection type, .populated items => by
    refine Writer.deals_appendList fun op hop => ?_
    obtain ⟨item, -, rfl⟩ := List.mem_map.1 hop
    exact type.deals_write item
  | .record name fields, row => by
    -- Only a struct has columns to write to; any other writer refuses the row.
    rintro (_ | _ | _ | _ | _ | ⟨validity, columns⟩) h
    case struct =>
      have hcolumns := Writer.deal_columns (fields.deal_write row 0 columns.count columns h.2) h.1
      exact hcolumns.andThen _ Writer.deals_closeRow fun _ _ h => h
    all_goals exact Writer.deal_notA h _
  | .named _ type, value => type.deals_write value

/-- Adding the values of a record to columns, as many as there may be. -/
theorem FieldTypes.deal_write : (fields : FieldTypes) → (row : fields.Row) → (i count : Nat) →
    (ws : Writers) → ws.Bounded →
    Deal (fun r => Holder.Bounded r.1) ws.room fun m => (fields.write row i count ws m).result
  | .nil, _, _, _, _, h => Deal.done h
  | .cons .., _, _, _, .nil, h => Deal.stopped (a := Writers.nil) h (Fault.Quiet.of_none rfl)
  | .cons _ type rest, (value, row), i, count, .cons name nullable column columns, h => by
    have hboth := Deal.both (Writers.cons name nullable)
      (type.deals_write value column h.1) (rest.deal_write row (i + 1) count columns h.2) h.2
      (fun _ _ => rfl) fun _ _ hcolumn hcolumns => ⟨hcolumn, hcolumns⟩
    simp only [FieldTypes.write_cons]
    exact hboth

end

/-- Adding a list of values to a writer of lists is a deal, as adding each of them is. -/
theorem ValueType.deals_appendList (type : ValueType) (items : List type.Datum) :
    Deals (Writer.appendList (items.map fun item => type.write item)) := by
  refine Writer.deals_appendList fun op hop => ?_
  obtain ⟨item, -, rfl⟩ := List.mem_map.1 hop
  exact type.deals_write item

/-- What an operation does to the writer of a column is a deal. -/
theorem ColumnOp.deals_work (hint : Nat) : (op : ColumnOp) → Deals (op.work hint)
  | .reserve n => by
    refine (Writer.deals_reserve n).andThen ?_
    rintro (_ | _ | _ | _ | ⟨slots, nullable, child⟩ | _) h
    case list =>
      dsimp only
      cases Size.mul? n hint with
      | none => exact .stopped (a := Writer.list slots nullable child) h Fault.quiet_overflow
      | some items => exact Writer.deals_onItems (Writer.deals_reserve items) _ h
    all_goals exact .done h
  | .reserveItems n => Writer.deals_onItems (Writer.deals_reserve n)
  | .appendAbsent => Writer.deals_appendAbsent
  | .appendNull => Writer.deals_appendNull
  | .append type value => type.deals_write value
  | .appendList type items => type.deals_appendList items

mutual

/-- An unacceptable layout is refused by itself, not by the ledger. -/
theorem Layout.quiet_of_check {fault : Fault} : (layout : Layout) →
    layout.check = .error fault → fault.Quiet
  | .boolean, h | .number _, h | .binary, h | .utf8, h => nomatch h
  | .list item _, h => item.quiet_of_check h
  | .struct fields, h => fields.quiet_of_check [] h

theorem LayoutFields.quiet_of_check {fault : Fault} : (fields : LayoutFields) →
    (seen : List String) → fields.check seen = .error fault → fault.Quiet
  | .nil, _, h => nomatch h
  | .cons name layout _ rest, seen, h => by
    simp only [LayoutFields.check] at h
    split at h
    · obtain rfl := Except.error.inj h
      exact Fault.Quiet.of_none rfl
    · split at h
      · rename_i hlayout
        obtain rfl := Except.error.inj h
        exact layout.quiet_of_check hlayout
      · exact rest.quiet_of_check _ h

end

namespace Column

/-- The writer of a column is bounded, as long as the column is not finished. -/
def Bounded (c : Column) : Prop := ∀ writer ∈ c.writer?, writer.Bounded

theorem Bounded.byteLength_le {c : Column} (h : c.Bounded) : c.byteLength ≤ c.room := by
  unfold Column.byteLength Column.room
  cases hwriter : c.writer? with
  | none => exact Nat.le_refl 0
  | some writer => exact (h writer hwriter).byteLength_le

instance : Holder Column where
  room := Column.room
  byteLength := Column.byteLength
  Bounded := Column.Bounded
  byteLength_le := Bounded.byteLength_le

/-- The column works still: it neither failed nor is finished. -/
def Usable (c : Column) : Prop := ∃ progress writer, c.state = .usable progress writer

/-- A column that has been operated on with success works still. -/
theorem Bounded.deal_apply {c : Column} (h : c.Bounded) (progress : Progress)
    {op : Writer → Ledger → Outcome Writer} (hop : Deals op) :
    Deal (Ends (fun c' => c'.Bounded ∧ c'.Usable) Column.Bounded) c.room
      fun m => (c.apply progress op m).result := by
  rcases c with ⟨layout, hint, ⟨before, writer⟩ | writer | _⟩
  case usable =>
    have hbounded : ∀ w : Writer, w.Bounded → ∀ other ∈ some w, other.Bounded :=
      fun w hw _ hother => Option.some.inj hother ▸ hw
    simp only [Column.apply_eq (c := ⟨layout, hint, .usable before writer⟩) rfl]
    refine (hop writer (h writer rfl)).next 0 (fun w hw => ?_) fun w fault hw => ?_
    · exact Deal.done (a := Column.mk layout hint (.usable _ w)) ⟨hbounded w hw, _, _, rfl⟩
    · exact .stopped (a := Column.mk layout hint (.failed w)) (hbounded w hw) 0
  case failed =>
    refine Deal.stopped (a := Column.mk layout hint (.failed writer)) ?_ (Fault.Quiet.of_none rfl)
    exact h
  case finished =>
    refine Deal.stopped (a := Column.mk layout hint .finished) ?_ (Fault.Quiet.of_none rfl)
    exact h

/-- Every operation on a column is a deal: it accounts for its requests and keeps the column
bounded. -/
theorem deals_run (op : ColumnOp) : Deals op.run := by
  intro c h
  simp only [op.run_eq]
  exact (Bounded.deal_apply h op.progress (op.deals_work c.hint)).imp
    (Ends.always (fun _ hc => hc.1) fun _ hc => hc)

/-- A column that works is finished for good and gives all its memory back. -/
theorem Usable.finish_eq {c : Column} (h : c.Usable) : ∃ result : Except Flaw Chunk, ∀ m,
    c.finish m = (result.mapError .flaw, { c with state := .finished }, m.giveBack c.room) := by
  obtain ⟨layout, hint, state⟩ := c
  obtain ⟨progress, writer, rfl⟩ := h
  refine ⟨writer.finish, fun m => ?_⟩
  dsimp only [Column.finish]
  cases writer.finish <;> rfl

/-- Finishing a column that works gives all its memory back. -/
theorem Usable.deal_finish {c : Column} (h : c.Usable) :
    Deal (fun _ => True) c.room fun m => ((c.finish m).1, (c.finish m).2.2) := by
  obtain ⟨result, hfinish⟩ := h.finish_eq
  have hsettles : Settles (fun _ => True) none c.room
      fun m => ((c.finish m).1, (c.finish m).2.2) := by
    refine ⟨result.mapError .flaw, c.room, trivial, by cases result <;> rfl,
      (Nat.zero_add _).symm, ?_⟩
    funext m
    rw [hfinish m]
  exact hsettles.deal nofun

/-- A column that does not work refuses to be finished, and stays as it is. -/
theorem finish_of_not_usable {c : Column} (h : ¬ c.Usable) : ∃ fault : Fault,
    fault.refusal? = none ∧ ∀ m, c.finish m = (.error (.fault fault), c, m) := by
  rcases c with ⟨layout, hint, ⟨progress, writer⟩ | writer | _⟩
  case usable => exact absurd ⟨progress, writer, rfl⟩ h
  case failed => exact ⟨_, rfl, fun _ => rfl⟩
  case finished => exact ⟨_, rfl, fun _ => rfl⟩

/-- A new column is bounded and fresh, and one that is refused holds nothing. -/
theorem deal_new (layout : Layout) :
    Deal (Makes fun c : Column => c.Bounded ∧ c.Usable) 0 (Column.new layout) := by
  cases hcheck : layout.check with
  | error fault =>
    refine Deal.congr (Deal.failed (layout.quiet_of_check hcheck)) fun m => ?_
    simp [Column.new, hcheck]
  | ok _ =>
    refine Deal.congr ((Writer.deal_new layout).boxed
      (fun writer => ({ layout, state := .usable .fresh writer } : Column)) (fun _ => rfl) ?_) ?_
    · exact fun writer hwriter => ⟨fun _ hother => Option.some.inj hother ▸ hwriter, _, _, rfl⟩
    · intro m
      simp [Column.new, hcheck]

end Column

namespace Component

variable (r : Registry) (c : Component)

/-- Filling a column that works keeps it so, as long as nothing fails. -/
theorem deal_fill {column : Column} (hcolumn : column.Bounded) (husable : column.Usable)
    (records : List c.Datum) (count : Nat) :
    Deal (Ends (fun c' : Column => c'.Bounded ∧ c'.Usable) Column.Bounded) column.room
      fun m => (c.fill r column records count m).result := by
  unfold Component.fill
  by_cases hfew : records.length < count
  · simp only [if_pos hfew]
    exact .stopped hcolumn (Fault.Quiet.of_none rfl)
  · by_cases hlayout : column.layout ≠ (r.entryFor c).layout
    · simp only [if_neg hfew, if_pos hlayout]
      exact .stopped hcolumn (Fault.Quiet.of_none rfl)
    · simp only [if_neg hfew, if_neg hlayout]
      have hready : Deal (Ends (fun c' : Column => c'.Bounded ∧ c'.Usable) Column.Bounded)
          column.room fun m => (c.type.makeRoom (records.take count) column m).result := by
        obtain ⟨hroom, -⟩ | ⟨hroom, -⟩ | ⟨hroom, -⟩ :=
          c.type.makeRoom_eq (records.take count) column
        · rw [hroom]
          exact hcolumn.deal_apply .reserved (Writer.deals_onItems (Writer.deals_reserve _))
        · rw [hroom]
          exact .stopped hcolumn (Fault.Quiet.of_none rfl)
        · rw [hroom]
          exact .done ⟨hcolumn, husable⟩
      have hfilled := hready.foldl ((records.take count).map c.type.writeSlot) ?_
      · simpa only [List.foldl_map] using hfilled
      · intro op hop column' hcolumn'
        obtain ⟨record, -, rfl⟩ := List.mem_map.1 hop
        simp only [ValueType.writeSlot_eq_append]
        exact hcolumn'.1.deal_apply .filling (c.type.deals_write record)

/-- Encoding records is a deal that starts with no memory and holds none at the end. -/
theorem deal_encode (records : List c.Datum) (hint : Nat) :
    Deal (fun _ => True) 0 (c.encode r records hint) := by
  refine Deal.congr ((Column.deal_new (r.entryFor c).layout).onMade 0 ?_ ?_)
    (c.encode_eq r records hint)
  · rintro column ⟨hcolumn, -⟩
    have hreserved := Column.Bounded.deal_apply (c := column.withHint hint) hcolumn .reserved
      ((ColumnOp.reserve records.length).deals_work hint)
    have hfilled := hreserved.andThen (Q := Ends (fun c' => c'.Bounded ∧ c'.Usable) Column.Bounded)
      (fun column m => c.fill r column records records.length m)
      (fun column' h => c.deal_fill r h.1 h.2 records records.length) fun _ _ h => h
    refine hfilled.elim 0 ?_ ?_
    · exact fun column' hcolumn' => hcolumn'.2.deal_finish
    · exact fun column' fault _ => ⟨.error (.fault fault), column'.room, trivial, rfl,
        (Nat.zero_add _).symm, rfl⟩
  · exact fun fault => ⟨.error (.fault fault), 0, trivial, rfl, rfl, rfl⟩

end Component

end Columnar
