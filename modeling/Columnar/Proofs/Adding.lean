import Columnar.Nesting
import Columnar.Proofs.Counting
import Columnar.Proofs.Packing
import Columnar.Proofs.Writing
/-!
# What operations add to a writer

An operation on a writer adds as many slots as it is counted for, whatever it is run
on, and operations on the writers inside it add none.  To a writer that holds slots it
adds the slots that it says: `WriterOp.ensures_cells`.
-/

namespace Columnar

/-- A run of equal slots counts as many as it has. -/
theorem Validity.ensures_length_appendMany (v : Validity) (valid : Bool) (n : Nat) (m : Ledger) :
    (v.appendMany valid n m).Ensures fun v' => v'.length = v.length + n := by
  unfold Validity.appendMany
  split
  · rename_i hn
    subst hn
    exact Outcome.ensures_done rfl
  · cases v with
    | mask bits =>
      exact Outcome.ensures_map ((bits.ensures_length_appendMany valid n m).imp fun _ h => h.1)
    | allValid slots planned =>
      cases valid with
      | false => exact (ensures_length_firstNulls slots planned n m).imp fun _ h => h.1
      | true =>
        dsimp only
        split
        · exact Outcome.ensures_stopped
        · rename_i total htotal
          obtain ⟨rfl, -⟩ := Size.add?_eq_some htotal
          exact Outcome.ensures_done rfl

/-- Numbers that are added at one go add as many slots as there are numbers. -/
theorem Writer.ensures_length_appendNumbers (kind : NumberType) (values : List kind.Carrier)
    (w : Writer) (m : Ledger) :
    (w.appendNumbers kind values m).Ensures fun w' => w'.length = w.length + values.length := by
  cases w with
  | number kind' leaf =>
    by_cases hsame : kind = kind'
    · subst hsame
      simp only [appendNumbers, dite_true]
      have hvalues : ((leaf.values.append values m).map fun values => { leaf with values }).Ensures
          fun leaf' => leaf'.validity = leaf.validity := fun _ => rfl
      refine Outcome.ensures_map (hvalues.andThen fun leaf' m' hleaf' => Outcome.ensures_map ?_)
      exact hleaf' ▸ leaf'.validity.ensures_length_appendMany true values.length m'
    · simp only [appendNumbers, dif_neg hsame]
      exact Outcome.ensures_stopped
  | _ => exact Outcome.ensures_stopped

/-- An operation on a writer adds the slots that it is counted for. -/
theorem WriterOp.ensures_length (op : WriterOp) (w : Writer) (m : Ledger) :
    (op.run w m).Ensures fun w' => w'.length = w.length + op.slotCount := by
  cases op with
  | reserve n => exact fun _ => Writer.length_eq (Writer.idle_reserve n w m)
  | reserveBytes n => cases w <;> exact fun _ => rfl
  | reserveText n => cases w <;> exact fun _ => rfl
  | appendNumbers kind values => exact w.ensures_length_appendNumbers kind values m
  | appendNull => exact Writer.addsSlot_appendNull w m
  | appendBoolean value => exact Writer.addsSlot_appendBoolean value w m
  | appendNumber kind value => exact Writer.addsSlot_appendNumber kind value w m
  | appendBytes value => exact Writer.addsSlot_appendBytes value w m
  | appendText value => exact Writer.addsSlot_appendText value w m
  | append type value => exact type.addsSlot_write value w m
  | appendAbsent => exact Writer.addsSlot_appendAbsent w m
  | closeList => exact Writer.addsSlot_closeList w m
  | appendList type items => exact Writer.addsSlot_appendList _ w m
  | closeRow => exact Writer.addsSlot_closeRow w m

/-- Operations deeper inside leave the number of slots alone. -/
theorem Writer.length_inside (op : Writer → Ledger → Outcome Writer) (inward : Inward)
    (way : List Inward) (w : Writer) (m : Ledger) :
    (Writer.inside op (inward :: way) w m).value.length = w.length := by
  have hfield : ∀ i, (w.onField i (Writer.inside op way) m).value.length = w.length := by
    intro i
    cases w with
    | struct validity columns =>
      rw [onField]
      cases columns.onPlace? (Writer.inside op way) i m <;> rfl
    | _ => rfl
  cases inward with
  | items => exact length_onItems _ w m
  | field i => exact hfield i
  | named name =>
    cases w with
    | struct validity columns =>
      rw [Writer.inside, onFieldNamed]
      cases columns.place? name with
      | none => rfl
      | some i => exact hfield i
    | _ => rfl

/-- Numbers that are added at one go are the last slots of the writer, in their order. -/
theorem NumberWriter.Holds.appendAll {kind : NumberType} {w : NumberWriter kind}
    {slots : List (Option kind.Carrier)} (h : w.Holds slots) (values : List kind.Carrier)
    (m : Ledger) :
    (w.appendAll values m).Ensures fun w' => w'.Holds (slots ++ values.map some) := by
  have hvalues : ((w.values.append values m).map fun values => { w with values }).Ensures
      fun w' => w'.validity = w.validity ∧ w'.values.Bounded ∧
        w'.values.items = w.values.items ++ values :=
    Outcome.ensures_map ((h.bounded.append values m).imp fun _ hv => ⟨rfl, hv⟩)
  refine hvalues.andThen ?_
  rintro w' m' ⟨hsame, hbounded, hitems⟩
  have hshown := hsame ▸ h.validity
  have hflags : (slots ++ values.map some).map Option.isSome =
      slots.map Option.isSome ++ List.replicate values.length true := by
    rw [List.map_append, List.map_map, ← List.map_const']
    rfl
  have hbeneath : (values.map some).map (·.getD 0) = values := by
    rw [List.map_map]
    exact List.map_id values
  refine Outcome.ensures_map ((hshown.appendMany true values.length m').imp ?_)
  intro validity hshows
  refine ⟨hbounded, ?_, hflags ▸ hshows⟩
  rw [List.map_append, hbeneath, ← h.values]
  exact hitems

/-- Room for content leaves the strings alone, even where it is refused. -/
theorem BytesWriter.Holds.reserveContent {w : BytesWriter} {strings : List (Option (List UInt8))}
    (h : w.Holds strings) (n : Nat) (m : Ledger) : (w.reserveContent n m).value.Holds strings := by
  refine ⟨h.ends, h.bounded.reserve n m, ?_⟩
  rw [← h.content]
  exact Buffer.items_reserve w.content n m

namespace Writer.Holds

variable {w : Writer}

/-- Room for bytes leaves the slots alone; only a writer of strings takes it. -/
theorem reserveBytes {layout : Layout} {slots : List (Option layout.Cell)}
    (h : w.Holds layout slots) (n : Nat) (m : Ledger) :
    (w.reserveBytes n m).Ensures fun w' => w'.Holds layout slots := by
  cases layout with
  | binary =>
    obtain ⟨leaf, rfl, h⟩ := h
    exact fun _ => ⟨_, rfl, h.reserveContent n m⟩
  | boolean | number | utf8 =>
    obtain ⟨_, rfl, _⟩ := h
    exact Outcome.ensures_stopped
  | list | struct =>
    obtain ⟨_, _, rfl, _, _⟩ := h
    exact Outcome.ensures_stopped

/-- Room for texts leaves the slots alone; only a writer of texts takes it. -/
theorem reserveText {layout : Layout} {slots : List (Option layout.Cell)}
    (h : w.Holds layout slots) (n : Nat) (m : Ledger) :
    (w.reserveText n m).Ensures fun w' => w'.Holds layout slots := by
  cases layout with
  | utf8 =>
    obtain ⟨leaf, rfl, h⟩ := h
    exact fun _ => ⟨_, rfl, h.reserveContent n m⟩
  | boolean | number | binary =>
    obtain ⟨_, rfl, _⟩ := h
    exact Outcome.ensures_stopped
  | list | struct =>
    obtain ⟨_, _, rfl, _, _⟩ := h
    exact Outcome.ensures_stopped

/-- Numbers that are added at one go are the last slots of the writer, in their order. -/
theorem appendNumbers {kind : NumberType} {slots : List (Option kind.Carrier)}
    (h : w.Holds (.number kind) slots) (values : List kind.Carrier) (m : Ledger) :
    (w.appendNumbers kind values m).Ensures fun w' =>
      w'.Holds (.number kind) (slots ++ values.map some) := by
  obtain ⟨leaf, rfl, h⟩ := h
  have hrun : (Writer.number kind leaf).appendNumbers kind values m =
      (leaf.appendAll values m).map (.number kind) := dif_pos rfl
  rw [hrun]
  exact Outcome.ensures_map ((h.appendAll values m).imp fun leaf' h' => ⟨leaf', rfl, h'⟩)

end Writer.Holds

/-- A writer holds what an operation adds behind what it held. -/
theorem WriterOp.ensures_cells {op : WriterOp} {layout : Layout}
    {slots cells : List (Option layout.Cell)} (hcells : op.cells? layout = some cells) {w : Writer}
    (h : w.Holds layout slots) (m : Ledger) :
    (op.run w m).Ensures fun w' => w'.Holds layout (slots ++ cells) := by
  -- Whatever is pushed is the one cell that is added.
  have hpush : ∀ {run : Writer → Ledger → Outcome Writer} {slot : Option layout.Cell},
      some [slot] = some cells →
      (run w m).Ensures (fun w' => w'.Holds layout (slots ++ [slot])) →
      (run w m).Ensures fun w' => w'.Holds layout (slots ++ cells) := by
    intro run slot hslot hrun
    obtain rfl := Option.some.inj hslot
    exact hrun
  -- A value is put where its type has a place in the layout.
  have hplace : ∀ {type : ValueType} {value : type.Datum},
      ((type.place value layout).map fun slot => [slot]) = some cells →
      (type.write value w m).Ensures fun w' => w'.Holds layout (slots ++ cells) := by
    intro type value hplaced
    obtain ⟨slot, hslot, hcell⟩ := Option.map_eq_some_iff.1 hplaced
    refine hpush (congrArg some hcell) ((type.ensures_place value slots w m h).imp ?_)
    rintro w' ⟨slot', hslot', h'⟩
    obtain rfl := Option.some.inj (hslot.symm.trans hslot')
    exact h'
  cases op with
  | reserve n =>
    obtain rfl := Option.some.inj hcells
    rw [List.append_nil]
    exact fun _ => h.reserve n m
  | reserveBytes n =>
    obtain rfl := Option.some.inj hcells
    rw [List.append_nil]
    exact h.reserveBytes n m
  | reserveText n =>
    obtain rfl := Option.some.inj hcells
    rw [List.append_nil]
    exact h.reserveText n m
  | appendNull => exact hpush hcells (h.appendNull m)
  | append type value => exact hplace hcells
  | appendList type items => exact hplace hcells
  | appendBoolean value =>
    cases layout with
    | boolean => exact hpush hcells (h.appendBoolean value m)
    | _ => exact nomatch hcells
  | appendNumber kind value =>
    cases layout with
    | number kind' =>
      by_cases hsame : kind = kind'
      · subst hsame
        exact hpush ((dif_pos rfl).symm.trans hcells) (h.appendNumber value m)
      · exact nomatch (dif_neg hsame).symm.trans hcells
    | _ => exact nomatch hcells
  | appendNumbers kind values =>
    cases layout with
    | number kind' =>
      by_cases hsame : kind = kind'
      · subst hsame
        obtain rfl := Option.some.inj ((dif_pos rfl).symm.trans hcells)
        exact h.appendNumbers values m
      · exact nomatch (dif_neg hsame).symm.trans hcells
    | _ => exact nomatch hcells
  | appendBytes value =>
    cases layout with
    | binary => exact hpush hcells (h.appendBytes value m)
    | _ => exact nomatch hcells
  | appendText value =>
    cases layout with
    | utf8 => exact hpush hcells (Writer.Holds.appendText h value m)
    | _ => exact nomatch hcells
  | appendAbsent =>
    cases layout with
    | list item nullable => exact hpush hcells (h.appendAbsent m)
    | _ => exact nomatch hcells
  | closeList =>
    cases layout with
    | list item nullable =>
      have hclosed := h.appendAbsent m
      rw [h.appendAbsent_eq] at hclosed
      exact hpush hcells hclosed
    | _ => exact nomatch hcells
  | closeRow => exact nomatch hcells

end Columnar
