import Columnar.Proofs.Bitmap
import Columnar.Proofs.Reserving
/-!
# Every addition adds one slot

Whatever a writer is like inside and whatever value is added to it, of its own
kind or not: an addition that succeeds adds exactly one slot to the writer
itself.  What it adds to the writers inside is another matter.  So nothing is
asked here of the writer, and the proof looks at validities only: each
addition ends with one slot in the validity of the writer.

The count of slots stays a size: an addition that would take it further is refused or
breaks off, and then no slot is added.
-/

namespace Columnar

namespace Bitmap

/-- Adding a bit to a bitmap makes it longer by one. -/
theorem ensures_length_append (b : Bitmap) (bit : Bool) (m : Ledger) :
    (b.append bit m).Ensures fun b' => b'.length = b.length + 1 ∧ b.length + 1 ≤ Size.max := by
  unfold append
  cases hadd : Size.add? b.length 1 with
  | none => exact Outcome.ensures_stopped
  | some length =>
    obtain ⟨rfl, hle⟩ := Size.add?_eq_some hadd
    have hbytes : ((b.bytes.resize (bytesFor (b.length + 1)) 0 m).map fun bytes =>
        { b with bytes }).Ensures fun _ => True := fun _ => trivial
    exact hbytes.andThen fun b' m' _ => Outcome.ensures_done ⟨rfl, hle⟩

/-- A run of bits counts as many as it has. -/
theorem ensures_length_appendMany (b : Bitmap) (bit : Bool) (n : Nat) (m : Ledger) :
    (b.appendMany bit n m).Ensures fun b' =>
      b'.length = b.length + n ∧ b.length + n ≤ Size.max := by
  unfold appendMany
  cases hadd : Size.add? b.length n with
  | none => exact Outcome.ensures_stopped
  | some length =>
    obtain ⟨rfl, hle⟩ := Size.add?_eq_some hadd
    have hbytes : ∀ o : Outcome (Buffer UInt8 1),
        (o.map fun bytes => { b with bytes }).Ensures fun _ => True := fun _ _ => trivial
    dsimp only
    split
    · exact (hbytes _).andThen fun b' m' _ => Outcome.ensures_done ⟨rfl, hle⟩
    · split
      · exact Outcome.ensures_done ⟨rfl, hle⟩
      · exact (hbytes _).andThen fun b' m' _ => Outcome.ensures_done ⟨rfl, hle⟩

end Bitmap

namespace Validity

/-- The mask has a bit for every slot so far and one for every null. -/
theorem ensures_length_firstNulls (slots planned n : Nat) (m : Ledger) :
    (firstNulls slots planned n m).Ensures fun v' =>
      v'.length = slots + n ∧ slots + n ≤ Size.max := by
  refine (ensures_mask_firstNulls
    (I := fun bits => bits.length = 0)
    (J := fun bits => bits.length = slots)
    (K := fun bits => bits.length = slots + n ∧ slots + n ≤ Size.max)
    ?_ ?_ ?_ planned m).imp ?_
  · exact fun k m _ => Bitmap.length_eq (Bitmap.idle_reserve k {} m)
  · exact fun bits m hbits => (bits.ensures_length_appendMany true slots m).imp fun _ _ => by omega
  · exact fun bits m hbits => (bits.ensures_length_appendMany false n m).imp fun _ _ => by omega
  · rintro v ⟨bits, rfl, hbits⟩
    exact hbits

/-- One slot more is one slot more, whether there is a mask or not. -/
theorem ensures_length_append (v : Validity) (valid : Bool) (m : Ledger) :
    (v.append valid m).Ensures fun v' => v'.length = v.length + 1 := by
  match v, valid with
  | mask bits, valid =>
    refine Outcome.ensures_map ((bits.ensures_length_append valid m).imp fun bits' hbits' => ?_)
    rw [show (mask bits').length = bits'.length from rfl, hbits'.1]
    rfl
  | allValid slots planned, true =>
    cases hsum : Size.add? slots 1 with
    | none =>
      simp only [append, hsum]
      exact Outcome.ensures_stopped
    | some total =>
      simp only [append, hsum]
      exact Outcome.ensures_done (Size.add?_eq_some hsum).1
  | allValid slots planned, false =>
    exact (ensures_length_firstNulls slots planned 1 m).imp fun _ h => h.1

end Validity

/-- A slot in the validity, after something that leaves the validity alone, is one
slot more for the whole. -/
theorem Outcome.ensures_length_andThen {σ : Type} {length : σ → Nat} {validity : σ → Validity}
    (hlength : ∀ w, length w = (validity w).length) {whole : σ → Validity → σ}
    (hwhole : ∀ w v, validity (whole w v) = v) {w : σ} {first : Outcome σ}
    (hfirst : validity first.value = validity w) (valid : Bool) :
    (first.andThen fun w m => ((validity w).append valid m).map (whole w)).Ensures fun w' =>
      length w' = length w + 1 := by
  have hsame : first.Ensures fun w' => validity w' = validity w := fun _ => hfirst
  refine hsame.andThen fun w' m hw' => Outcome.ensures_map ?_
  refine ((validity w').ensures_length_append valid m).imp fun v hv => ?_
  rw [hlength, hlength, hwhole, hv, hw']

/-- Adding a boolean or a null makes a writer of booleans longer by one slot. -/
theorem BooleanWriter.ensures_length_append (w : BooleanWriter) (value : Option Bool)
    (m : Ledger) :
    (w.append value m).Ensures fun w' => w'.length = w.length + 1 :=
  Outcome.ensures_length_andThen (fun _ => rfl) (fun _ _ => rfl) rfl value.isSome

/-- Adding a number or a null makes a writer of numbers longer by one slot. -/
theorem NumberWriter.ensures_length_append {kind : NumberType} (w : NumberWriter kind)
    (value : Option kind.Carrier) (m : Ledger) :
    (w.append value m).Ensures fun w' => w'.length = w.length + 1 :=
  Outcome.ensures_length_andThen (fun _ => rfl) (fun _ _ => rfl) rfl value.isSome

/-- Ending a slot adds one slot, wherever it ends. -/
theorem Slots.ensures_length_close (s : Slots) (stop : Nat) (valid : Bool) (m : Ledger) :
    (s.close stop valid m).Ensures fun s' => s'.length = s.length + 1 :=
  Outcome.ensures_length_andThen (fun _ => rfl) (fun _ _ => rfl) rfl valid

/-- Ending a slot where the one before it ends adds one slot. -/
theorem Slots.ensures_length_closeEmpty (s : Slots) (valid : Bool) (m : Ledger) :
    (s.closeEmpty valid m).Ensures fun s' => s'.length = s.length + 1 :=
  Outcome.ensures_length_andThen (fun _ => rfl) (fun _ _ => rfl) rfl valid

/-- Adding a byte string or a null makes a writer of strings longer by one slot. -/
theorem BytesWriter.ensures_length_append (w : BytesWriter) (value : Option (List UInt8))
    (m : Ledger) :
    (w.append value m).Ensures fun w' => w'.length = w.length + 1 := by
  cases value with
  | none => exact w.slots.ensures_length_close w.content.byteLength false m
  | some bytes =>
    have hcontent : ((w.content.append bytes m).map fun content => { w with content }).Ensures
        fun w' => w'.slots = w.slots := fun _ => rfl
    simp only [append]
    refine hcontent.andThen fun w' m' hw' => ?_
    have hclose := w'.slots.ensures_length_close w'.content.byteLength true m'
    rw [hw'] at hclose
    rw [close, hw']
    exact Outcome.ensures_map hclose

/-- Where the operation succeeds, the writer has one slot more. -/
def AddsSlot (op : Writer → Ledger → Outcome Writer) : Prop :=
  ∀ (w : Writer) (m : Ledger),
    (op w m).Ensures fun w' => w'.length = w.length + 1

namespace Writer

/-- A null is one slot, whatever it adds to the columns beneath. -/
theorem addsSlot_appendNull : AddsSlot appendNull := by
  intro w m
  cases w with
  | boolean leaf => exact Outcome.ensures_map (leaf.ensures_length_append none m)
  | number kind leaf => exact Outcome.ensures_map (leaf.ensures_length_append none m)
  | binary leaf => exact Outcome.ensures_map (leaf.ensures_length_append none m)
  | utf8 leaf => exact Outcome.ensures_map (leaf.ensures_length_append none m)
  | list slots nullable child =>
    rw [appendNull]
    exact Outcome.ensures_map (slots.ensures_length_closeEmpty false m)
  | struct validity columns =>
    rw [appendNull_struct]
    exact Outcome.ensures_both fun _ => validity.ensures_length_append false _

/-- Adding a boolean or a null makes a writer of booleans longer by one slot. -/
theorem addsSlot_appendBoolean (value : Option Bool) : AddsSlot (appendBoolean value) := by
  intro w m
  cases w with
  | boolean leaf => exact Outcome.ensures_map (leaf.ensures_length_append value m)
  | _ => exact Outcome.ensures_stopped

/-- Adding a number or a null makes a writer of numbers longer by one slot. -/
theorem addsSlot_appendNumber (kind : NumberType) (value : Option kind.Carrier) :
    AddsSlot (appendNumber kind value) := by
  intro w m
  cases w with
  | number kind' leaf =>
    by_cases hsame : kind = kind'
    · subst hsame
      simp only [appendNumber, dite_true]
      exact Outcome.ensures_map (leaf.ensures_length_append value m)
    · simp only [appendNumber, dif_neg hsame]
      exact Outcome.ensures_stopped
  | _ => exact Outcome.ensures_stopped

/-- Adding a byte string or a null makes a writer of strings longer by one slot. -/
theorem addsSlot_appendBytes (value : Option (List UInt8)) : AddsSlot (appendBytes value) := by
  intro w m
  cases w with
  | binary leaf => exact Outcome.ensures_map (leaf.ensures_length_append value m)
  | _ => exact Outcome.ensures_stopped

/-- Adding a text or a null makes a writer of texts longer by one slot. -/
theorem addsSlot_appendText (value : Option String) : AddsSlot (appendText value) := by
  intro w m
  cases w with
  | utf8 leaf => exact Outcome.ensures_map (leaf.ensures_length_append _ m)
  | _ => exact Outcome.ensures_stopped

/-- A closed list is one slot, however many items it has. -/
theorem addsSlot_closeList : AddsSlot closeList := by
  intro w m
  cases w with
  | list slots nullable child =>
    rw [closeList]
    exact Outcome.ensures_map (slots.ensures_length_close _ true m)
  | _ => exact Outcome.ensures_stopped

/-- Adding a list without items makes a writer of lists longer by one slot. -/
theorem addsSlot_appendAbsent : AddsSlot appendAbsent := by
  intro w m
  cases w with
  | list slots nullable child =>
    rw [appendAbsent]
    exact Outcome.ensures_map (slots.ensures_length_closeEmpty true m)
  | _ => exact Outcome.ensures_stopped

/-- Operations on the items of a list leave the number of lists alone. -/
theorem length_onItems (op : Writer → Ledger → Outcome Writer) (w : Writer) (m : Ledger) :
    (w.onItems op m).value.length = w.length := by
  cases w <;> rfl

/-- A list of items is one slot, whatever the items add to the child. -/
theorem addsSlot_appendList (items : List (Writer → Ledger → Outcome Writer)) :
    AddsSlot (appendList items) := by
  intro w m
  have hitems : (w.onItems (fun child m =>
      items.foldl (fun o op => o.andThen op) (.done child m)) m).Ensures fun w' =>
        w'.length = w.length := fun _ => length_onItems _ w m
  refine hitems.andThen fun w' m' hw' => ?_
  rw [← hw']
  exact addsSlot_closeList w' m'

/-- Closing a row makes a struct longer by one slot. -/
theorem addsSlot_closeRow : AddsSlot closeRow := by
  intro w m
  cases w with
  | struct validity columns =>
    unfold closeRow
    dsimp only
    split
    · exact Outcome.ensures_stopped
    split
    · exact Outcome.ensures_stopped
    · exact Outcome.ensures_map (validity.ensures_length_append true m)
  | _ => exact Outcome.ensures_stopped

end Writer

/-- A value of any type is one slot, of whatever layout the writer is. -/
theorem ValueType.addsSlot_write : (type : ValueType) → (value : type.Datum) →
    AddsSlot (type.write value)
  | .boolean, (value : Bool) => Writer.addsSlot_appendBoolean (some value)
  | .number kind, (value : kind.Carrier) => Writer.addsSlot_appendNumber kind (some value)
  | .text, (value : String) => Writer.addsSlot_appendText (some value)
  | .bytes, (value : List UInt8) => Writer.addsSlot_appendBytes (some value)
  | .option _, none => Writer.addsSlot_appendNull
  | .option type, some value => type.addsSlot_write value
  | .collection _, .unset => Writer.addsSlot_appendAbsent
  | .collection _, .empty => Writer.addsSlot_closeList
  | .collection _, .populated _ => Writer.addsSlot_appendList _
  | .record _ fields, row => by
    intro w m
    cases w with
    | struct validity columns =>
      -- The fields go into the columns; only the closing of the row counts.
      have hfields : ((fields.write row 0 columns.count columns m).map
          (Writer.struct validity)).Ensures fun w' =>
            w'.length = (Writer.struct validity columns).length := fun _ => rfl
      refine hfields.andThen fun w' m' hw' => ?_
      rw [← hw']
      exact Writer.addsSlot_closeRow w' m'
    | _ => exact Outcome.ensures_stopped
  | .named _ type, value => type.addsSlot_write value

namespace ColumnOp

/-- What adds something to a column adds one slot. -/
theorem addsSlot_work (hint : Nat) : {op : ColumnOp} → op.adds = true → AddsSlot (op.work hint)
  | .appendAbsent, _ => Writer.addsSlot_appendAbsent
  | .appendNull, _ => Writer.addsSlot_appendNull
  | .append type value, _ => type.addsSlot_write value
  | .appendList _ _, _ => Writer.addsSlot_appendList _

/-- What adds nothing adds no slot, even where it fails. -/
theorem length_work {op : ColumnOp} (hop : op.adds = false) (hint : Nat) (w : Writer)
    (m : Ledger) : (op.work hint w m).value.length = w.length :=
  Writer.length_eq (idle_work hint hop w m)

end ColumnOp

end Columnar
