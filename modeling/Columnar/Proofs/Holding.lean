import Columnar.Proofs.Bitmap
import Columnar.Proofs.Dealing
import Columnar.Writer.Leaf
/-!
# Buffers and leaves deal

Every operation on a buffer, a bitmap, a validity, offsets or a leaf is a deal
with the ledger.  Whether it comes to its end or not, the content fits the room
afterwards, and the room is what is still held.
-/

namespace Columnar

/-- What holds of a value after success, and what after a fault. -/
def Ends {σ : Type} (success failure : σ → Prop) : σ × Option Fault → Prop
  | (a, none) => success a
  | (a, some _) => failure a

/-- What holds either way holds of the value. -/
theorem Ends.always {σ : Type} {P success failure : σ → Prop} (hsuccess : ∀ a, success a → P a)
    (hfailure : ∀ a, failure a → P a) : ∀ r, Ends success failure r → P r.1
  | (a, none), h => hsuccess a h
  | (a, some _), h => hfailure a h

/-- What follows after success. -/
theorem Ends.weaken {σ : Type} {P success failure : σ → Prop} (h : ∀ a, success a → P a) :
    ∀ r, Ends success failure r → Ends P failure r
  | (a, none), hr => h a hr
  | (_, some _), hr => hr

/-- What an operation that is a deal leaves after a fault has the property that the deal promises
then. -/
theorem Deal.failure {σ : Type} [Holder σ] {success failure : σ → Prop} {held : Nat}
    {op : Ledger → Outcome σ}
    (h : Deal (Ends success failure) held fun m => (op m).result) {m : Ledger} {fault : Fault}
    (hfault : (op m).fault = some fault) : failure (op m).value := by
  have hends := (h.trail 0 m).1
  have hresult : (op m).result.1 = ((op m).value, some fault) := congrArg (Prod.mk _) hfault
  rwa [hresult] at hends

instance : Holder Loan where
  room loan := loan.size
  byteLength _ := 0
  Bounded _ := True
  byteLength_le _ := Nat.zero_le _

/-- A loan grows by what is granted, or not at all. -/
theorem Loan.deal_grow (loan : Loan) (n : Nat) :
    Deal (Ends (· = ⟨loan.size + n⟩) (· = loan)) loan.size fun m => (loan.grow n m).result := by
  by_cases hn : n = 0
  · subst hn
    exact Deal.done (a := loan) rfl
  · refine Deal.congr (.asked (n := n) (fun refusal m => ((loan, some (.outOfMemory refusal)), m))
      (Deal.done (a := Loan.mk (loan.size + n)) rfl) ?_) ?_
    · exact fun refusal => ⟨(loan, some (.outOfMemory refusal)), 0, rfl, rfl, rfl, rfl⟩
    · intro m
      unfold Loan.grow Ledger.asking
      rw [if_neg hn]
      rcases m.ask n with ⟨_ | refusal, m'⟩ <;> rfl

theorem Loan.deals_grow (n : Nat) : Deals fun (loan : Loan) m => loan.grow n m :=
  fun loan _ => (loan.deal_grow n).imp fun _ _ => trivial

namespace Buffer

variable {α : Type} {width : Nat} {b : Buffer α width}

instance : Holder (Buffer α width) where
  room := Buffer.room
  byteLength := Buffer.byteLength
  Bounded := Buffer.Bounded
  byteLength_le h := h.fits

/-- No more items in the same loan are bounded. -/
theorem Bounded.of_loan (h : b.Bounded) {b' : Buffer α width} (hloan : b'.loan = b.loan)
    (hlength : b'.items.length ≤ b.items.length) : b'.Bounded := by
  obtain ⟨items, loan⟩ := b'
  obtain rfl : loan = b.loan := hloan
  exact h.shrink hlength

/-- A buffer grows to just the room that it is to have, or not at all. -/
theorem Bounded.deal_growTo (h : b.Bounded) {room : Nat} (hge : b.room ≤ room)
    (hle : room ≤ maxRoom) (hsteps : room % step = 0) :
    Deal (Ends (fun b' => b'.Bounded ∧ b'.items = b.items ∧ b'.room = room) (· = b)) b.room
      fun m => (b.growTo room m).result := by
  refine (Loan.deal_grow b.loan (room - b.room)).part 0 _ (fun _ => rfl) ?_
  rintro loan (_ | fault) hloan
  · obtain rfl : loan = ⟨room⟩ := by
      rw [show loan = _ from hloan]
      exact congrArg Loan.mk (Nat.add_sub_cancel' hge)
    exact ⟨⟨Nat.le_trans h.fits hge, hle, hsteps⟩, rfl, rfl⟩
  · obtain rfl : loan = b.loan := hloan
    rfl

/-- Reserving in a buffer is a deal that leaves the items alone. -/
theorem Bounded.deal_reserve (h : b.Bounded) (bytes : Nat) :
    Deal (Ends (fun b' => b'.Bounded ∧ b'.items = b.items) (· = b)) b.room
      fun m => (b.reserve bytes m).result := by
  unfold Buffer.reserve
  by_cases hfits : b.byteLength + bytes ≤ b.room
  · simp only [if_pos hfits]
    exact .done ⟨h, rfl⟩
  · simp only [if_neg hfits]
    cases hroom : roomFor? (b.byteLength + bytes) with
    | none => exact .stopped rfl Fault.quiet_overflow
    | some room =>
      obtain ⟨hge, -, hsteps, hle⟩ := roomFor?_spec hroom
      refine (h.deal_growTo (by omega) hle hsteps).imp ?_
      rintro ⟨b', _ | fault⟩ hb'
      · exact ⟨hb'.1, hb'.2.1⟩
      · exact hb'

/-- The bytes that room was made for fit after success. -/
theorem Bounded.deal_ensure (h : b.Bounded) (bytes : Nat) :
    Deal (Ends (fun b' => b'.Bounded ∧ b'.items = b.items ∧ b.byteLength + bytes ≤ b'.room)
      (· = b)) b.room fun m => (b.ensure bytes m).result := by
  unfold Buffer.ensure
  by_cases hfits : b.byteLength + bytes ≤ b.room
  · simp only [if_pos hfits]
    exact .done ⟨h, rfl, hfits⟩
  · simp only [if_neg hfits]
    cases hroom : roomFor? (b.byteLength + bytes) with
    | none => exact .stopped rfl Fault.quiet_overflow
    | some room =>
      obtain ⟨hge, -, hsteps, hle⟩ := roomFor?_spec hroom
      have hdouble := h.doubled hsteps
      refine (h.deal_growTo (by omega) (by omega) hdouble).imp ?_
      rintro ⟨b', _ | fault⟩ hb'
      · exact ⟨hb'.1, hb'.2.1, by have := hb'.2.2; omega⟩
      · exact hb'

/-- Room is made for more items, and they are added. -/
theorem Bounded.deal_extend (h : b.Bounded) (items : List α) :
    Deal (Ends (fun b' => b'.Bounded ∧ b'.items = b.items ++ items) (· = b)) b.room
      fun m => ((b.ensure (width * items.length) m).andThen fun b m =>
        .done { b with items := b.items ++ items } m).result := by
  refine (h.deal_ensure (width * items.length)).andThen _ ?_ fun _ _ hb' => hb'
  rintro b' ⟨hb', hitems, hfits⟩
  have hroom : width * b'.items.length + width * items.length ≤ b'.room := by
    rw [hitems]
    exact hfits
  refine Deal.done (a := { b' with items := b'.items ++ items }) ?_
  exact ⟨hb'.extend hroom, by rw [hitems]⟩

/-- Adding items to a buffer is a deal: all of them are added, or none. -/
theorem Bounded.deal_append (h : b.Bounded) (items : List α) :
    Deal (Ends (fun b' => b'.Bounded ∧ b'.items = b.items ++ items) (· = b)) b.room
      fun m => (b.append items m).result :=
  h.deal_extend items

/-- Changing the length of a buffer is a deal: it gets the new length, or stays as it was. -/
theorem Bounded.deal_resize (h : b.Bounded) (n : Nat) (item : α) :
    Deal (Ends (fun b' => b'.Bounded ∧ b'.items.length = n) (· = b)) b.room
      fun m => (b.resize n item m).result := by
  unfold Buffer.resize
  by_cases hn : n ≤ b.items.length
  · simp only [if_pos hn]
    exact Deal.done (a := b.truncate n)
      ⟨h.shrink (List.length_take_le' n b.items), List.length_take_of_le hn⟩
  · simp only [if_neg hn]
    have hextend := h.deal_extend (List.replicate (n - b.items.length) item)
    rw [List.length_replicate] at hextend
    refine hextend.imp ?_
    rintro ⟨b', _ | fault⟩ hb'
    · refine ⟨hb'.1, ?_⟩
      rw [hb'.2, List.length_append, List.length_replicate]
      omega
    · exact hb'

/-- Whoever keeps a buffer bounded, or leaves it as it is, only deals. -/
theorem deals_of_ends {op : Buffer α width → Ledger → Outcome (Buffer α width)}
    (h : ∀ b, b.Bounded → Deal (Ends Buffer.Bounded (· = b)) b.room fun m => (op b m).result) :
    Deals op :=
  fun b hb => (h b hb).imp (Ends.always (fun _ hb' => hb') fun _ hb' => hb' ▸ hb)

theorem deals_append (items : List α) : Deals fun (b : Buffer α width) m => b.append items m :=
  deals_of_ends fun _ h => (h.deal_append items).imp (Ends.weaken fun _ hb => hb.1)

theorem deals_reserve (bytes : Nat) : Deals fun (b : Buffer α width) m => b.reserve bytes m :=
  deals_of_ends fun _ h => (h.deal_reserve bytes).imp (Ends.weaken fun _ hb => hb.1)

/-- A new buffer is empty and bounded; one that is refused holds nothing. -/
theorem deal_new (bytes : Nat) :
    Deal (Makes fun b : Buffer α width => b.Bounded ∧ b.items = []) 0 (Buffer.new bytes) := by
  cases hroom : roomFor? bytes with
  | none =>
    unfold Buffer.new
    rw [hroom]
    exact .failed Fault.quiet_overflow
  | some room =>
    obtain ⟨-, -, hsteps, hle⟩ := roomFor?_spec hroom
    refine Deal.congr ((Loan.deal_grow {} room).elim 0 ?_ ?_) (new_eq hroom)
    · rintro loan rfl
      refine Deal.made (a := ({ loan := ⟨0 + room⟩ } : Buffer α width))
        ⟨⟨Nat.zero_le _, ?_, ?_⟩, rfl⟩
      · rwa [Buffer.room, Nat.zero_add]
      · rwa [Buffer.room, Nat.zero_add]
    · rintro loan fault rfl
      exact ⟨.error fault, 0, trivial, rfl, rfl, rfl⟩

end Buffer

namespace Bitmap

/-- The bits have their bytes, and the bytes their room. -/
structure Bounded (b : Bitmap) : Prop where
  bytes : b.bytes.Bounded
  fits : bytesFor b.length ≤ b.bytes.items.length

/-- A tidy bitmap is bounded, as its bytes are. -/
theorem Tidy.toBounded {b : Bitmap} (h : b.Tidy) : b.Bounded :=
  ⟨h.bounded, Nat.le_of_eq h.bytes_length.symm⟩

theorem Bounded.byteLength_le {b : Bitmap} (h : b.Bounded) : b.byteLength ≤ b.room := by
  have hbytes := h.bytes.fits
  rw [Buffer.byteLength, Nat.one_mul] at hbytes
  exact Nat.le_trans h.fits hbytes

instance : Holder Bitmap where
  room := Bitmap.room
  byteLength := Bitmap.byteLength
  Bounded := Bitmap.Bounded
  byteLength_le := Bounded.byteLength_le

variable {b : Bitmap}

theorem deal_new (capacity : Nat) : Deal (Makes Bitmap.Bounded) 0 (Bitmap.new capacity) :=
  Deal.congr ((Buffer.deal_new (bytesFor capacity)).boxed (fun bytes => { bytes })
    (fun _ => rfl) fun _ hbytes => ⟨hbytes.1, by simp [bytesFor]⟩) (new_eq capacity)

theorem deals_reserve (n : Nat) : Deals fun (b : Bitmap) m => b.reserve n m := by
  intro b h
  dsimp only [Bitmap.reserve]
  cases Size.add? b.length n with
  | none => exact .stopped h Fault.quiet_overflow
  | some length =>
    refine (h.bytes.deal_reserve _).part 0 _ (fun _ => rfl) ?_
    rintro bytes (_ | fault) hbytes
    · exact ⟨hbytes.1, by rw [hbytes.2]; exact h.fits⟩
    · obtain rfl : bytes = b.bytes := hbytes
      exact h

/-- Bits are counted once they have their bytes, which are changed in place. -/
theorem deal_counted {bytes : Buffer UInt8 1} (hbytes : bytes.Bounded) {old : Nat}
    (hold : bytesFor old ≤ bytes.items.length) (length : Nat) (byte : UInt8)
    (change : Buffer UInt8 1 → Buffer UInt8 1) (hloan : ∀ bytes, (change bytes).loan = bytes.loan)
    (hlength : ∀ bytes, (change bytes).items.length = bytes.items.length) :
    Deal (fun r => r.1.Bounded) bytes.room fun m =>
      (((bytes.resize (bytesFor length) byte m).map fun bytes =>
        ({ bytes, length := old } : Bitmap)).andThen fun b m =>
          .done { bytes := change b.bytes, length } m).result := by
  have hresized := (hbytes.deal_resize (bytesFor length) byte).part 0
    (fun bytes => ({ bytes, length := old } : Bitmap)) (fun _ => rfl)
    (Q := Ends (fun b => b.bytes.Bounded ∧ b.bytes.items.length = bytesFor length)
      Bitmap.Bounded) ?_
  · refine hresized.andThen _ ?_ fun _ _ hb => hb
    rintro b ⟨hbounded, hitems⟩
    have hroom : Holder.room b = Holder.room ({ bytes := change b.bytes, length } : Bitmap) :=
      (congrArg Loan.size (hloan b.bytes)).symm
    rw [hroom]
    refine Deal.done ⟨hbounded.of_loan (hloan _) (Nat.le_of_eq (hlength _)), ?_⟩
    exact Nat.le_of_eq (hitems.symm.trans (hlength _).symm)
  · rintro bytes' (_ | fault) hbytes'
    · exact hbytes'
    · obtain rfl : bytes' = bytes := hbytes'
      exact ⟨hbytes, hold⟩

theorem deals_append (bit : Bool) : Deals fun (b : Bitmap) m => b.append bit m := by
  intro b h
  dsimp only [Bitmap.append]
  cases Size.add? b.length 1 with
  | none => exact .stopped h Fault.quiet_overflow
  | some length =>
    refine Deal.congr (deal_counted h.bytes h.fits length 0
      (fun bytes => if bit then setBit bytes b.length else bytes) ?_ ?_) ?_
    · exact fun bytes => by cases bit <;> rfl
    · exact fun bytes => by cases bit <;> simp [setBit, Buffer.modify]
    · intro m
      dsimp only
      rcases b.bytes.resize (bytesFor length) 0 m with ⟨bytes, m', _ | fault⟩ <;>
        simp only [Outcome.map, Outcome.andThen]

/-- The bytes before a run of ones hold just the bits so far. -/
theorem Bounded.padded (h : b.Bounded) :
    b.padded.Bounded ∧ b.padded.items.length = bytesFor b.length := by
  have hfits := h.fits
  have hlength : b.padded.items.length = bytesFor b.length := by
    unfold Bitmap.padded
    split <;> simp [Buffer.truncate, Buffer.modifyLast, Buffer.modify, hfits]
  exact ⟨h.bytes.of_loan b.loan_padded (by omega), hlength⟩

theorem deals_appendMany (bit : Bool) (n : Nat) :
    Deals fun (b : Bitmap) m => b.appendMany bit n m := by
  intro b h
  dsimp only [Bitmap.appendMany]
  cases hsum : Size.add? b.length n with
  | none => exact .stopped h Fault.quiet_overflow
  | some length =>
    cases bit with
    | true =>
      -- The bytes are padded before memory is asked for, so the deal starts with those.
      obtain ⟨hpadded, hlength⟩ := h.padded
      have hroom : Holder.room b = b.padded.room := congrArg Loan.size b.loan_padded.symm
      rw [hroom]
      refine Deal.congr (deal_counted hpadded (Nat.le_of_eq hlength.symm) length 0xff
        (fun bytes => clearedPast bytes length) ?_ ?_) ?_
      · intro bytes
        unfold clearedPast
        split <;> rfl
      · intro bytes
        unfold clearedPast
        split <;> simp [Buffer.modifyLast, Buffer.modify]
      · intro m
        dsimp only
        rw [if_pos rfl]
    | false =>
      by_cases hbytes : bytesFor length ≤ b.bytes.items.length
      · simp only [Bool.false_eq_true, if_false, if_pos hbytes]
        refine Deal.done (a := { b with length }) ?_
        exact ⟨h.bytes, hbytes⟩
      · simp only [Bool.false_eq_true, if_false, if_neg hbytes]
        exact deal_counted h.bytes h.fits length 0 id (fun _ => rfl) fun _ => rfl

end Bitmap

namespace Validity

/-- A mask is bounded. -/
def Bounded : Validity → Prop
  | allValid .. => True
  | mask bits => bits.Bounded

theorem Bounded.byteLength_le {v : Validity} (h : v.Bounded) : v.byteLength ≤ v.room := by
  cases v with
  | allValid slots planned => exact Nat.le_refl 0
  | mask bits => exact Bitmap.Bounded.byteLength_le h

instance : Holder Validity where
  room := Validity.room
  byteLength := Validity.byteLength
  Bounded := Validity.Bounded
  byteLength_le := Bounded.byteLength_le

/-- An operation on the mask. -/
theorem deal_mask {held : Nat} {op : Ledger → Outcome Bitmap}
    (h : Deal (fun r => Holder.Bounded r.1) held fun m => (op m).result) :
    Deal (fun r => Holder.Bounded r.1) held fun m => ((op m).map Validity.mask).result :=
  h.part 0 _ (fun _ => rfl) fun _ _ hbits => hbits

theorem deals_reserve (n : Nat) : Deals fun (v : Validity) m => v.reserve n m := by
  intro v h
  dsimp only [Validity.reserve]
  cases Size.add? v.length n with
  | none => exact .stopped h Fault.quiet_overflow
  | some total =>
    cases v with
    | allValid slots planned => exact .done (a := allValid slots (max planned total)) trivial
    | mask bits => exact deal_mask (Bitmap.deals_reserve n bits h)

/-- The mask is made with nothing held before, and nothing is held if it is
refused. -/
theorem deal_firstNulls (slots planned n : Nat) :
    Deal (fun r => Holder.Bounded r.1) 0 fun m => (firstNulls slots planned n m).result := by
  cases hsum : Size.add? slots n with
  | none =>
    simp only [firstNulls, hsum]
    exact Deal.stopped (a := allValid slots planned) trivial Fault.quiet_overflow
  | some total =>
    simp only [firstNulls_eq hsum]
    have hmade := ((Bitmap.deals_reserve (max planned total)).andThen
      (Bitmap.deals_appendMany true slots)).andThen (Bitmap.deals_appendMany false n)
    refine (hmade {} Bitmap.tidy_empty.toBounded).next 0 ?_ ?_
    · exact fun bits hbits => Deal.done (a := mask bits) hbits
    · intro bits fault _
      rw [Nat.add_comm]
      exact .stopped (a := allValid slots planned) trivial bits.room

theorem deals_append (valid : Bool) : Deals fun (v : Validity) m => v.append valid m := by
  rintro (⟨slots, planned⟩ | bits) h
  · cases valid with
    | true =>
      dsimp only [Validity.append]
      cases Size.add? slots 1 with
      | none =>
        exact .stopped (a := allValid slots planned) trivial (Fault.Quiet.of_none rfl)
      | some total => exact .done (a := allValid total planned) trivial
    | false => exact deal_firstNulls slots planned 1
  · exact deal_mask (Bitmap.deals_append valid bits h)

theorem deals_appendMany (valid : Bool) (n : Nat) :
    Deals fun (v : Validity) m => v.appendMany valid n m := by
  intro v h
  dsimp only [Validity.appendMany]
  by_cases hn : n = 0
  · simp only [if_pos hn]
    exact .done h
  · simp only [if_neg hn]
    cases v with
    | mask bits => exact deal_mask (Bitmap.deals_appendMany valid n bits h)
    | allValid slots planned =>
      cases valid with
      | false => exact deal_firstNulls slots planned n
      | true =>
        dsimp only
        cases Size.add? slots n with
        | none => exact .stopped (a := allValid slots planned) trivial Fault.quiet_overflow
        | some total => exact .done (a := allValid total planned) trivial

end Validity

namespace Offsets

instance : Holder Offsets where
  room := Offsets.room
  byteLength := Offsets.byteLength
  Bounded o := o.ends.Bounded
  byteLength_le h := h.fits

theorem deals_reserve (n : Nat) : Deals fun (o : Offsets) m => o.reserve n m := by
  intro o h
  dsimp only [Offsets.reserve]
  cases Size.mul? n 4 with
  | none => exact .stopped h Fault.quiet_overflow
  | some bytes =>
    refine (Buffer.Bounded.deal_reserve h bytes).part 0 _ (fun _ => rfl) ?_
    rintro ends (_ | fault) hends
    · exact hends.1
    · obtain rfl : ends = o.ends := hends
      exact h

theorem deals_append (stop : Nat) : Deals fun (o : Offsets) m => o.append stop m := by
  intro o h
  dsimp only [Offsets.append]
  by_cases hlarge : maxOffset < stop
  · simp only [if_pos hlarge]
    exact .stopped h (Fault.Quiet.of_none rfl)
  · by_cases hdescends : (stop : Int) < o.last
    · simp only [if_neg hlarge, if_pos hdescends]
      exact .stopped h (Fault.Quiet.of_none rfl)
    · simp only [if_neg hlarge, if_neg hdescends]
      have hpushed := (Buffer.Bounded.deal_append h [(stop : Int)]).part 0
        (fun ends => ({ o with ends } : Offsets)) (fun _ => rfl)
        (Q := fun r => Holder.Bounded r.1) ?_
      · exact hpushed.andThen _ (fun o' ho' => .done (a := { o' with last := stop }) ho')
          fun _ _ h => h
      · rintro ends (_ | fault) hends
        · exact hends.1
        · obtain rfl : ends = o.ends := hends
          exact h

theorem deals_appendLength (n : Nat) : Deals fun (o : Offsets) m => o.appendLength n m := by
  intro o h
  dsimp only [Offsets.appendLength]
  cases Size.add? o.lastEnd n with
  | none => exact .stopped h (Fault.Quiet.of_none rfl)
  | some stop => exact deals_append stop o h

theorem deal_new (capacity : Nat) :
    Deal (Makes fun o : Offsets => o.ends.Bounded) 0 (Offsets.new capacity) := by
  refine Deal.congr ((Buffer.deal_new (4 * (capacity + 1))).chain 0 _ ?_) (new_eq capacity)
  rintro ends ⟨hends, -⟩
  exact (hends.deal_append [(0 : Int)]).make _ fun ends hends =>
    Deal.made (a := ({ ends } : Offsets)) hends.1

end Offsets

namespace BooleanWriter

/-- The values and the validity are bounded. -/
structure Bounded (w : BooleanWriter) : Prop where
  values : w.values.Bounded
  validity : w.validity.Bounded

instance : Holder BooleanWriter where
  room := BooleanWriter.room
  byteLength := BooleanWriter.byteLength
  Bounded := BooleanWriter.Bounded
  byteLength_le h := Nat.add_le_add h.validity.byteLength_le h.values.byteLength_le

theorem divides_split : split.Divides where
  room_eq _ := Nat.add_comm _ _
  bounded_iff _ := ⟨fun h => ⟨h.values, h.validity⟩, fun h => ⟨h.1, h.2⟩⟩

theorem deals_append (value : Option Bool) :
    Deals fun (w : BooleanWriter) m => w.append value m :=
  (divides_split.onFirst (Bitmap.deals_append (value.getD false))).andThen
    (divides_split.onSecond (Validity.deals_append value.isSome))

theorem deals_reserve (n : Nat) : Deals fun (w : BooleanWriter) m => w.reserve n m :=
  (divides_split.onSecond (Validity.deals_reserve n)).andThen
    (divides_split.onFirst (Bitmap.deals_reserve n))

theorem deal_new (capacity : Nat) :
    Deal (Makes BooleanWriter.Bounded) 0 (BooleanWriter.new capacity) :=
  Deal.congr ((Bitmap.deal_new capacity).boxed
    (fun values => ({ values, validity := .new capacity } : BooleanWriter))
    (fun _ => Nat.zero_add _) fun _ hvalues => ⟨hvalues, trivial⟩) (new_eq capacity)

end BooleanWriter

namespace NumberWriter

variable {kind : NumberType}

/-- The values and the validity are bounded. -/
structure Bounded (w : NumberWriter kind) : Prop where
  values : w.values.Bounded
  validity : w.validity.Bounded

instance : Holder (NumberWriter kind) where
  room := NumberWriter.room
  byteLength := NumberWriter.byteLength
  Bounded := NumberWriter.Bounded
  byteLength_le h := Nat.add_le_add h.validity.byteLength_le h.values.fits

theorem divides_split : (@split kind).Divides where
  room_eq _ := Nat.add_comm _ _
  bounded_iff _ := ⟨fun h => ⟨h.values, h.validity⟩, fun h => ⟨h.1, h.2⟩⟩

theorem deals_append (value : Option kind.Carrier) :
    Deals fun (w : NumberWriter kind) m => w.append value m :=
  (divides_split.onFirst (Buffer.deals_append [value.getD 0])).andThen
    (divides_split.onSecond (Validity.deals_append value.isSome))

theorem deals_appendAll (values : List kind.Carrier) :
    Deals fun (w : NumberWriter kind) m => w.appendAll values m :=
  (divides_split.onFirst (Buffer.deals_append values)).andThen
    (divides_split.onSecond (Validity.deals_appendMany true values.length))

theorem deals_reserve (n : Nat) : Deals fun (w : NumberWriter kind) m => w.reserve n m := by
  refine (divides_split.onSecond (Validity.deals_reserve n)).andThen ?_
  cases Size.mul? n kind.width with
  | none => exact .stopped fun _ => Fault.quiet_overflow
  | some bytes => exact divides_split.onFirst (Buffer.deals_reserve bytes)

theorem deal_new (kind : NumberType) (capacity : Nat) :
    Deal (Makes NumberWriter.Bounded) 0 (NumberWriter.new kind capacity) :=
  Deal.congr ((Buffer.deal_new (kind.width * capacity)).boxed
    (fun values => ({ values, validity := .new capacity } : NumberWriter kind))
    (fun _ => Nat.zero_add _) fun _ hvalues => ⟨hvalues.1, trivial⟩) (new_eq kind capacity)

end NumberWriter

namespace Slots

/-- The offsets and the validity are bounded. -/
structure Bounded (s : Slots) : Prop where
  offsets : s.offsets.ends.Bounded
  validity : s.validity.Bounded

theorem Bounded.byteLength_le {s : Slots} (h : s.Bounded) : s.byteLength ≤ s.room :=
  Nat.add_le_add h.validity.byteLength_le h.offsets.fits

instance : Holder Slots where
  room := Slots.room
  byteLength := Slots.byteLength
  Bounded := Slots.Bounded
  byteLength_le := Bounded.byteLength_le

theorem divides_split : split.Divides where
  room_eq _ := rfl
  bounded_iff _ := ⟨fun h => ⟨h.validity, h.offsets⟩, fun h => ⟨h.2, h.1⟩⟩

theorem deals_close (stop : Nat) (valid : Bool) :
    Deals fun (s : Slots) m => s.close stop valid m :=
  (divides_split.onSecond (Offsets.deals_append stop)).andThen
    (divides_split.onFirst (Validity.deals_append valid))

theorem deals_closeEmpty (valid : Bool) : Deals fun (s : Slots) m => s.closeEmpty valid m :=
  (divides_split.onSecond (Offsets.deals_appendLength 0)).andThen
    (divides_split.onFirst (Validity.deals_append valid))

theorem deals_reserve (n : Nat) : Deals fun (s : Slots) m => s.reserve n m :=
  (divides_split.onFirst (Validity.deals_reserve n)).andThen
    (divides_split.onSecond (Offsets.deals_reserve n))

theorem deal_new (capacity : Nat) : Deal (Makes Slots.Bounded) 0 (Slots.new capacity) :=
  Deal.congr ((Offsets.deal_new capacity).boxed
    (fun offsets => ({ offsets, validity := .new capacity } : Slots))
    (fun _ => Nat.zero_add _) fun _ hoffsets => ⟨hoffsets, trivial⟩) (new_eq capacity)

end Slots

namespace BytesWriter

/-- The slots and the content are bounded. -/
structure Bounded (w : BytesWriter) : Prop where
  slots : w.slots.Bounded
  content : w.content.Bounded

instance : Holder BytesWriter where
  room := BytesWriter.room
  byteLength := BytesWriter.byteLength
  Bounded := BytesWriter.Bounded
  byteLength_le h := Nat.add_le_add h.slots.byteLength_le h.content.fits

theorem divides_split : split.Divides where
  room_eq _ := rfl
  bounded_iff _ := ⟨fun h => ⟨h.slots, h.content⟩, fun h => ⟨h.1, h.2⟩⟩

theorem deals_close (valid : Bool) : Deals fun (w : BytesWriter) m => w.close valid m :=
  fun w hw => divides_split.onFirst (Slots.deals_close w.content.byteLength valid) w hw

theorem deals_append (value : Option (List UInt8)) :
    Deals fun (w : BytesWriter) m => w.append value m := by
  cases value with
  | none => exact deals_close false
  | some bytes =>
    exact (divides_split.onSecond (Buffer.deals_append bytes)).andThen (deals_close true)

theorem deals_reserve (n : Nat) : Deals fun (w : BytesWriter) m => w.reserve n m :=
  divides_split.onFirst (Slots.deals_reserve n)

theorem deals_reserveContent (n : Nat) : Deals fun (w : BytesWriter) m => w.reserveContent n m :=
  divides_split.onSecond (Buffer.deals_reserve n)

theorem deal_new (capacity bytes : Nat) :
    Deal (Makes BytesWriter.Bounded) 0 (BytesWriter.new capacity bytes) := by
  refine Deal.congr ((Slots.deal_new capacity).chain 0 _ fun slots hslots => ?_)
    (new_eq capacity bytes)
  exact (Buffer.deal_new bytes).beside slots.room
    (fun content => ({ slots, content } : BytesWriter)) (fun _ => Nat.add_comm _ _)
    fun _ hcontent => ⟨hslots, hcontent.1⟩

end BytesWriter

end Columnar
