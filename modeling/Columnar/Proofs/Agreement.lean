import Mathlib.Logic.Basic
import Columnar.Operations
import Columnar.Proofs.Buffer
/-!
# Storage apart from its memory

`Bare.bare` is storage without its memory and without plans for more of it.
Two pieces of storage are alike, `a ≈ b`, if they are the same when bare: they
hold the same, in whatever room.

An operation is steady if it keeps what is alike alike wherever it succeeds, on
any two ledgers.  It is idle if it does nothing else than to ask for memory.
Reserving is idle and adding is steady, for every part of a writer from the
buffers up.  So whether and when memory was reserved does not show.
-/

namespace Columnar

/-- Storage that can be looked at apart from its memory. -/
class Bare (σ : Type) where
  /-- The content, in no memory and without plans for more. -/
  bare : σ → σ

/-- Alike is what holds the same, in whatever memory. -/
instance {σ : Type} [Bare σ] : Setoid σ where
  r a b := Bare.bare a = Bare.bare b
  iseqv := ⟨fun _ => rfl, Eq.symm, Eq.trans⟩

section Rules

variable {σ τ : Type} [Bare σ] [Bare τ]

namespace Outcome

/-- If both come to their end, they leave what is alike. -/
def Agree (o₁ o₂ : Outcome σ) : Prop :=
  o₁.fault = none → o₂.fault = none → o₁.value ≈ o₂.value

/-- Whoever comes to an end at once agrees on what is alike. -/
theorem agree_done {a b : σ} {m₁ m₂ : Ledger} (h : a ≈ b) : (done a m₁).Agree (done b m₂) :=
  fun _ _ => h

/-- An operation that stops agrees with every other, since nothing is said of what it leaves. -/
theorem agree_stopped {a : σ} {m : Ledger} {f : Fault} {o : Outcome σ} : (stopped a m f).Agree o :=
  nofun

/-- The wholes around parts agree if the parts do. -/
theorem Agree.map {o₁ o₂ : Outcome σ} {whole₁ whole₂ : σ → τ} (h : o₁.Agree o₂)
    (hwhole : ∀ a b, a ≈ b → whole₁ a ≈ whole₂ b) : (o₁.map whole₁).Agree (o₂.map whole₂) :=
  fun h₁ h₂ => hwhole _ _ (h h₁ h₂)

/-- Two chains of operations agree if their first steps do, and if what goes on after these does. -/
theorem Agree.andThen {o₁ o₂ : Outcome σ} {next₁ next₂ : σ → Ledger → Outcome σ}
    (h : o₁.Agree o₂)
    (hnext : ∀ a b, a ≈ b → ∀ m₁ m₂, (next₁ a m₁).Agree (next₂ b m₂)) :
    (o₁.andThen next₁).Agree (o₂.andThen next₂) := by
  intro h₁ h₂
  obtain ⟨hfirst₁, hsecond₁⟩ := fault_andThen_eq_none_iff.1 h₁
  obtain ⟨hfirst₂, hsecond₂⟩ := fault_andThen_eq_none_iff.1 h₂
  rw [andThen_of_none hfirst₁, andThen_of_none hfirst₂]
  exact hnext _ _ (h hfirst₁ hfirst₂) _ _ hsecond₁ hsecond₂

/-- Operations on two parts agree if those on each part do. -/
theorem Agree.both {σ' : Type} [Bare σ'] {whole : σ → σ' → τ} {b₁ b₂ : σ'}
    {first₁ first₂ : Outcome σ} {second₁ second₂ : Ledger → Outcome σ'}
    (hfirst : first₁.Agree first₂) (hsecond : ∀ m₁ m₂, (second₁ m₁).Agree (second₂ m₂))
    (hwhole : ∀ a₁ a₂ b₁ b₂, a₁ ≈ a₂ → b₁ ≈ b₂ → whole a₁ b₁ ≈ whole a₂ b₂) :
    (Outcome.both whole b₁ first₁ second₁).Agree (Outcome.both whole b₂ first₂ second₂) := by
  rcases first₁ with ⟨a₁, m₁, _ | fault₁⟩
  · rcases first₂ with ⟨a₂, m₂, _ | fault₂⟩
    · exact (hsecond m₁ m₂).map fun b₁ b₂ hb => hwhole _ _ _ _ (hfirst rfl rfl) hb
    · exact fun _ h₂ => nomatch h₂
  · exact fun h₁ => nomatch h₁

/-- Operations that leave two parts alike leave the whole alike. -/
theorem alike_both {σ' : Type} [Bare σ'] {whole : σ → σ' → τ} {a : σ} {b : σ'}
    {first : Outcome σ} {second : Ledger → Outcome σ'} (hfirst : first.value ≈ a)
    (hsecond : ∀ m, (second m).value ≈ b)
    (hwhole : ∀ a₁ a₂ b₁ b₂, a₁ ≈ a₂ → b₁ ≈ b₂ → whole a₁ b₁ ≈ whole a₂ b₂) :
    (Outcome.both whole b first second).value ≈ whole a b := by
  rcases first with ⟨a', m, _ | fault⟩
  · exact hwhole _ _ _ _ hfirst (hsecond m)
  · exact hwhole _ _ _ _ hfirst (Setoid.refl b)

end Outcome

/-- The operation keeps what is alike alike wherever it succeeds. -/
def Steady (op : σ → Ledger → Outcome σ) : Prop :=
  ∀ a b, a ≈ b → ∀ m₁ m₂, (op a m₁).Agree (op b m₂)

/-- The operation changes nothing but memory and plans for it. -/
def Idle (op : σ → Ledger → Outcome σ) : Prop :=
  ∀ a m, (op a m).value ≈ a

/-- An operation that changes nothing but the room keeps alike what is alike. -/
theorem Idle.steady {op : σ → Ledger → Outcome σ} (h : Idle op) : Steady op :=
  fun a b hab m₁ m₂ _ _ => ((h a m₁).trans hab).trans (h b m₂).symm

/-- What comes to its end at once is steady. -/
theorem steady_done {f : σ → σ} (h : ∀ a b, a ≈ b → f a ≈ f b) :
    Steady fun a m => .done (f a) m :=
  fun a b hab _ _ => Outcome.agree_done (h a b hab)

/-- Two operations that keep alike what is alike keep it so one after the other. -/
theorem Steady.andThen {first second : σ → Ledger → Outcome σ} (hfirst : Steady first)
    (hsecond : Steady second) : Steady fun a m => (first a m).andThen second :=
  fun a b hab m₁ m₂ => (hfirst a b hab m₁ m₂).andThen hsecond

/-- Two operations that change nothing but the room change nothing else one after the other. -/
theorem Idle.andThen {first second : σ → Ledger → Outcome σ} (hfirst : Idle first)
    (hsecond : Idle second) : Idle fun a m => (first a m).andThen second := by
  intro a m
  cases hfault : (first a m).fault with
  | none =>
    dsimp only
    rw [Outcome.andThen_of_none hfault]
    exact (hsecond _ _).trans (hfirst a m)
  | some fault =>
    dsimp only
    rw [Outcome.andThen_of_some hfault]
    exact hfirst a m

/-- A list of steady operations, one after the other. -/
theorem Steady.foldl {ops : List (σ → Ledger → Outcome σ)} (hops : ∀ op ∈ ops, Steady op)
    {o₁ o₂ : Outcome σ} (h : o₁.Agree o₂) :
    (ops.foldl (fun o op => o.andThen op) o₁).Agree (ops.foldl (fun o op => o.andThen op) o₂) := by
  induction ops generalizing o₁ o₂ with
  | nil => exact h
  | cons op ops ih =>
    obtain ⟨hop, hops⟩ := List.forall_mem_cons.1 hops
    exact ih hops (h.andThen hop)

/-- A part of a whole that is alike where the whole is. -/
structure Place (σ τ : Type) [Bare σ] [Bare τ] where
  get : τ → σ
  set : τ → σ → τ
  set_get (w : τ) : set w (get w) = w
  alike_get {v w : τ} : v ≈ w → get v ≈ get w
  alike_set {v w : τ} {a b : σ} : v ≈ w → a ≈ b → set v a ≈ set w b

/-- A steady operation on a part is steady on the whole. -/
theorem Steady.on {op : σ → Ledger → Outcome σ} (h : Steady op) (place : Place σ τ) :
    Steady fun w m => (op (place.get w) m).map (place.set w) :=
  fun _ _ hvw m₁ m₂ =>
    (h _ _ (place.alike_get hvw) m₁ m₂).map fun _ _ hab => place.alike_set hvw hab

/-- An idle operation on a part is idle on the whole. -/
theorem Idle.on {op : σ → Ledger → Outcome σ} (h : Idle op) (place : Place σ τ) :
    Idle fun w m => (op (place.get w) m).map (place.set w) := by
  intro w m
  have hset := place.alike_set (Setoid.refl w) (h (place.get w) m)
  rwa [place.set_get] at hset

/-- A whole is alike where both of its parts are. -/
def Split.Separates {σ' : Type} [Bare σ'] (split : Split σ σ' τ) : Prop :=
  ∀ v w : τ, v ≈ w ↔ split.first v ≈ split.first w ∧ split.second v ≈ split.second w

namespace Split.Separates

variable {σ' : Type} [Bare σ'] {split : Split σ σ' τ}

/-- Wholes whose parts are alike are alike themselves. -/
theorem alike_whole (h : split.Separates) {a a' : σ} {b b' : σ'} (ha : a ≈ a') (hb : b ≈ b') :
    split.whole a b ≈ split.whole a' b' := by
  rw [h, split.first_whole, split.first_whole, split.second_whole, split.second_whole]
  exact ⟨ha, hb⟩

/-- The place of the first part. -/
def firstPlace (h : split.Separates) : Place σ τ where
  get := split.first
  set w a := split.whole a (split.second w)
  set_get := split.whole_eq
  alike_get hvw := ((h _ _).1 hvw).1
  alike_set hvw hab := h.alike_whole hab ((h _ _).1 hvw).2

/-- The place of the second part. -/
def secondPlace (h : split.Separates) : Place σ' τ where
  get := split.second
  set w b := split.whole (split.first w) b
  set_get := split.whole_eq
  alike_get hvw := ((h _ _).1 hvw).2
  alike_set hvw hab := h.alike_whole ((h _ _).1 hvw).1 hab

end Split.Separates

end Rules

namespace Buffer

variable {α : Type} {width : Nat}

instance : Bare (Buffer α width) where
  bare b := { items := b.items }

/-- Buffers are alike if they have the same items. -/
theorem alike_iff {a b : Buffer α width} : a ≈ b ↔ a.items = b.items := by
  show (⟨a.items, {}⟩ : Buffer α width) = ⟨b.items, {}⟩ ↔ _
  simp

theorem alike_truncate {a b : Buffer α width} (h : a ≈ b) (n : Nat) :
    a.truncate n ≈ b.truncate n :=
  alike_iff.2 (congrArg (List.take n) (alike_iff.1 h))

theorem alike_modify {a b : Buffer α width} (h : a ≈ b) (i : Nat) (change : α → α) :
    a.modify i change ≈ b.modify i change :=
  alike_iff.2 (congrArg (List.modify · i change) (alike_iff.1 h))

theorem alike_modifyLast {a b : Buffer α width} (h : a ≈ b) (change : α → α) :
    a.modifyLast change ≈ b.modifyLast change := by
  unfold modifyLast
  rw [alike_iff.1 h]
  exact alike_modify h _ change

theorem idle_reserve (bytes : Nat) : Idle fun (b : Buffer α width) m => b.reserve bytes m :=
  fun b m => alike_iff.2 (items_reserve b bytes m)

theorem idle_ensure (bytes : Nat) : Idle fun (b : Buffer α width) m => b.ensure bytes m :=
  fun b m => alike_iff.2 (items_ensure b bytes m)

theorem steady_append (items : List α) :
    Steady fun (b : Buffer α width) m => b.append items m := by
  refine (idle_ensure (width * items.length)).steady.andThen (steady_done fun a b h => ?_)
  rw [alike_iff] at h ⊢
  exact congrArg (· ++ items) h

theorem steady_resize (n : Nat) (item : α) :
    Steady fun (b : Buffer α width) m => b.resize n item m := by
  intro a b h m₁ m₂
  have hitems := alike_iff.1 h
  dsimp only [resize]
  rw [hitems]
  split
  · exact Outcome.agree_done (alike_truncate h n)
  · refine (idle_ensure _).steady.andThen (steady_done fun a b h => ?_) a b h m₁ m₂
    rw [alike_iff] at h ⊢
    exact congrArg (· ++ List.replicate (n - _) item) h

/-- Buffers with the same items take equally many bytes, whatever room they have. -/
theorem byteLength_eq {a b : Buffer α width} (h : a ≈ b) : a.byteLength = b.byteLength :=
  congrArg (width * ·.length) (alike_iff.1 h)

/-- A new buffer is empty. -/
theorem alike_new {bytes : Nat} {m m' : Ledger} {b : Buffer α width}
    (h : Buffer.new bytes m = (.ok b, m')) : b ≈ {} :=
  alike_iff.2 (bounded_new h).2

end Buffer

namespace Bitmap

instance : Bare Bitmap where
  bare b := { b with bytes := Bare.bare b.bytes }

/-- Bitmaps are alike if they have the same bytes and as many bits. -/
theorem alike_iff {a b : Bitmap} : a ≈ b ↔ a.bytes ≈ b.bytes ∧ a.length = b.length :=
  Iff.of_eq (Bitmap.mk.injEq ..)

/-- The bytes of a bitmap. -/
def bytesPlace : Place (Buffer UInt8 1) Bitmap where
  get b := b.bytes
  set b bytes := { b with bytes }
  set_get _ := rfl
  alike_get h := (alike_iff.1 h).1
  alike_set h hbytes := alike_iff.2 ⟨hbytes, (alike_iff.1 h).2⟩

theorem idle_reserve (n : Nat) : Idle fun (b : Bitmap) m => b.reserve n m := by
  intro b m
  dsimp only [reserve]
  cases Size.add? b.length n with
  | none => exact Setoid.refl b
  | some length => exact (Buffer.idle_reserve _).on bytesPlace b m

/-- Bitmaps with the same bytes and counts have equally many bits. -/
theorem length_eq {a b : Bitmap} (h : a ≈ b) : a.length = b.length := (alike_iff.1 h).2

theorem byteLength_eq {a b : Bitmap} (h : a ≈ b) : a.byteLength = b.byteLength :=
  congrArg bytesFor (length_eq h)

/-- Bitmaps with the same bytes and counts stand for the same bits. -/
theorem bits_eq {a b : Bitmap} (h : a ≈ b) : a.bits = b.bits := by
  obtain ⟨hbytes, hlength⟩ := alike_iff.1 h
  rw [bits, bits, Buffer.alike_iff.1 hbytes, hlength]

theorem steady_append (bit : Bool) : Steady fun (b : Bitmap) m => b.append bit m := by
  intro a b h m₁ m₂
  have hsize : Size.add? a.length 1 = Size.add? b.length 1 := by rw [length_eq h]
  dsimp only [append]
  rw [hsize]
  cases Size.add? b.length 1 with
  | none => exact Outcome.agree_stopped
  | some length =>
    have hset : Steady fun (b : Bitmap) m =>
        .done { bytes := if bit then setBit b.bytes b.length else b.bytes, length } m := by
      refine steady_done fun a b h => alike_iff.2 ⟨?_, rfl⟩
      cases bit with
      | true =>
        dsimp only [if_true]
        rw [length_eq h]
        exact Buffer.alike_modify (alike_iff.1 h).1 _ _
      | false => exact (alike_iff.1 h).1
    exact ((Buffer.steady_resize _ 0).on bytesPlace).andThen hset a b h m₁ m₂

/-- The padding of bytes is decided by the bits. -/
theorem alike_padded {a b : Bitmap} (h : a ≈ b) : a.padded ≈ b.padded := by
  obtain ⟨hbytes, hlength⟩ := alike_iff.1 h
  unfold padded
  rw [hlength]
  refine Buffer.alike_truncate ?_ _
  split
  · exact hbytes
  · exact Buffer.alike_modifyLast hbytes _

theorem alike_clearedPast {a b : Buffer UInt8 1} (h : a ≈ b) (n : Nat) :
    clearedPast a n ≈ clearedPast b n := by
  unfold clearedPast
  split
  · exact h
  · exact Buffer.alike_modifyLast h _

theorem steady_appendMany (bit : Bool) (n : Nat) :
    Steady fun (b : Bitmap) m => b.appendMany bit n m := by
  intro a b h m₁ m₂
  obtain ⟨hbytes, hlength⟩ := alike_iff.1 h
  have hsize : Size.add? a.length n = Size.add? b.length n := by rw [hlength]
  have hitems := Buffer.alike_iff.1 hbytes
  dsimp only [appendMany]
  rw [hsize]
  cases Size.add? b.length n with
  | none => exact Outcome.agree_stopped
  | some length =>
    have hcount : Steady fun (b : Bitmap) m => .done { b with length } m :=
      steady_done fun a b h => alike_iff.2 ⟨(alike_iff.1 h).1, rfl⟩
    cases bit with
    | true =>
      have hclear : Steady fun (b : Bitmap) m =>
          .done { bytes := clearedPast b.bytes length, length } m :=
        steady_done fun a b h => alike_iff.2 ⟨alike_clearedPast (alike_iff.1 h).1 length, rfl⟩
      have hfill := Buffer.steady_resize (bytesFor length) 0xff _ _ (alike_padded h) m₁ m₂
      exact (hfill.map fun _ _ hab => bytesPlace.alike_set h hab).andThen hclear
    | false =>
      dsimp only
      rw [hitems]
      split
      · rename_i hbit
        exact Bool.noConfusion hbit
      · split
        · exact hcount a b h m₁ m₂
        · exact ((Buffer.steady_resize _ 0).on bytesPlace).andThen hcount a b h m₁ m₂

/-- A new bitmap is empty. -/
theorem alike_new {capacity : Nat} {m m' : Ledger} {b : Bitmap}
    (h : Bitmap.new capacity m = (.ok b, m')) : b ≈ {} := by
  rw [new_eq] at h
  obtain ⟨bytes, hbytes, rfl⟩ := Made.eq_ok_of_map h
  exact alike_iff.2 ⟨Buffer.alike_new hbytes, rfl⟩

end Bitmap

namespace Validity

instance : Bare Validity where
  bare
    | allValid slots _ => allValid slots 0
    | mask bits => mask (Bare.bare bits)

/-- Without a mask only the count of slots matters. -/
theorem alike_allValid (slots planned planned' : Nat) :
    allValid slots planned ≈ allValid slots planned' := rfl

theorem alike_mask {a b : Bitmap} (h : a ≈ b) : mask a ≈ mask b := congrArg mask h

/-- Validities are alike if both have no mask and as many slots, or alike masks. -/
inductive Pair : Validity → Validity → Prop where
  | allValid (slots planned planned' : Nat) :
      Pair (.allValid slots planned) (.allValid slots planned')
  | mask {a b : Bitmap} : a ≈ b → Pair (.mask a) (.mask b)

theorem pair_of_alike : {a b : Validity} → a ≈ b → Pair a b
  | .allValid slots planned, .allValid slots' planned', h => by
    obtain ⟨rfl, -⟩ := allValid.inj h
    exact .allValid slots planned planned'
  | .mask _, .mask _, h => .mask (mask.inj h)
  | .allValid .., .mask _, h => nomatch h
  | .mask _, .allValid .., h => nomatch h

theorem length_eq {a b : Validity} (h : a ≈ b) : a.length = b.length := by
  cases pair_of_alike h with
  | allValid => rfl
  | mask hbits => exact Bitmap.length_eq hbits

theorem byteLength_eq {a b : Validity} (h : a ≈ b) : a.byteLength = b.byteLength := by
  cases pair_of_alike h with
  | allValid => rfl
  | mask hbits => exact Bitmap.byteLength_eq hbits

theorem idle_reserve (n : Nat) : Idle fun (v : Validity) m => v.reserve n m := by
  intro v m
  dsimp only [reserve]
  cases Size.add? v.length n with
  | none => exact Setoid.refl v
  | some total =>
    cases v with
    | allValid slots planned => exact alike_allValid slots _ _
    | mask bits => exact alike_mask (Bitmap.idle_reserve n bits m)

/-- The mask that is made does not depend on what was planned. -/
theorem agree_firstNulls (slots planned planned' n : Nat) (m₁ m₂ : Ledger) :
    (firstNulls slots planned n m₁).Agree (firstNulls slots planned' n m₂) := by
  unfold firstNulls
  cases Size.add? slots n with
  | none => exact Outcome.agree_stopped
  | some total =>
    have hreserve := fun planned => (Bitmap.idle_reserve (max planned total)) {}
    have hstart : (Bitmap.reserve {} (max planned total) m₁).Agree
        (Bitmap.reserve {} (max planned' total) m₂) :=
      fun _ _ => (hreserve planned m₁).trans (hreserve planned' m₂).symm
    have hmade := (hstart.andThen (Bitmap.steady_appendMany true slots)).andThen
      (Bitmap.steady_appendMany false n)
    dsimp only at hmade ⊢
    split
    · split
      · exact hmade.map fun _ _ => alike_mask
      · exact fun _ h => nomatch h
    · exact Outcome.agree_stopped

theorem steady_append (valid : Bool) : Steady fun (v : Validity) m => v.append valid m := by
  intro a b h m₁ m₂
  cases pair_of_alike h with
  | mask hbits => exact (Bitmap.steady_append valid _ _ hbits m₁ m₂).map fun _ _ => alike_mask
  | allValid slots planned planned' =>
    cases valid with
    | true =>
      dsimp only [append]
      cases Size.add? slots 1 with
      | none => exact Outcome.agree_stopped
      | some total => exact Outcome.agree_done (alike_allValid _ _ _)
    | false => exact agree_firstNulls slots planned planned' 1 m₁ m₂

/-- Validities with the same slots are finished with the same mask, or both without one. -/
theorem finish_eq {a b : Validity} (h : a ≈ b) : a.finish = b.finish := by
  cases pair_of_alike h with
  | allValid => rfl
  | mask hbits =>
    rw [finish, finish, Bitmap.bits_eq hbits]

end Validity

namespace Offsets

instance : Bare Offsets where
  bare o := { o with ends := Bare.bare o.ends }

/-- Offsets are alike if they have the same ends. -/
theorem alike_iff {a b : Offsets} : a ≈ b ↔ a.ends ≈ b.ends ∧ a.last = b.last :=
  Iff.of_eq (Offsets.mk.injEq ..)

/-- The ends of offsets. -/
def endsPlace : Place (Buffer Int 4) Offsets where
  get o := o.ends
  set o ends := { o with ends }
  set_get _ := rfl
  alike_get h := (alike_iff.1 h).1
  alike_set h hends := alike_iff.2 ⟨hends, (alike_iff.1 h).2⟩

theorem idle_reserve (n : Nat) : Idle fun (o : Offsets) m => o.reserve n m := by
  intro o m
  dsimp only [reserve]
  cases Size.mul? n 4 with
  | none => exact Setoid.refl o
  | some bytes => exact (Buffer.idle_reserve bytes).on endsPlace o m

theorem steady_append (stop : Nat) : Steady fun (o : Offsets) m => o.append stop m := by
  intro a b h m₁ m₂
  have hlast := (alike_iff.1 h).2
  have hpush : Steady fun (o : Offsets) m =>
      ((o.ends.push stop m).map fun ends => { o with ends }).andThen fun o m =>
        .done { o with last := stop } m :=
    ((Buffer.steady_append [(stop : Int)]).on endsPlace).andThen
      (steady_done fun a b h => alike_iff.2 ⟨(alike_iff.1 h).1, rfl⟩)
  dsimp only [append]
  by_cases hlarge : maxOffset < stop
  · rw [if_pos hlarge]
    exact Outcome.agree_stopped
  · by_cases hdescends : (stop : Int) < b.last
    · rw [if_neg hlarge, if_pos (hlast ▸ hdescends)]
      exact Outcome.agree_stopped
    · rw [if_neg hlarge, if_neg hlarge, if_neg (hlast ▸ hdescends), if_neg hdescends]
      exact hpush a b h m₁ m₂

theorem steady_appendLength (n : Nat) : Steady fun (o : Offsets) m => o.appendLength n m := by
  intro a b h
  have hlast : a.lastEnd = b.lastEnd := by rw [lastEnd, lastEnd, (alike_iff.1 h).2]
  dsimp only [appendLength]
  rw [hlast]
  cases Size.add? b.lastEnd n with
  | none => exact fun _ _ => Outcome.agree_stopped
  | some stop => exact steady_append stop a b h

/-- The offset zero. -/
def blank : Offsets := { ends := { items := [0] } }

/-- New offsets have the offset zero only. -/
theorem alike_new {capacity : Nat} {m m' : Ledger} {o : Offsets}
    (h : Offsets.new capacity m = (.ok o, m')) : o ≈ blank := by
  rw [new_eq] at h
  obtain ⟨ends, m₁, hends, hpush⟩ := Made.eq_ok_of_chain h
  obtain ⟨hok, hmade⟩ := Outcome.eq_ok_of_make hpush
  obtain rfl := Made.ok_inj hmade
  refine alike_iff.2 ⟨Buffer.alike_iff.2 ?_, rfl⟩
  rw [Buffer.push, Buffer.items_append hok, (Buffer.bounded_new hends).2]
  rfl

end Offsets

namespace BooleanWriter

instance : Bare BooleanWriter where
  bare w := ⟨Bare.bare w.values, Bare.bare w.validity⟩

theorem separates_split : split.Separates :=
  fun _ _ => Iff.of_eq (BooleanWriter.mk.injEq ..)

theorem steady_append (value : Option Bool) :
    Steady fun (w : BooleanWriter) m => w.append value m :=
  ((Bitmap.steady_append (value.getD false)).on separates_split.firstPlace).andThen
    ((Validity.steady_append value.isSome).on separates_split.secondPlace)

theorem idle_reserve (n : Nat) : Idle fun (w : BooleanWriter) m => w.reserve n m :=
  ((Validity.idle_reserve n).on separates_split.secondPlace).andThen
    ((Bitmap.idle_reserve n).on separates_split.firstPlace)

theorem byteLength_eq {v w : BooleanWriter} (h : v ≈ w) : v.byteLength = w.byteLength := by
  obtain ⟨hvalues, hvalidity⟩ := (separates_split v w).1 h
  exact congrArg₂ (· + ·) (Validity.byteLength_eq hvalidity) (Bitmap.byteLength_eq hvalues)

/-- Writers that differ in nothing but their room are finished with the same chunk. -/
theorem finish_eq {v w : BooleanWriter} (h : v ≈ w) : v.finish = w.finish := by
  obtain ⟨hvalues, hvalidity⟩ := (separates_split v w).1 h
  have hbits : v.values.bits = w.values.bits := Bitmap.bits_eq hvalues
  have hmask : v.validity.finish = w.validity.finish := Validity.finish_eq hvalidity
  rw [finish, finish, hbits, hmask]

/-- A new writer is empty. -/
theorem alike_new {capacity : Nat} {m m' : Ledger} {w : BooleanWriter}
    (h : BooleanWriter.new capacity m = (.ok w, m')) : w ≈ { validity := .new 0 } := by
  rw [new_eq] at h
  obtain ⟨values, hvalues, rfl⟩ := Made.eq_ok_of_map h
  exact separates_split.alike_whole (Bitmap.alike_new hvalues) (Validity.alike_allValid ..)

end BooleanWriter

namespace NumberWriter

variable {kind : NumberType}

instance : Bare (NumberWriter kind) where
  bare w := ⟨Bare.bare w.values, Bare.bare w.validity⟩

theorem separates_split : (@split kind).Separates :=
  fun _ _ => Iff.of_eq (NumberWriter.mk.injEq ..)

theorem steady_append (value : Option kind.Carrier) :
    Steady fun (w : NumberWriter kind) m => w.append value m :=
  ((Buffer.steady_append [value.getD 0]).on separates_split.firstPlace).andThen
    ((Validity.steady_append value.isSome).on separates_split.secondPlace)

theorem idle_reserve (n : Nat) : Idle fun (w : NumberWriter kind) m => w.reserve n m := by
  refine ((Validity.idle_reserve n).on separates_split.secondPlace).andThen ?_
  cases Size.mul? n kind.width with
  | none => exact fun w _ => Setoid.refl w
  | some bytes => exact (Buffer.idle_reserve bytes).on separates_split.firstPlace

theorem byteLength_eq {v w : NumberWriter kind} (h : v ≈ w) : v.byteLength = w.byteLength := by
  obtain ⟨hvalues, hvalidity⟩ := (separates_split v w).1 h
  exact congrArg₂ (· + ·) (Validity.byteLength_eq hvalidity) (Buffer.byteLength_eq hvalues)

/-- Writers that differ in nothing but their room are finished with the same chunk. -/
theorem finish_eq {v w : NumberWriter kind} (h : v ≈ w) : v.finish = w.finish := by
  obtain ⟨hvalues, hvalidity⟩ := (separates_split v w).1 h
  have hitems : v.values.items = w.values.items := Buffer.alike_iff.1 hvalues
  have hmask : v.validity.finish = w.validity.finish := Validity.finish_eq hvalidity
  rw [finish, finish, hitems, hmask]

/-- A new writer is empty. -/
theorem alike_new {capacity : Nat} {m m' : Ledger} {w : NumberWriter kind}
    (h : NumberWriter.new kind capacity m = (.ok w, m')) : w ≈ { validity := .new 0 } := by
  rw [new_eq] at h
  obtain ⟨values, hvalues, rfl⟩ := Made.eq_ok_of_map h
  exact separates_split.alike_whole (Buffer.alike_new hvalues) (Validity.alike_allValid ..)

end NumberWriter

namespace Slots

instance : Bare Slots where
  bare s := ⟨Bare.bare s.validity, Bare.bare s.offsets⟩

theorem separates_split : split.Separates :=
  fun _ _ => Iff.of_eq (Slots.mk.injEq ..)

theorem steady_close (stop : Nat) (valid : Bool) :
    Steady fun (s : Slots) m => s.close stop valid m :=
  ((Offsets.steady_append stop).on separates_split.secondPlace).andThen
    ((Validity.steady_append valid).on separates_split.firstPlace)

theorem steady_closeEmpty (valid : Bool) : Steady fun (s : Slots) m => s.closeEmpty valid m :=
  ((Offsets.steady_appendLength 0).on separates_split.secondPlace).andThen
    ((Validity.steady_append valid).on separates_split.firstPlace)

theorem idle_reserve (n : Nat) : Idle fun (s : Slots) m => s.reserve n m :=
  ((Validity.idle_reserve n).on separates_split.firstPlace).andThen
    ((Offsets.idle_reserve n).on separates_split.secondPlace)

/-- Slots that differ in nothing but their room are equally many. -/
theorem length_eq {s t : Slots} (h : s ≈ t) : s.length = t.length :=
  Validity.length_eq ((separates_split s t).1 h).1

theorem byteLength_eq {s t : Slots} (h : s ≈ t) : s.byteLength = t.byteLength := by
  obtain ⟨hvalidity, hoffsets⟩ := (separates_split s t).1 h
  exact congrArg₂ (· + ·) (Validity.byteLength_eq hvalidity)
    (Buffer.byteLength_eq (Offsets.alike_iff.1 hoffsets).1)

/-- Alike slots have the same ends and the same mask. -/
theorem parts_eq {s t : Slots} (h : s ≈ t) :
    s.offsets.ends.items = t.offsets.ends.items ∧ s.validity.finish = t.validity.finish := by
  obtain ⟨hvalidity, hoffsets⟩ := (separates_split s t).1 h
  exact ⟨Buffer.alike_iff.1 (Offsets.alike_iff.1 hoffsets).1, Validity.finish_eq hvalidity⟩

/-- No slots. -/
def blank : Slots := { validity := .new 0, offsets := .blank }

/-- New slots are none. -/
theorem alike_new {capacity : Nat} {m m' : Ledger} {s : Slots}
    (h : Slots.new capacity m = (.ok s, m')) : s ≈ blank := by
  rw [new_eq] at h
  obtain ⟨offsets, hoffsets, rfl⟩ := Made.eq_ok_of_map h
  exact separates_split.alike_whole (Validity.alike_allValid ..) (Offsets.alike_new hoffsets)

end Slots

namespace BytesWriter

instance : Bare BytesWriter where
  bare w := ⟨Bare.bare w.slots, Bare.bare w.content⟩

theorem separates_split : split.Separates :=
  fun _ _ => Iff.of_eq (BytesWriter.mk.injEq ..)

/-- Writers of strings that differ in nothing but their room have the same content. -/
theorem content_eq {v w : BytesWriter} (h : v ≈ w) : v.content.items = w.content.items :=
  Buffer.alike_iff.1 ((separates_split v w).1 h).2

theorem byteLength_eq {v w : BytesWriter} (h : v ≈ w) : v.byteLength = w.byteLength := by
  obtain ⟨hslots, hcontent⟩ := (separates_split v w).1 h
  exact congrArg₂ (· + ·) (Slots.byteLength_eq hslots) (Buffer.byteLength_eq hcontent)

theorem steady_close (valid : Bool) : Steady fun (w : BytesWriter) m => w.close valid m := by
  intro v w h
  have hstop : v.content.byteLength = w.content.byteLength :=
    Buffer.byteLength_eq ((separates_split v w).1 h).2
  dsimp only [close]
  rw [hstop]
  exact (Slots.steady_close w.content.byteLength valid).on separates_split.firstPlace v w h

theorem steady_append (value : Option (List UInt8)) :
    Steady fun (w : BytesWriter) m => w.append value m := by
  cases value with
  | none => exact steady_close false
  | some bytes =>
    exact ((Buffer.steady_append bytes).on separates_split.secondPlace).andThen (steady_close true)

theorem idle_reserve (n : Nat) : Idle fun (w : BytesWriter) m => w.reserve n m :=
  (Slots.idle_reserve n).on separates_split.firstPlace

/-- Writers that differ in nothing but their room are finished with the same chunk. -/
theorem finish_eq {v w : BytesWriter} (h : v ≈ w) :
    v.finishBinary = w.finishBinary ∧ v.finishText = w.finishText := by
  have hslots : v.slots ≈ w.slots := ((separates_split v w).1 h).1
  obtain ⟨hends, hmask⟩ := Slots.parts_eq hslots
  rw [finishBinary, finishBinary, finishText, finishText, hends, hmask, content_eq h]
  exact ⟨rfl, rfl⟩

/-- A new writer is empty. -/
theorem alike_new {capacity bytes : Nat} {m m' : Ledger} {w : BytesWriter}
    (h : BytesWriter.new capacity bytes m = (.ok w, m')) : w ≈ { slots := .blank } := by
  rw [new_eq] at h
  obtain ⟨slots, _, hslots, hrest⟩ := Made.eq_ok_of_chain h
  obtain ⟨content, _, hcontent, hmade⟩ := Made.eq_ok_of_chain hrest
  obtain rfl := Made.ok_inj hmade
  exact separates_split.alike_whole (Slots.alike_new hslots) (Buffer.alike_new hcontent)

end BytesWriter

end Columnar
