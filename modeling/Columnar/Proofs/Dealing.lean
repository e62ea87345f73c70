import Columnar.Encoder
/-!
# Dealing with a ledger

Whatever needs memory deals with the ledger request by request: it asks for
some bytes, goes on if they are granted, and stops with the refusal if they are
not.  What it gives back it was granted before.  `Deal` is this shape, over all
ledgers at once, together with an account of the bytes: it starts with what is
held at first and ends with the room of what comes out.

An operation that has this shape can do nothing but deal, so all that follows
is shown once:

* `Deal.trail`: the requests leave a trail on which the bytes lent are always
  the bytes held, and a refusal is what is reported;
* `Deal.lent_add`: what is lent changes by what the result holds;
* `Deal.eq_of_sameLent`: only the limit and the bytes lent have a say in the
  result, not what was asked for before.
-/

namespace Columnar

/-- A request for memory with what was held when it was made and with its answer. -/
structure Request where
  /-- The bytes held when it is made. -/
  held : Nat
  /-- The bytes asked for. -/
  size : Nat
  /-- Nothing if they are granted. -/
  answer : Option Refusal
deriving DecidableEq, Repr

namespace Ledger

/-- What happens on a ledger on which `held` bytes are held: requests in their
order, with their answers, and bytes that are given back in between.  A granted
request adds to the bytes held, a refused one does not. -/
inductive Trail : Ledger → Nat → List Request → Ledger → Nat → Prop where
  | here {m : Ledger} {held : Nat} : Trail m held [] m held
  | granted {m m' : Ledger} {held held' n : Nat} {requests : List Request} :
      (m.ask n).1 = none → Trail (m.ask n).2 (held + n) requests m' held' →
      Trail m held (⟨held, n, none⟩ :: requests) m' held'
  | refused {m m' : Ledger} {held held' n : Nat} {refusal : Refusal} {requests : List Request} :
      (m.ask n).1 = some refusal → Trail (m.ask n).2 held requests m' held' →
      Trail m held (⟨held, n, some refusal⟩ :: requests) m' held'
  | gaveBack {m m' : Ledger} {held held' n : Nat} {requests : List Request} :
      Trail (m.giveBack n) held requests m' held' → Trail m (held + n) requests m' held'

/-- The answer that a limit gives to a request. -/
def answerFor (limit held n : Nat) : Option Refusal :=
  if held + n ≤ limit then none else some ⟨n, some (limit - held)⟩

/-- A ledger answers by its limit and the bytes lent. -/
theorem ask_eq_answerFor {m : Ledger} {limit held : Nat} (hlimit : m.limit = some limit)
    (hlent : m.lent = held) (n : Nat) : (m.ask n).1 = answerFor limit held n := by
  by_cases hfits : held + n ≤ limit
  · simp [ask, admits, answerFor, hlimit, hlent, hfits]
  · simp [ask, admits, answerFor, available, hlimit, hlent, hfits]

/-- A granted request lends out what was asked for. -/
theorem lent_ask_of_none {m : Ledger} {n : Nat} (h : (m.ask n).1 = none) :
    (m.ask n).2.lent = m.lent + n := by
  cases hadmits : m.admits n with
  | true => exact lent_ask_of_admits hadmits
  | false => simp [ask, hadmits] at h

/-- A request that is refused leaves what is lent as it was. -/
theorem lent_ask_of_some {m : Ledger} {n : Nat} {refusal : Refusal}
    (h : (m.ask n).1 = some refusal) : (m.ask n).2.lent = m.lent := by
  cases hadmits : m.admits n with
  | true => simp [ask, hadmits] at h
  | false => exact lent_ask_of_not_admits hadmits

/-- A request leaves the limit of the ledger as it was, whatever the answer. -/
@[simp] theorem limit_ask (m : Ledger) (n : Nat) : (m.ask n).2.limit = m.limit := by
  unfold ask
  split <;> rfl

/-- A request is recorded in the ledger first of all, whatever the answer. -/
@[simp] theorem requests_ask (m : Ledger) (n : Nat) :
    (m.ask n).2.requests = n :: m.requests := by
  unfold ask
  split <;> rfl

namespace Trail

variable {m m' : Ledger} {held held' : Nat} {requests : List Request}

/-- A trail of requests and one that starts where it ends make one trail. -/
theorem append {m'' : Ledger} {held'' : Nat} {more : List Request}
    (h : Trail m held requests m' held') (hmore : Trail m' held' more m'' held'') :
    Trail m held (requests ++ more) m'' held'' := by
  induction h with
  | here => exact hmore
  | granted hasked _ ih => exact .granted hasked (ih hmore)
  | refused hasked _ ih => exact .refused hasked (ih hmore)
  | gaveBack _ ih => exact .gaveBack (ih hmore)

/-- Along a trail the bytes lent stay the bytes held. -/
theorem lent_eq (h : Trail m held requests m' held') (hlent : m.lent = held) :
    m'.lent = held' := by
  induction h with
  | here => exact hlent
  | granted hasked _ ih => exact ih (by rw [lent_ask_of_none hasked, hlent])
  | refused hasked _ ih => exact ih (by rw [lent_ask_of_some hasked, hlent])
  | gaveBack _ ih => exact ih (by simp [giveBack, hlent])

/-- No request on a trail changes the limit of the ledger. -/
theorem limit_eq (h : Trail m held requests m' held') : m'.limit = m.limit := by
  induction h with
  | here => rfl
  | granted _ _ ih => exact ih.trans (limit_ask _ _)
  | refused _ _ ih => exact ih.trans (limit_ask _ _)
  | gaveBack _ ih => exact ih

/-- The ledger records the sizes of the requests, the latest first. -/
theorem requests_eq (h : Trail m held requests m' held') :
    m'.requests = (requests.map Request.size).reverse ++ m.requests := by
  induction h with
  | here => rfl
  | granted _ _ ih => simp [ih]
  | refused _ _ ih => simp [ih]
  | gaveBack _ ih => exact ih

/-- Under a limit no more than the limit is ever held. -/
theorem held_le {limit : Nat} (h : Trail m held requests m' held')
    (hlimit : m.limit = some limit) (hlent : m.lent = held) (hheld : held ≤ limit) :
    held' ≤ limit := by
  induction h with
  | here => exact hheld
  | @granted m _ held _ n _ hasked _ ih =>
    have hanswer := hasked.symm.trans (ask_eq_answerFor hlimit hlent n)
    have hfits : held + n ≤ limit := by
      by_cases hfits : held + n ≤ limit
      · exact hfits
      · simp [answerFor, hfits] at hanswer
    exact ih (by rw [limit_ask, hlimit]) (by rw [lent_ask_of_none hasked, hlent]) hfits
  | refused hasked _ ih =>
    exact ih (by rw [limit_ask, hlimit]) (by rw [lent_ask_of_some hasked, hlent]) hheld
  | gaveBack _ ih => exact ih hlimit (by simp [giveBack, hlent]) (by omega)

/-- Every request on the trail is answered by the limit and the bytes held when
it is made. -/
theorem answer_eq {limit : Nat} (h : Trail m held requests m' held')
    (hlimit : m.limit = some limit) (hlent : m.lent = held) :
    ∀ request ∈ requests, request.answer = answerFor limit request.held request.size := by
  induction h with
  | here => exact fun _ hnone => absurd hnone List.not_mem_nil
  | granted hasked _ ih =>
    refine List.forall_mem_cons.2 ⟨?_, ?_⟩
    · exact hasked.symm.trans (ask_eq_answerFor hlimit hlent _)
    · exact ih (by rw [limit_ask, hlimit]) (by rw [lent_ask_of_none hasked, hlent])
  | refused hasked _ ih =>
    refine List.forall_mem_cons.2 ⟨?_, ?_⟩
    · exact hasked.symm.trans (ask_eq_answerFor hlimit hlent _)
    · exact ih (by rw [limit_ask, hlimit]) (by rw [lent_ask_of_some hasked, hlent])
  | gaveBack _ ih => exact ih hlimit (by simp [giveBack, hlent])

end Trail

end Ledger

/-- The refusal that a fault reports if memory was lacking; other faults report none. -/
def Fault.refusal? : Fault → Option Refusal
  | outOfMemory refusal => some refusal
  | _ => none

/-- Storage that holds memory of the ledger: how many bytes it was granted and how many of them its
content takes. -/
class Holder (σ : Type) where
  /-- The bytes that it was granted and has not given back. -/
  room : σ → Nat
  /-- The bytes that its content takes. -/
  byteLength : σ → Nat
  /-- What every operation keeps, above all that the content fits the room. -/
  Bounded : σ → Prop
  byteLength_le {a : σ} : Bounded a → byteLength a ≤ room a

/-- What comes out of dealing with the ledger: how many bytes it still holds, and which refusal it
reports. -/
class Yield (ρ : Type) where
  /-- The bytes that are still held. -/
  room : ρ → Nat
  /-- The refusal that is reported. -/
  refusal? : ρ → Option Refusal

/-- An operation yields the value as it leaves it, with the fault. -/
instance {σ : Type} [Holder σ] : Yield (σ × Option Fault) where
  room result := Holder.room result.1
  refusal? result := result.2.bind Fault.refusal?

/-- A construction yields the value, or a fault and no value. -/
instance {σ : Type} [Holder σ] : Yield (Except Fault σ) where
  room
    | .ok value => Holder.room value
    | .error _ => 0
  refusal?
    | .ok _ => none
    | .error fault => fault.refusal?

/-- Encoding yields something finished, or a failure. -/
instance {α : Type} : Yield (Except Failure α) where
  room _ := 0
  refusal?
    | .error (.fault fault) => fault.refusal?
    | _ => none

/-- The result of an operation, apart from the ledger. -/
def Outcome.result {σ : Type} (o : Outcome σ) : (σ × Option Fault) × Ledger :=
  ((o.value, o.fault), o.ledger)

/-- Asks for `n` bytes, and goes on with the one or the other. -/
def Ledger.asking {ρ : Type} (n : Nat) (granted : Ledger → ρ × Ledger)
    (refused : Refusal → Ledger → ρ × Ledger) (m : Ledger) : ρ × Ledger :=
  match m.ask n with
  | (none, m) => granted m
  | (some refusal, m) => refused refusal m

/-- After a grant it goes on in the one way. -/
theorem Ledger.asking_of_none {ρ : Type} {n : Nat} {granted : Ledger → ρ × Ledger}
    {refused : Refusal → Ledger → ρ × Ledger} {m : Ledger} (h : (m.ask n).1 = none) :
    Ledger.asking n granted refused m = granted (m.ask n).2 := by
  unfold Ledger.asking
  split <;> simp_all

/-- After a refusal it goes on in the other. -/
theorem Ledger.asking_of_some {ρ : Type} {n : Nat} {granted : Ledger → ρ × Ledger}
    {refused : Refusal → Ledger → ρ × Ledger} {m : Ledger} {refusal : Refusal}
    (h : (m.ask n).1 = some refusal) :
    Ledger.asking n granted refused m = refused refusal (m.ask n).2 := by
  unfold Ledger.asking
  split <;> simp_all

section Deals

variable {ρ τ : Type} [Yield ρ] [Yield τ]

/-- Gives back all but the room of the result, and asks for nothing. -/
def Settles (P : ρ → Prop) (refusal : Option Refusal) (held : Nat) (f : Ledger → ρ × Ledger) :
    Prop :=
  ∃ result back, P result ∧ Yield.refusal? result = refusal ∧ held = Yield.room result + back ∧
    f = fun m => (result, m.giveBack back)

/-- Starts with `held` bytes, deals with the ledger and ends with a result that
has the property and holds what is left.  A request that is refused ends it. -/
inductive Deal (P : ρ → Prop) : Nat → (Ledger → ρ × Ledger) → Prop where
  /-- The result reports no refusal but that of a size that no memory can have. -/
  | ended {a : ρ} : P a → (∀ refusal ∈ Yield.refusal? a, refusal = .overflow) →
      Deal P (Yield.room a) fun m => (a, m)
  | gaveBack {held n : Nat} {next : Ledger → ρ × Ledger} : Deal P held next →
      Deal P (held + n) fun m => next (m.giveBack n)
  | asked {held n : Nat} {granted : Ledger → ρ × Ledger} (refused : Refusal → Ledger → ρ × Ledger) :
      Deal P (held + n) granted → (∀ refusal, Settles P (some refusal) held (refused refusal)) →
      Deal P held (Ledger.asking n granted refused)

/-- Settling is a deal, unless a refusal is reported that no one gave. -/
theorem Settles.deal {P : ρ → Prop} {refusal : Option Refusal} {held : Nat}
    {f : Ledger → ρ × Ledger} (h : Settles P refusal held f)
    (hquiet : ∀ r ∈ refusal, r = .overflow) : Deal P held f := by
  obtain ⟨result, back, hP, hrefusal, rfl, rfl⟩ := h
  exact .gaveBack (.ended hP (by rwa [hrefusal]))

/-- What is settled meets any weaker property. -/
theorem Settles.imp {P Q : ρ → Prop} {refusal : Option Refusal} {held : Nat}
    {f : Ledger → ρ × Ledger} (h : Settles P refusal held f) (hPQ : ∀ a, P a → Q a) :
    Settles Q refusal held f := by
  obtain ⟨result, back, hP, hrest⟩ := h
  exact ⟨result, back, hPQ _ hP, hrest⟩

namespace Deal

variable {P : ρ → Prop} {Q : τ → Prop} {held : Nat} {f : Ledger → ρ × Ledger}

/-- A deal over the same functions. -/
theorem congr {g : Ledger → ρ × Ledger} (h : Deal P held f) (hfg : ∀ m, g m = f m) :
    Deal P held g := by
  rwa [show g = f from funext hfg]

/-- The result meets any weaker property. -/
theorem imp {P' : ρ → Prop} (h : Deal P held f) (hP : ∀ a, P a → P' a) : Deal P' held f := by
  induction h with
  | ended ha hquiet => exact .ended (hP _ ha) hquiet
  | gaveBack _ ih => exact .gaveBack ih
  | asked refused _ hrefused ih => exact .asked refused ih fun refusal => (hrefused refusal).imp hP

/-- Going on with the result is a deal, if a refusal only makes it give back
and report.  What is held elsewhere, `rest`, is there to go on with. -/
theorem bind {k : ρ → Ledger → τ × Ledger} (rest : Nat) (h : Deal P held f)
    (hk : ∀ a, P a → Yield.refusal? a = none → Deal Q (Yield.room a + rest) (k a))
    (hstop : ∀ a refusal, P a → Yield.refusal? a = some refusal →
      Settles Q (some refusal) (Yield.room a + rest) (k a)) :
    Deal Q (held + rest) fun m => k (f m).1 (f m).2 := by
  induction h with
  | @ended result hresult hquiet =>
    cases hrefusal : Yield.refusal? result with
    | none => exact hk result hresult hrefusal
    | some refusal =>
      have hover := hquiet refusal hrefusal
      exact (hstop result refusal hresult hrefusal).deal fun _ h => (Option.some.inj h) ▸ hover
  | gaveBack _ ih =>
    rw [Nat.add_right_comm]
    exact .gaveBack ih
  | @asked held n granted refused _ hrefused ih =>
    rw [Nat.add_right_comm] at ih
    -- A refusal settles the first deal; what `k` then gives back joins what that gave back.
    refine Deal.congr (.asked (fun refusal m => k (refused refusal m).1 (refused refusal m).2) ih
      fun refusal => ?_) ?_
    · obtain ⟨result, back, hresult, hrefusal, rfl, heq⟩ := hrefused refusal
      obtain ⟨final, more, hfinal, hreported, hroom, hk⟩ :=
        hstop result refusal hresult hrefusal
      refine ⟨final, back + more, hfinal, hreported, by omega, ?_⟩
      funext m
      rw [heq, hk]
      show (final, (m.giveBack back).giveBack more) = _
      rw [Ledger.giveBack_giveBack]
    · intro m
      unfold Ledger.asking
      cases m.ask n with
      | mk answer m' => cases answer <;> rfl

/-- The result is put into a whole, next to what is held elsewhere. -/
theorem map (h : Deal P held f) (rest : Nat) (whole : ρ → τ)
    (hroom : ∀ a, P a → Yield.room (whole a) = Yield.room a + rest)
    (hrefusal : ∀ a, Yield.refusal? (whole a) = Yield.refusal? a)
    (hwhole : ∀ a, P a → Q (whole a)) :
    Deal Q (held + rest) fun m => (whole (f m).1, (f m).2) := by
  refine h.bind (k := fun a m => (whole a, m)) rest ?_ ?_
  · intro a ha hnone
    rw [← hroom a ha]
    exact .ended (hwhole a ha) (by rw [hrefusal, hnone]; exact nofun)
  · intro a refusal ha hreported
    exact ⟨whole a, 0, hwhole a ha, (hrefusal a).trans hreported, (hroom a ha).symm, rfl⟩

/-- Every deal leaves a trail: it starts with what is held here and by others,
and ends with what the result holds and what others hold.  A refusal on the
trail is what is reported, and a refusal that is reported is on the trail or
that of a size that no memory can have. -/
theorem trail (h : Deal P held f) (others : Nat) (m : Ledger) :
    P (f m).1 ∧ ∃ requests,
      Ledger.Trail m (others + held) requests (f m).2 (others + Yield.room (f m).1) ∧
      (∀ request ∈ requests, ∀ refusal ∈ request.answer,
        Yield.refusal? (f m).1 = some refusal) ∧
      ∀ refusal ∈ Yield.refusal? (f m).1, refusal = .overflow ∨
        ∃ request ∈ requests, request.answer = some refusal := by
  induction h generalizing m with
  | ended hresult hquiet =>
    exact ⟨hresult, [], .here, nofun, fun refusal h => .inl (hquiet refusal h)⟩
  | @gaveBack held n next _ ih =>
    obtain ⟨hP, requests, htrail, hrefusals⟩ := ih (m.giveBack n)
    refine ⟨hP, requests, ?_, hrefusals⟩
    rw [← Nat.add_assoc]
    exact .gaveBack htrail
  | @asked held n granted refused _ hrefused ih =>
    cases hasked : (m.ask n).1 with
    | none =>
      obtain ⟨hP, requests, htrail, hon, hreported⟩ := ih (m.ask n).2
      rw [← Nat.add_assoc] at htrail
      rw [Ledger.asking_of_none hasked]
      refine ⟨hP, _, .granted hasked htrail, List.forall_mem_cons.2 ⟨nofun, hon⟩, ?_⟩
      intro refusal hrefusal
      refine (hreported refusal hrefusal).imp_right ?_
      rintro ⟨request, hmem, hanswer⟩
      exact ⟨request, List.mem_cons_of_mem _ hmem, hanswer⟩
    | some refusal =>
      obtain ⟨result, back, hP, hreport, rfl, hsettle⟩ := hrefused refusal
      rw [Ledger.asking_of_some hasked, hsettle]
      refine ⟨hP, [⟨others + (Yield.room result + back), n, some refusal⟩], ?_, ?_, ?_⟩
      · refine .refused hasked ?_
        rw [← Nat.add_assoc]
        exact .gaveBack .here
      · rintro request hmem other hother
        obtain rfl := List.mem_singleton.1 hmem
        obtain rfl := Option.some.inj hother
        exact hreport
      · intro other hother
        obtain rfl := Option.some.inj (hreport.symm.trans hother)
        exact .inr ⟨_, List.mem_singleton_self _, rfl⟩

/-- What is lent changes by what the result holds, and the limit stays. -/
theorem lent_add (h : Deal P held f) {m : Ledger} (hheld : held ≤ m.lent) :
    (f m).2.lent + held = m.lent + Yield.room (f m).1 ∧ (f m).2.limit = m.limit := by
  obtain ⟨-, requests, htrail, -⟩ := h.trail (m.lent - held) m
  have hlent := htrail.lent_eq (by omega)
  exact ⟨by omega, htrail.limit_eq⟩

end Deal

/-- The ledgers have the same limit and as much lent, whatever was asked for
before. -/
structure Ledger.SameLent (m₁ m₂ : Ledger) : Prop where
  limit : m₁.limit = m₂.limit
  lent : m₁.lent = m₂.lent

@[refl] theorem Ledger.SameLent.refl (m : Ledger) : m.SameLent m :=
  ⟨rfl, rfl⟩

theorem Ledger.SameLent.symm {m₁ m₂ : Ledger} (h : m₁.SameLent m₂) : m₂.SameLent m₁ :=
  ⟨h.limit.symm, h.lent.symm⟩

theorem Ledger.SameLent.trans {m₁ m₂ m₃ : Ledger} (h : m₁.SameLent m₂) (h' : m₂.SameLent m₃) :
    m₁.SameLent m₃ :=
  ⟨h.limit.trans h'.limit, h.lent.trans h'.lent⟩

/-- Ledgers with as much lent under the same limit answer alike. -/
theorem Ledger.SameLent.ask {m₁ m₂ : Ledger} (h : m₁.SameLent m₂) (n : Nat) :
    (m₁.ask n).1 = (m₂.ask n).1 ∧ (m₁.ask n).2.SameLent (m₂.ask n).2 := by
  have hadmits : m₁.admits n = m₂.admits n := by simp [admits, h.limit, h.lent]
  have havailable : m₁.available = m₂.available := by simp [available, h.limit, h.lent]
  unfold Ledger.ask
  rw [hadmits, havailable]
  cases m₂.admits n with
  | true => exact ⟨rfl, h.limit, congrArg (· + n) h.lent⟩
  | false => exact ⟨rfl, h.limit, h.lent⟩

/-- They do so after the same bytes came back. -/
theorem Ledger.SameLent.giveBack {m₁ m₂ : Ledger} (h : m₁.SameLent m₂) (n : Nat) :
    (m₁.giveBack n).SameLent (m₂.giveBack n) :=
  ⟨h.limit, congrArg (· - n) h.lent⟩

/-- A deal comes to the same end on ledgers with as much lent under the same
limit. -/
theorem Deal.eq_of_sameLent {P : ρ → Prop} {held : Nat} {f : Ledger → ρ × Ledger}
    (h : Deal P held f) {m₁ m₂ : Ledger} (hm : m₁.SameLent m₂) :
    (f m₁).1 = (f m₂).1 ∧ (f m₁).2.SameLent (f m₂).2 := by
  induction h generalizing m₁ m₂ with
  | ended => exact ⟨rfl, hm⟩
  | gaveBack _ ih => exact ih (hm.giveBack _)
  | @asked held n granted refused _ hrefused ih =>
    obtain ⟨hanswer, hafter⟩ := hm.ask n
    unfold Ledger.asking
    cases hasked₁ : m₁.ask n with
    | mk answer₁ m₁' =>
      cases hasked₂ : m₂.ask n with
      | mk answer₂ m₂' =>
        rw [hasked₁, hasked₂] at hanswer hafter
        dsimp only at hanswer hafter
        subst hanswer
        cases answer₁ with
        | none => exact ih hafter
        | some refusal =>
          obtain ⟨result, back, -, -, -, hsettle⟩ := hrefused refusal
          dsimp only
          rw [hsettle]
          exact ⟨rfl, hafter.giveBack back⟩

end Deals

section Operations

variable {σ τ : Type} [Holder σ] [Holder τ]

/-- A fault that reports no refusal but that of a size that no memory can
have. -/
def Fault.Quiet (fault : Fault) : Prop := ∀ refusal ∈ fault.refusal?, refusal = .overflow

theorem Fault.quiet_overflow : (Fault.outOfMemory .overflow).Quiet :=
  fun _ h => (Option.some.inj h).symm

theorem Fault.Quiet.of_none {fault : Fault} (h : fault.refusal? = none) : fault.Quiet :=
  fun _ hrefusal => absurd (hrefusal.symm.trans h) nofun

/-- Doing nothing is a deal: it asks for nothing and holds what was held. -/
theorem Deal.done {P : σ × Option Fault → Prop} {a : σ} (h : P (a, none)) :
    Deal P (Holder.room a) fun m => (Outcome.done a m).result :=
  .ended h nofun

/-- Stopping before anything was asked for is a deal, if the fault is one that the ledger has no
part in. -/
theorem Deal.stopped {P : σ × Option Fault → Prop} {a : σ} {fault : Fault}
    (h : P (a, some fault)) (hquiet : fault.Quiet) :
    Deal P (Holder.room a) fun m => (Outcome.stopped a m fault).result :=
  .ended h hquiet

/-- Stopping after some bytes are given back settles. -/
theorem Settles.stopped {P : σ × Option Fault → Prop} {a : σ} {fault : Fault}
    (h : P (a, some fault)) (back : Nat) :
    Settles P fault.refusal? (Holder.room a + back)
      fun m => (Outcome.stopped a (m.giveBack back) fault).result :=
  ⟨(a, some fault), back, h, rfl, rfl, rfl⟩

/-- Going on after an operation is a deal, if a fault only makes it give back and
report. -/
theorem Deal.elim {ρ : Type} [Yield ρ] {P : σ × Option Fault → Prop} {Q : ρ → Prop} {held : Nat}
    {first : Ledger → Outcome σ} (h : Deal P held fun m => (first m).result) (rest : Nat)
    {next : σ → Ledger → ρ × Ledger} {stop : σ → Ledger → Fault → ρ × Ledger}
    (hnext : ∀ a, P (a, none) → Deal Q (Holder.room a + rest) (next a))
    (hstop : ∀ a fault, P (a, some fault) →
      Settles Q fault.refusal? (Holder.room a + rest) fun m => stop a m fault) :
    Deal Q (held + rest) fun m => (first m).elim next stop := by
  refine h.bind (k := fun r m => Outcome.elim ⟨r.1, m, r.2⟩ next stop) rest ?_ ?_
  · rintro ⟨a, _ | fault⟩ ha hquiet
    · exact hnext a ha
    · exact (hstop a fault ha).deal (Fault.Quiet.of_none hquiet)
  · rintro ⟨a, _ | fault⟩ refusal ha hreported
    · exact absurd hreported nofun
    · exact (show fault.refusal? = some refusal from hreported) ▸ hstop a fault ha

/-- Going on with another operation is a deal, if a fault only makes it give back
and stop. -/
theorem Deal.next {P : σ × Option Fault → Prop} {Q : τ × Option Fault → Prop} {held : Nat}
    {first : Ledger → Outcome σ} (h : Deal P held fun m => (first m).result) (rest : Nat)
    {next : σ → Ledger → Outcome τ} {stop : σ → Ledger → Fault → Outcome τ}
    (hnext : ∀ a, P (a, none) → Deal Q (Holder.room a + rest) fun m => (next a m).result)
    (hstop : ∀ a fault, P (a, some fault) →
      Settles Q fault.refusal? (Holder.room a + rest) fun m => (stop a m fault).result) :
    Deal Q (held + rest) fun m => ((first m).elim next stop).result := by
  refine (h.elim rest hnext hstop).congr fun m => ?_
  rcases first m with ⟨a, m', _ | fault⟩ <;> rfl

/-- Operations that are deals are one deal when the second goes on where the first came to its end.
-/
theorem Deal.andThen {P Q : σ × Option Fault → Prop} {held : Nat} {first : Ledger → Outcome σ}
    (h : Deal P held fun m => (first m).result) (second : σ → Ledger → Outcome σ)
    (hnext : ∀ a, P (a, none) → Deal Q (Holder.room a) fun m => (second a m).result)
    (hstop : ∀ a fault, P (a, some fault) → Q (a, some fault)) :
    Deal Q held fun m => ((first m).andThen second).result := by
  simp only [Outcome.andThen_eq_elim]
  exact h.next 0 hnext fun a fault ha => .stopped (hstop a fault ha) 0

/-- A list of operations that are deals is one deal when they run one after the other, up to the
first that stops. -/
theorem Deal.foldl {P : σ × Option Fault → Prop} {held : Nat} {first : Ledger → Outcome σ}
    (h : Deal P held fun m => (first m).result) (ops : List (σ → Ledger → Outcome σ))
    (hops : ∀ op ∈ ops, ∀ a, P (a, none) → Deal P (Holder.room a) fun m => (op a m).result) :
    Deal P held fun m => (ops.foldl (fun o op => o.andThen op) (first m)).result := by
  induction ops generalizing first with
  | nil => exact h
  | cons op ops ih =>
    refine ih (h.andThen op (hops op List.mem_cons_self) fun _ _ h => h) ?_
    exact fun other hother => hops other (List.mem_cons_of_mem op hother)

/-- An operation on a part leaves the rest of the whole alone. -/
theorem Deal.part {P : σ × Option Fault → Prop} {Q : τ × Option Fault → Prop} {held : Nat}
    {op : Ledger → Outcome σ} (h : Deal P held fun m => (op m).result) (rest : Nat) (whole : σ → τ)
    (hroom : ∀ a, Holder.room (whole a) = Holder.room a + rest)
    (hwhole : ∀ a fault, P (a, fault) → Q (whole a, fault)) :
    Deal Q (held + rest) fun m => ((op m).map whole).result :=
  h.map rest (fun r => (whole r.1, r.2)) (fun r _ => hroom r.1) (fun _ => rfl)
    fun r hr => hwhole r.1 r.2 hr

/-- An operation that turns bounded storage into bounded storage, and does
nothing with the ledger but deal. -/
def Deals (op : σ → Ledger → Outcome σ) : Prop :=
  ∀ a, Holder.Bounded a →
    Deal (fun r => Holder.Bounded r.1) (Holder.room a) fun m => (op a m).result

namespace Deals

/-- Changing nothing. -/
theorem done : Deals fun (a : σ) m => .done a m :=
  fun _ ha => .done ha

/-- Stopping at once, for a reason that the ledger has no part in. -/
theorem stopped {fault : σ → Fault} (hquiet : ∀ a, (fault a).Quiet) :
    Deals fun a m => .stopped a m (fault a) :=
  fun a ha => .stopped ha (hquiet a)

/-- One operation after the other. -/
theorem andThen {first second : σ → Ledger → Outcome σ} (hfirst : Deals first)
    (hsecond : Deals second) : Deals fun a m => (first a m).andThen second :=
  fun a ha => (hfirst a ha).andThen second hsecond fun _ _ h => h

/-- A list of operations that are deals is one deal when they run one after the other, up to the
first that stops. -/
theorem foldl {ops : List (σ → Ledger → Outcome σ)} (hops : ∀ op ∈ ops, Deals op)
    {first : σ → Ledger → Outcome σ} (hfirst : Deals first) :
    Deals fun a m => ops.foldl (fun o op => o.andThen op) (first a m) :=
  fun a ha => (hfirst a ha).foldl ops hops

end Deals

/-- The memory of a whole is that of its two parts, and it is bounded where both
of them are. -/
structure Split.Divides {σ' : Type} [Holder σ'] (split : Split σ σ' τ) : Prop where
  room_eq (w : τ) : Holder.room w = Holder.room (split.first w) + Holder.room (split.second w)
  bounded_iff (w : τ) :
    Holder.Bounded w ↔ Holder.Bounded (split.first w) ∧ Holder.Bounded (split.second w)

namespace Split.Divides

variable {σ' : Type} [Holder σ'] {split : Split σ σ' τ}

/-- The room of parts that are put together. -/
theorem room_whole (h : split.Divides) (a : σ) (b : σ') :
    Holder.room (split.whole a b) = Holder.room a + Holder.room b := by
  rw [h.room_eq, split.first_whole, split.second_whole]

/-- Bounded parts that are put together are bounded. -/
theorem bounded_whole (h : split.Divides) {a : σ} {b : σ'} (ha : Holder.Bounded a)
    (hb : Holder.Bounded b) : Holder.Bounded (split.whole a b) := by
  rw [h.bounded_iff, split.first_whole, split.second_whole]
  exact ⟨ha, hb⟩

/-- An operation on the first part is one on the whole. -/
theorem onFirst (h : split.Divides) {op : σ → Ledger → Outcome σ} (hop : Deals op) :
    Deals fun w m => (op (split.first w) m).map fun a => split.whole a (split.second w) := by
  intro w hw
  obtain ⟨hfirst, hsecond⟩ := (h.bounded_iff w).1 hw
  rw [h.room_eq]
  exact (hop (split.first w) hfirst).part _ (fun a => split.whole a (split.second w))
    (fun a => h.room_whole a _) fun _ _ ha => h.bounded_whole ha hsecond

/-- An operation on the second part is one on the whole. -/
theorem onSecond (h : split.Divides) {op : σ' → Ledger → Outcome σ'} (hop : Deals op) :
    Deals fun w m => (op (split.second w) m).map fun b => split.whole (split.first w) b := by
  intro w hw
  obtain ⟨hfirst, hsecond⟩ := (h.bounded_iff w).1 hw
  rw [h.room_eq, Nat.add_comm]
  exact (hop (split.second w) hsecond).part _ (split.whole (split.first w))
    (fun b => (h.room_whole _ b).trans (Nat.add_comm ..)) fun _ _ hb => h.bounded_whole hfirst hb

end Split.Divides

/-- An operation on what is boxed up. -/
theorem Deals.boxed {op : σ → Ledger → Outcome σ} (h : Deals op) (box : σ → τ)
    (hroom : ∀ a, Holder.room (box a) = Holder.room a)
    (hbounded : ∀ a, Holder.Bounded a → Holder.Bounded (box a)) {a : σ} (ha : Holder.Bounded a) :
    Deal (fun r => Holder.Bounded r.1) (Holder.room (box a))
      fun m => ((op a m).map box).result := by
  rw [hroom]
  exact (h a ha).part 0 box hroom fun a _ ha => hbounded a ha

/-- One operation on each of two parts, the second only after success. -/
theorem Deal.both {σ' : Type} [Holder σ'] {held : Nat} {first : Ledger → Outcome σ}
    {second : Ledger → Outcome σ'} {b : σ'} (whole : σ → σ' → τ)
    (hfirst : Deal (fun r => Holder.Bounded r.1) held fun m => (first m).result)
    (hsecond : Deal (fun r => Holder.Bounded r.1) (Holder.room b) fun m => (second m).result)
    (hb : Holder.Bounded b)
    (hroom : ∀ a b, Holder.room (whole a b) = Holder.room a + Holder.room b)
    (hbounded : ∀ a b, Holder.Bounded a → Holder.Bounded b → Holder.Bounded (whole a b)) :
    Deal (fun r => Holder.Bounded r.1) (held + Holder.room b) fun m =>
      (Outcome.both whole b (first m) second).result := by
  simp only [Outcome.both_eq_elim]
  refine hfirst.next _ (fun a ha => ?_) fun a fault ha => ?_
  · rw [Nat.add_comm]
    refine hsecond.part _ (whole a) (fun b => ?_) fun b _ hb => hbounded a b ha hb
    rw [hroom, Nat.add_comm]
  · rw [← hroom]
    exact .stopped (hbounded a b ha hb) 0

/-- What holds of a value that was made. -/
def Makes (P : σ → Prop) : Except Fault σ → Prop
  | .ok a => P a
  | .error _ => True

/-- Having made something. -/
theorem Deal.made {P : σ → Prop} {a : σ} (h : P a) :
    Deal (Makes P) (Holder.room a) fun m => (.ok a, m) :=
  Deal.ended (a := Except.ok a) h nofun

/-- Failing without having asked. -/
theorem Deal.failed {P : σ → Prop} {fault : Fault} (hquiet : fault.Quiet) :
    Deal (Makes P) 0 fun m => (.error fault, m) :=
  Deal.ended (a := Except.error fault) trivial hquiet

/-- A construction by an operation is a deal. -/
theorem Deal.make {P : σ × Option Fault → Prop} {Q : τ → Prop} {held : Nat}
    {first : Ledger → Outcome σ} (h : Deal P held fun m => (first m).result)
    (second : σ → Ledger → Made τ)
    (hnext : ∀ a, P (a, none) → Deal (Makes Q) (Holder.room a) (second a)) :
    Deal (Makes Q) held fun m => (first m).make Holder.room second := by
  refine h.elim 0 hnext ?_
  exact fun a fault _ =>
    ⟨.error fault, Holder.room a, trivial, rfl, (Nat.zero_add _).symm, rfl⟩

/-- Going on with what was made is a deal, if a fault only makes it give back and
report. -/
theorem Deal.onMade {ρ : Type} [Yield ρ] {P : σ → Prop} {Q : ρ → Prop} {held : Nat}
    {first : Ledger → Made σ} (h : Deal (Makes P) held first) (rest : Nat)
    {next : σ → Ledger → ρ × Ledger} {stop : Fault → Ledger → ρ × Ledger}
    (hnext : ∀ a, P a → Deal Q (Holder.room a + rest) (next a))
    (hstop : ∀ fault : Fault, Settles Q fault.refusal? rest (stop fault)) :
    Deal Q (held + rest) fun m => (first m).elim next stop := by
  have hsettles : ∀ fault : Fault, Settles Q fault.refusal? (0 + rest) (stop fault) :=
    fun fault => (Nat.zero_add rest).symm ▸ hstop fault
  refine h.bind (k := fun r m => Made.elim (r, m) next stop) rest ?_ ?_
  · rintro (fault | a) ha hquiet
    · exact (hsettles fault).deal (Fault.Quiet.of_none hquiet)
    · exact hnext a ha
  · rintro (fault | a) refusal - hreported
    · exact (show fault.refusal? = some refusal from hreported) ▸ hsettles fault
    · exact absurd hreported nofun

/-- A construction that goes on with what was made is a deal. -/
theorem Deal.chain {P : σ → Prop} {Q : τ → Prop} {held : Nat} {first : Ledger → Made σ}
    (h : Deal (Makes P) held first) (rest : Nat) (second : σ → Ledger → Made τ)
    (hnext : ∀ a, P a → Deal (Makes Q) (Holder.room a + rest) (second a)) :
    Deal (Makes Q) (held + rest) fun m => (first m).chain rest second := by
  refine h.onMade rest hnext ?_
  exact fun fault => ⟨.error fault, rest, trivial, rfl, (Nat.zero_add _).symm, rfl⟩

/-- A part is made next to what is held already, and both are put together. -/
theorem Deal.beside {P : σ → Prop} {Q : τ → Prop} {first : Ledger → Made σ}
    (h : Deal (Makes P) 0 first) (rest : Nat) (whole : σ → τ)
    (hroom : ∀ a, Holder.room (whole a) = Holder.room a + rest)
    (hwhole : ∀ a, P a → Q (whole a)) :
    Deal (Makes Q) rest fun m => (first m).chain rest fun a m => (.ok (whole a), m) := by
  have hmade := h.chain (Q := Q) rest (fun a m => (.ok (whole a), m)) ?_
  · rwa [Nat.zero_add] at hmade
  · intro a ha
    rw [← hroom]
    exact Deal.made (hwhole a ha)

/-- What was made is put into a box that holds nothing itself. -/
theorem Deal.boxed {P : σ → Prop} {Q : τ → Prop} {held : Nat} {first : Ledger → Made σ}
    (h : Deal (Makes P) held first) (box : σ → τ)
    (hroom : ∀ a, Holder.room (box a) = Holder.room a) (hbox : ∀ a, P a → Q (box a)) :
    Deal (Makes Q) held fun m => (first m).map box := by
  refine Deal.congr (h.chain 0 (fun a m => (.ok (box a), m)) ?_) ?_
  · intro a ha
    rw [Nat.add_zero, ← hroom]
    exact Deal.made (hbox a ha)
  · intro m
    rcases first m with ⟨_ | a, m'⟩ <;> rfl

end Operations

end Columnar
