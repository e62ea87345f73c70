import Columnar.Bank
import Columnar.Proofs.Lending
/-!
# Memory is conserved

Whatever borrowers on one ledger do, in whatever order, and whether it is
granted or refused: the bytes lent are the bytes that borrowers hold, and never
more than the limit.  Every request is answered by the limit and by what is
held at that moment, and no content outgrows what was granted for it.

`Bank.Sound` is what every command keeps, and `Bank.Passes` what is known of one
command.  Each command passes because all that it does with the ledger is deal.
-/

namespace Columnar

/-- An operation on a buffer that fails leaves it as it is. -/
theorem BufferOp.deal_run {b : Buffer UInt8 1} (h : b.Bounded) : (op : BufferOp) →
    Deal (Ends Buffer.Bounded (· = b)) b.room fun m => (op.run b m).result
  | .reserve n => (h.deal_reserve n).imp (Ends.weaken fun _ hb => hb.1)
  | .append bytes => (h.deal_append bytes).imp (Ends.weaken fun _ hb => hb.1)
  | .resize n byte => (h.deal_resize n byte).imp (Ends.weaken fun _ hb => hb.1)
  | .truncate n => Deal.done (a := b.truncate n) (h.shrink (List.length_take_le' n b.items))
  | .overwrite place byte =>
    Deal.done (a := b.modify place fun _ => byte)
      (h.of_loan rfl (Nat.le_of_eq (List.length_modify ..)))

theorem BufferOp.deals_run (op : BufferOp) : Deals op.run :=
  Buffer.deals_of_ends fun _ h => op.deal_run h

theorem BitsOp.deals_runBitmap : (op : BitsOp) → Deals op.runBitmap
  | .reserve n => Bitmap.deals_reserve n
  | .append bit => Bitmap.deals_append bit
  | .appendMany bit n => Bitmap.deals_appendMany bit n

theorem BitsOp.deals_runValidity : (op : BitsOp) → Deals op.runValidity
  | .reserve n => Validity.deals_reserve n
  | .append bit => Validity.deals_append bit
  | .appendMany bit n => Validity.deals_appendMany bit n

theorem OffsetsOp.deals_run : (op : OffsetsOp) → Deals op.run
  | .reserve n => Offsets.deals_reserve n
  | .append stop => Offsets.deals_append stop
  | .appendLength n => Offsets.deals_appendLength n

theorem WriterOp.deals_run : (op : WriterOp) → Deals op.run
  | .reserve n => Writer.deals_reserve n
  | .reserveBytes n => Writer.deals_reserveBytes n
  | .reserveText n => Writer.deals_reserveText n
  | .appendNull => Writer.deals_appendNull
  | .appendBoolean value => Writer.deals_appendBoolean value
  | .appendNumber kind value => Writer.deals_appendNumber kind value
  | .appendNumbers kind values => Writer.deals_appendNumbers kind values
  | .appendBytes value => Writer.deals_appendBytes value
  | .appendText value => Writer.deals_appendText value
  | .append type value => type.deals_write value
  | .appendAbsent => Writer.deals_appendAbsent
  | .closeList => Writer.deals_closeList
  | .appendList type items => type.deals_appendList items
  | .closeRow => Writer.deals_closeRow

namespace Borrower

/-- The content of a borrower fits what was granted for it. -/
def Bounded : Borrower → Prop
  | .loan _ => True
  | .buffer b => b.Bounded
  | .bitmap bits => bits.Bounded
  | .validity v => v.Bounded
  | .offsets o => o.ends.Bounded
  | .writer w => w.Bounded
  | .column c => c.Bounded

theorem Bounded.byteLength_le {b : Borrower} (h : b.Bounded) : b.byteLength ≤ b.room := by
  cases b with
  | loan _ => exact Nat.zero_le _
  | buffer _ => exact Buffer.Bounded.fits h
  | bitmap _ => exact Bitmap.Bounded.byteLength_le h
  | validity _ => exact Validity.Bounded.byteLength_le h
  | offsets _ => exact Buffer.Bounded.fits h
  | writer _ => exact Writer.Bounded.byteLength_le h
  | column _ => exact Column.Bounded.byteLength_le h

/-- The writer at the end of a way inside, if the borrower has one there. -/
def inner? (way : List Inward) : Borrower → Option Writer
  | .writer w => (w.find way).toOption
  | .column c => c.writer?.bind fun w => (w.find way).toOption
  | _ => none

/-- A writer at the end of any way inside a bounded borrower is bounded. -/
theorem Bounded.inner {b : Borrower} (h : b.Bounded) (way : List Inward) {inner : Writer}
    (hinner : b.inner? way = some inner) : inner.Bounded := by
  have hfind {w : Writer} (hw : w.Bounded) (hfound : (w.find way).toOption = some inner) :
      inner.Bounded := by
    cases hresult : w.find way with
    | error fault =>
      rw [hresult] at hfound
      exact nomatch hfound
    | ok found =>
      rw [hresult] at hfound
      exact Option.some.inj hfound ▸ hw.find way hresult
  cases b
  case writer w => exact hfind h hinner
  case column c =>
    obtain ⟨w, hw, hfound⟩ := Option.bind_eq_some_iff.1 hinner
    exact hfind (h w hw) hfound
  all_goals exact nomatch hinner

instance : Holder Borrower where
  room := Borrower.room
  byteLength := Borrower.byteLength
  Bounded := Borrower.Bounded
  byteLength_le := Bounded.byteLength_le

end Borrower

theorem Blueprint.deal_make : (blueprint : Blueprint) →
    Deal (Makes Borrower.Bounded) 0 blueprint.make
  | .loan => Deal.made (a := Borrower.loan {}) trivial
  | .buffer bytes => (Buffer.deal_new bytes).boxed Borrower.buffer (fun _ => rfl) fun _ h => h.1
  | .bitmap capacity => (Bitmap.deal_new capacity).boxed Borrower.bitmap (fun _ => rfl) fun _ h => h
  | .validity capacity => Deal.made (a := Borrower.validity (.new capacity)) trivial
  | .offsets capacity =>
    (Offsets.deal_new capacity).boxed Borrower.offsets (fun _ => rfl) fun _ h => h
  | .writer layout capacity content =>
    (Writer.deal_newWith capacity content layout).boxed Borrower.writer (fun _ => rfl) fun _ h => h
  | .column layout => (Column.deal_new layout).boxed Borrower.column (fun _ => rfl) fun _ h => h.1

/-- An operation on a borrower, of its kind or of another. -/
theorem Operation.deals_run (op : Operation) : Deals op.run := by
  intro b h
  cases op <;> cases b
  case grow.loan n loan =>
    exact (Loan.deals_grow n).boxed Borrower.loan (fun _ => rfl) (fun _ h => h) h
  case buffer.buffer op b =>
    exact op.deals_run.boxed Borrower.buffer (fun _ => rfl) (fun _ h => h) h
  case bitmap.bitmap op bits =>
    exact op.deals_runBitmap.boxed Borrower.bitmap (fun _ => rfl) (fun _ h => h) h
  case validity.validity op v =>
    exact op.deals_runValidity.boxed Borrower.validity (fun _ => rfl) (fun _ h => h) h
  case offsets.offsets op o =>
    exact op.deals_run.boxed Borrower.offsets (fun _ => rfl) (fun _ h => h) h
  case writer.writer way op w =>
    have hinside := Writer.deals_inside op.deals_run way
    exact hinside.boxed Borrower.writer (fun _ => rfl) (fun _ h => h) h
  case column.column op c =>
    exact (Column.deals_run op).boxed Borrower.column (fun _ => rfl) (fun _ h => h) h
  case hint.column n c => exact Deal.done (a := Borrower.column (c.withHint n)) h
  all_goals exact .done h

namespace Borrower

/-- Another borrower in a place changes the total by the difference. -/
theorem totalRoom_set {l : List Borrower} {place : Nat} {b : Borrower} (h : l[place]? = some b)
    (b' : Borrower) : totalRoom (l.set place b') + b.room = totalRoom l + b'.room := by
  induction l generalizing place with
  | nil => simp at h
  | cons first rest ih =>
    cases place with
    | zero =>
      obtain rfl : first = b := by simpa using h
      simp only [List.set_cons_zero, totalRoom]
      omega
    | succ place =>
      have hrest := @ih place (by simpa using h)
      simp only [List.set_cons_succ, totalRoom]
      omega

/-- Whoever goes takes its room out of the total. -/
theorem totalRoom_eraseIdx {l : List Borrower} {place : Nat} {b : Borrower}
    (h : l[place]? = some b) : totalRoom (l.eraseIdx place) + b.room = totalRoom l := by
  induction l generalizing place with
  | nil => simp at h
  | cons first rest ih =>
    cases place with
    | zero =>
      obtain rfl : first = b := by simpa using h
      simp only [List.eraseIdx_cons_zero, totalRoom]
      omega
    | succ place =>
      have hrest := @ih place (by simpa using h)
      simp only [List.eraseIdx_cons_succ, totalRoom]
      omega

theorem totalRoom_append (l : List Borrower) (b : Borrower) :
    totalRoom (l ++ [b]) = totalRoom l + b.room := by
  induction l with
  | nil => simp [totalRoom]
  | cons first rest ih =>
    simp only [List.cons_append, totalRoom, ih]
    omega

end Borrower

namespace Bank

variable {limit : Nat} {bank after : Bank}

/-- The bytes lent under the limit are those that borrowers hold, and what each
of them keeps fits what it holds. -/
structure Sound (limit : Nat) (bank : Bank) : Prop where
  limit_eq : bank.ledger.limit = some limit
  lent_eq : bank.ledger.lent = bank.room
  lent_le : bank.ledger.lent ≤ limit
  bounded : ∀ b ∈ bank.borrowers, b.Bounded

/-- The requests that lead from one bank to another.  Each is answered by the
limit and by what is held when it is made, a refusal among them is the one that
is reported, and no refusal is reported but one of them or that of a size that
no memory can have. -/
def Account (limit : Nat) (bank : Bank) (reported : Option Refusal) (after : Bank) : Prop :=
  ∃ requests, Ledger.Trail bank.ledger bank.room requests after.ledger after.room ∧
    (∀ request ∈ requests,
      request.answer = Ledger.answerFor limit request.held request.size ∧
        ∀ refusal ∈ request.answer, reported = some refusal) ∧
    ∀ refusal ∈ reported, refusal = .overflow ∨
      ∃ request ∈ requests, request.answer = some refusal

/-- A sound bank is left, with an account of what happened. -/
structure Passes (limit : Nat) (bank : Bank) (reported : Option Refusal) (after : Bank) : Prop where
  sound : after.Sound limit
  account : Account limit bank reported after

/-- A trail of requests between the rooms of two banks is all that it takes. -/
theorem Sound.passes (h : bank.Sound limit) {requests : List Request} {reported : Option Refusal}
    (htrail : Ledger.Trail bank.ledger bank.room requests after.ledger after.room)
    (hon : ∀ request ∈ requests, ∀ refusal ∈ request.answer, reported = some refusal)
    (hreported : ∀ refusal ∈ reported, refusal = .overflow ∨
      ∃ request ∈ requests, request.answer = some refusal)
    (hbounded : ∀ b ∈ after.borrowers, b.Bounded) : Passes limit bank reported after := by
  have hle : bank.room ≤ limit := h.lent_eq ▸ h.lent_le
  have hlent := htrail.lent_eq h.lent_eq
  refine ⟨⟨htrail.limit_eq.trans h.limit_eq, hlent, ?_, hbounded⟩, requests, htrail, ?_, hreported⟩
  · exact hlent ▸ htrail.held_le h.limit_eq h.lent_eq hle
  · exact fun request hrequest =>
      ⟨htrail.answer_eq h.limit_eq h.lent_eq request hrequest, hon request hrequest⟩

/-- A command whose dealing with the ledger is accounted for by its own borrower passes next to
whatever the others hold. -/
theorem Sound.passes_of_deal {ρ : Type} [Yield ρ] {P : ρ → Prop} {held : Nat}
    {f : Ledger → ρ × Ledger} (h : bank.Sound limit) (after : Bank) (hdeal : Deal P held f)
    (others : Nat)
    (hroom : bank.room = others + held) (hledger : after.ledger = (f bank.ledger).2)
    (hafter : after.room = others + Yield.room (f bank.ledger).1)
    (hbounded : ∀ b ∈ after.borrowers, b.Bounded) :
    Passes limit bank (Yield.refusal? (f bank.ledger).1) after := by
  obtain ⟨-, requests, htrail, hon, hreported⟩ := hdeal.trail others bank.ledger
  rw [← hroom, ← hledger, ← hafter] at htrail
  exact h.passes htrail hon hreported hbounded

/-- A bank in which nothing happens. -/
theorem Sound.passes_refl (h : bank.Sound limit) : Passes limit bank none bank :=
  h.passes .here nofun nofun h.bounded

/-- A borrower that goes gives back what it holds. -/
theorem Sound.passes_remove (h : bank.Sound limit) {place : Nat} {b : Borrower}
    (hb : bank.borrowers[place]? = some b) :
    Passes limit bank none (bank.remove place (bank.ledger.giveBack b.room)) := by
  have htotal : bank.room = Borrower.totalRoom (bank.borrowers.eraseIdx place) + b.room :=
    (Borrower.totalRoom_eraseIdx hb).symm
  have htrail : Ledger.Trail bank.ledger bank.room [] (bank.ledger.giveBack b.room)
      (Borrower.totalRoom (bank.borrowers.eraseIdx place)) := by
    rw [htotal]
    exact .gaveBack .here
  refine h.passes htrail nofun nofun ?_
  exact fun other hother => h.bounded other (List.mem_of_mem_eraseIdx hother)

/-- A borrower in the place of another, by a deal with what that one held. -/
theorem Sound.passes_put (h : bank.Sound limit) {place : Nat} {b : Borrower} (b' : Borrower)
    {m : Ledger} (hb : bank.borrowers[place]? = some b) {ρ : Type} [Yield ρ] {P : ρ → Prop}
    {f : Ledger → ρ × Ledger} (hdeal : Deal P b.room f) (hm : m = (f bank.ledger).2)
    (hroom : b'.room = Yield.room (f bank.ledger).1) (hbounded : b'.Bounded) :
    Passes limit bank (Yield.refusal? (f bank.ledger).1) (bank.put place b' m) := by
  have hout := Borrower.totalRoom_eraseIdx hb
  have hset := Borrower.totalRoom_set hb b'
  refine h.passes_of_deal _ hdeal (Borrower.totalRoom (bank.borrowers.eraseIdx place)) hout.symm hm
    ?_ ?_
  · show Borrower.totalRoom (bank.borrowers.set place b') = _
    omega
  · intro other hother
    rcases List.mem_or_eq_of_mem_set hother with hold | rfl
    · exact h.bounded other hold
    · exact hbounded

theorem Sound.passes_make (h : bank.Sound limit) (blueprint : Blueprint) :
    Passes limit bank ((bank.run (.make blueprint)).1.bind Fault.refusal?)
      (bank.run (.make blueprint)).2 := by
  have hdeal := blueprint.deal_make
  have hmade := (hdeal.trail bank.room bank.ledger).1
  simp only [run]
  cases hresult : blueprint.make bank.ledger with
  | mk result m =>
    rw [hresult] at hmade
    cases result with
    | error fault =>
      have hpasses := h.passes_of_deal { bank with ledger := m } hdeal bank.room rfl
        (by rw [hresult]) (by rw [hresult]; rfl) h.bounded
      rw [hresult] at hpasses
      exact hpasses
    | ok b =>
      have hpasses := h.passes_of_deal ⟨m, bank.borrowers ++ [b]⟩ hdeal bank.room rfl
        (by rw [hresult]) (by rw [hresult]; exact Borrower.totalRoom_append _ b) ?_
      · rw [hresult] at hpasses
        exact hpasses
      · intro other hother
        rcases List.mem_append.1 hother with hold | hnew
        · exact h.bounded other hold
        · obtain rfl := List.mem_singleton.1 hnew
          exact hmade

theorem Sound.passes_operate (h : bank.Sound limit) (place : Nat) (op : Operation) :
    Passes limit bank ((bank.run (.operate place op)).1.bind Fault.refusal?)
      (bank.run (.operate place op)).2 := by
  simp only [run]
  cases hb : bank.borrowers[place]? with
  | none => exact h.passes_refl
  | some b =>
    have hdeal := op.deals_run b (h.bounded b (List.mem_of_getElem? hb))
    have hbounded := (hdeal.trail 0 bank.ledger).1
    exact h.passes_put (op.run b bank.ledger).value hb hdeal rfl rfl hbounded

theorem Sound.passes_wrap (h : bank.Sound limit) (place capacity : Nat) (nullable : Bool) :
    Passes limit bank ((bank.run (.wrap place capacity nullable)).1.bind Fault.refusal?)
      (bank.run (.wrap place capacity nullable)).2 := by
  simp only [run]
  cases hb : bank.borrowers[place]? with
  | none => exact h.passes_refl
  | some b =>
    cases b
    case writer child =>
      have hchild : child.Bounded := h.bounded _ (List.mem_of_getElem? hb)
      have hdeal := Writer.deal_newList capacity hchild nullable
      have hmade := (hdeal.trail 0 bank.ledger).1
      dsimp only
      cases hresult : Writer.newList capacity child nullable bank.ledger with
      | mk result m =>
        rw [hresult] at hmade
        cases result with
        | ok w =>
          have hpasses := h.passes_put (.writer w) (m := m) hb hdeal (by rw [hresult])
            (by rw [hresult]; rfl) hmade
          rw [hresult] at hpasses
          exact hpasses
        | error fault =>
          -- The child is given up with the list: its place is empty afterwards.
          have hpasses := h.passes_of_deal (bank.remove place m) hdeal _
            (Borrower.totalRoom_eraseIdx hb).symm (by rw [hresult]; rfl) (by rw [hresult]; rfl) ?_
          · rw [hresult] at hpasses
            exact hpasses
          · exact fun other hother => h.bounded other (List.mem_of_mem_eraseIdx hother)
    all_goals exact h.passes_refl

theorem Sound.passes_finish (h : bank.Sound limit) (place : Nat) :
    Passes limit bank ((bank.run (.finish place)).1.bind Fault.refusal?)
      (bank.run (.finish place)).2 := by
  simp only [run]
  cases hb : bank.borrowers[place]? with
  | none => exact h.passes_refl
  | some b =>
    cases b
    case column c =>
      have hc : c.Bounded := h.bounded _ (List.mem_of_getElem? hb)
      dsimp only
      by_cases husable : c.Usable
      · obtain ⟨result, hfinish⟩ := husable.finish_eq
        have hpasses := h.passes_put (.column { c with state := .finished }) hb
          husable.deal_finish rfl rfl nofun
        rw [hfinish] at hpasses ⊢
        cases result <;> exact hpasses
      · obtain ⟨fault, hquiet, hfinish⟩ := Column.finish_of_not_usable husable
        have hdeal : Deal (fun _ => True) c.room fun m => (Outcome.stopped c m fault).result :=
          .stopped trivial (Fault.Quiet.of_none hquiet)
        have hpasses := h.passes_put (.column c) hb hdeal rfl rfl hc
        rw [hfinish]
        exact hpasses
    all_goals exact h.passes_remove hb

theorem Sound.passes_drop (h : bank.Sound limit) (place : Nat) :
    Passes limit bank ((bank.run (.drop place)).1.bind Fault.refusal?)
      (bank.run (.drop place)).2 := by
  simp only [run]
  cases hb : bank.borrowers[place]? with
  | none => exact h.passes_refl
  | some b => exact h.passes_remove hb

/-- Every command keeps a bank sound and accounts for the requests that it makes, whether it
succeeds or fails. -/
theorem Sound.passes_run (h : bank.Sound limit) : (command : Command) →
    Passes limit bank ((bank.run command).1.bind Fault.refusal?) (bank.run command).2
  | .make blueprint => h.passes_make blueprint
  | .operate place op => h.passes_operate place op
  | .wrap place capacity nullable => h.passes_wrap place capacity nullable
  | .finish place => h.passes_finish place
  | .drop place => h.passes_drop place

/-- The bank that was just opened is sound: it has no borrowers and has lent nothing. -/
theorem sound_opened (limit : Nat) : (opened limit).Sound limit :=
  ⟨rfl, rfl, Nat.zero_le limit, nofun⟩

/-- A sound bank is sound after any history, and its requests lead there. -/
theorem Sound.trail_after (h : bank.Sound limit) (history : List Command) :
    (bank.after history).Sound limit ∧ ∃ requests,
      Ledger.Trail bank.ledger bank.room requests (bank.after history).ledger
        (bank.after history).room := by
  induction history generalizing bank with
  | nil => exact ⟨h, [], .here⟩
  | cons command history ih =>
    obtain ⟨hsound, requests, htrail, -⟩ := h.passes_run command
    obtain ⟨hafter, more, hmore⟩ := ih hsound
    exact ⟨hafter, requests ++ more, htrail.append hmore⟩

/-- Every request that the ledger has a record of was answered by the limit and
by what was held when it was made. -/
theorem requests_after (limit : Nat) (history : List Command) :
    ∃ requests : List Request,
      ((opened limit).after history).ledger.requests = (requests.map Request.size).reverse ∧
      ∀ request ∈ requests,
        request.answer = Ledger.answerFor limit request.held request.size := by
  obtain ⟨-, requests, htrail⟩ := (sound_opened limit).trail_after history
  exact ⟨requests, htrail.requests_eq.trans (List.append_nil _), htrail.answer_eq rfl rfl⟩

/-- An operation that leaves a borrower as it is when it fails leaves them all
as they are. -/
theorem Sound.borrowers_of_fault (h : bank.Sound limit) {op : Operation}
    (hop : ∀ b m fault, b.Bounded → (op.run b m).fault = some fault → (op.run b m).value = b)
    {place : Nat} {fault : Fault} (hfault : (bank.run (.operate place op)).1 = some fault) :
    (bank.run (.operate place op)).2.borrowers = bank.borrowers := by
  simp only [run] at hfault ⊢
  cases hb : bank.borrowers[place]? with
  | none => rfl
  | some b =>
    rw [hb] at hfault
    have hvalue := hop b bank.ledger fault (h.bounded b (List.mem_of_getElem? hb)) hfault
    dsimp only [put]
    rw [hvalue]
    obtain ⟨hplace, rfl⟩ := List.getElem?_eq_some_iff.1 hb
    exact List.set_getElem_self hplace

/-- A loan that is refused stays as it is. -/
theorem Sound.grow_refused (h : bank.Sound limit) {place n : Nat} {fault : Fault}
    (hfault : (bank.run (.operate place (.grow n))).1 = some fault) :
    (bank.run (.operate place (.grow n))).2.borrowers = bank.borrowers := by
  refine h.borrowers_of_fault (fun b m fault _ hfault => ?_) hfault
  cases b
  case loan loan => exact congrArg Borrower.loan (Loan.value_grow_of_fault hfault)
  all_goals exact absurd hfault nofun

/-- A loan that is to grow makes one request, for just as much.  It is granted if that stays
within the limit, and the loan grows by it then. -/
theorem Sound.grow_asks (h : bank.Sound limit) {place n : Nat} {loan : Loan}
    (hloan : bank.borrowers[place]? = some (.loan loan)) (hn : 0 < n) :
    (bank.run (.operate place (.grow n))).2.ledger.requests = n :: bank.ledger.requests ∧
      ((bank.run (.operate place (.grow n))).1 = none ↔ bank.ledger.lent + n ≤ limit) ∧
      ((bank.run (.operate place (.grow n))).1 = none →
        (bank.run (.operate place (.grow n))).2.borrowers =
          bank.borrowers.set place (.loan ⟨loan.size + n⟩)) := by
  have hadmits : bank.ledger.admits n = decide (bank.ledger.lent + n ≤ limit) := by
    rw [Ledger.admits, h.limit_eq]
  simp only [run, hloan, Operation.run, put, Outcome.map, Loan.grow, if_neg (Nat.ne_of_gt hn),
    Ledger.ask, hadmits]
  by_cases hle : bank.ledger.lent + n ≤ limit
  · simp [hle]
  · simp [hle]

/-- A buffer that is refused stays as it is. -/
theorem Sound.buffer_refused (h : bank.Sound limit) {place : Nat} {op : BufferOp} {fault : Fault}
    (hfault : (bank.run (.operate place (.buffer op))).1 = some fault) :
    (bank.run (.operate place (.buffer op))).2.borrowers = bank.borrowers := by
  refine h.borrowers_of_fault (fun b m fault hbounded hfault => ?_) hfault
  cases b
  case buffer b => exact congrArg Borrower.buffer ((op.deal_run hbounded).failure hfault)
  all_goals exact absurd hfault nofun

/-- The borrowers of a bank that passes hold less by what is given back. -/
theorem Passes.lent_add (h : bank.Sound limit) {reported : Option Refusal}
    (hpasses : Passes limit bank reported after) {n : Nat} (hroom : after.room + n = bank.room) :
    after.ledger.lent + n = bank.ledger.lent := by
  rw [hpasses.sound.lent_eq, h.lent_eq, hroom]

/-- A construction that fails leaves no borrower, and nothing is lent for it. -/
theorem Sound.make_failed (h : bank.Sound limit) {blueprint : Blueprint} {fault : Fault}
    (hfault : (bank.run (.make blueprint)).1 = some fault) :
    (bank.run (.make blueprint)).2.borrowers = bank.borrowers ∧
      (bank.run (.make blueprint)).2.ledger.lent = bank.ledger.lent := by
  have hpasses := h.passes_run (.make blueprint)
  have hborrowers : (bank.run (.make blueprint)).2.borrowers = bank.borrowers := by
    revert hfault
    simp only [run]
    rcases blueprint.make bank.ledger with ⟨_ | b, m⟩
    · exact fun _ => rfl
    · exact nofun
  exact ⟨hborrowers, hpasses.lent_add (n := 0) h (congrArg Borrower.totalRoom hborrowers)⟩

/-- A list writer that is refused takes its child with it. -/
theorem Sound.wrap_failed (h : bank.Sound limit) {place capacity : Nat} {nullable : Bool}
    {fault : Fault} {b : Borrower} (hb : bank.borrowers[place]? = some b)
    (hfault : (bank.run (.wrap place capacity nullable)).1 = some fault) :
    (bank.run (.wrap place capacity nullable)).2.ledger.lent + b.room = bank.ledger.lent := by
  refine (h.passes_run (.wrap place capacity nullable)).lent_add h ?_
  simp only [run, hb] at hfault ⊢
  cases b
  case writer child =>
    revert hfault
    dsimp only
    rcases Writer.newList capacity child nullable bank.ledger with ⟨_ | w, m⟩
    · exact fun _ => Borrower.totalRoom_eraseIdx hb
    · exact nofun
  all_goals exact absurd hfault nofun

/-- Whoever is finished gives back all that it held. -/
theorem Sound.finished (h : bank.Sound limit) {place : Nat} {b : Borrower}
    (hb : bank.borrowers[place]? = some b) (hdone : (bank.run (.finish place)).1 = none) :
    (bank.run (.finish place)).2.ledger.lent + b.room = bank.ledger.lent := by
  refine (h.passes_run (.finish place)).lent_add h ?_
  simp only [run, hb] at hdone ⊢
  cases b
  case column c =>
    dsimp only at hdone ⊢
    by_cases husable : c.Usable
    · obtain ⟨result, hfinish⟩ := husable.finish_eq
      rw [hfinish]
      cases result <;> exact Borrower.totalRoom_set hb (.column { c with state := .finished })
    · obtain ⟨fault, -, hfinish⟩ := Column.finish_of_not_usable husable
      rw [hfinish] at hdone
      exact absurd hdone nofun
  all_goals exact Borrower.totalRoom_eraseIdx hb

/-- Whoever is dropped gives back all that it held. -/
theorem Sound.dropped (h : bank.Sound limit) {place : Nat} {b : Borrower}
    (hb : bank.borrowers[place]? = some b) :
    (bank.run (.drop place)).2.ledger.lent + b.room = bank.ledger.lent := by
  refine (h.passes_run (.drop place)).lent_add h ?_
  simp only [run, hb]
  exact Borrower.totalRoom_eraseIdx hb

/-- What holds of a bank after any history of commands, and of whatever command comes next. -/
structure Conserves (limit : Nat) (bank : Bank) : Prop where
  /-- What the ledger has lent is what the borrowers hold together, at every moment. -/
  lent_eq : bank.ledger.lent = bank.room
  lent_le : bank.ledger.lent ≤ limit
  /-- The content of no borrower takes more bytes than were granted for it. -/
  byteLength_le : ∀ b ∈ bank.borrowers, b.byteLength ≤ b.room
  /-- The same holds of each writer inside another, wherever it is. -/
  inner_le : ∀ b ∈ bank.borrowers, ∀ way inner, b.inner? way = some inner →
    inner.byteLength ≤ inner.room
  /-- Whatever command comes next, its requests lead from this bank to the one it leaves, each
  answered by the limit and by what is held when it is made. -/
  account : ∀ command,
    Account limit bank ((bank.run command).1.bind Fault.refusal?) (bank.run command).2
  /-- A loan that grows makes one request, which is granted within the limit. -/
  grow_asks : ∀ place n loan, bank.borrowers[place]? = some (.loan loan) → 0 < n →
    (bank.run (.operate place (.grow n))).2.ledger.requests = n :: bank.ledger.requests ∧
      ((bank.run (.operate place (.grow n))).1 = none ↔ bank.ledger.lent + n ≤ limit) ∧
      ((bank.run (.operate place (.grow n))).1 = none →
        (bank.run (.operate place (.grow n))).2.borrowers =
          bank.borrowers.set place (.loan ⟨loan.size + n⟩))
  grow_refused : ∀ place n fault, (bank.run (.operate place (.grow n))).1 = some fault →
    (bank.run (.operate place (.grow n))).2.borrowers = bank.borrowers
  buffer_refused : ∀ place op fault, (bank.run (.operate place (.buffer op))).1 = some fault →
    (bank.run (.operate place (.buffer op))).2.borrowers = bank.borrowers
  make_failed : ∀ blueprint fault, (bank.run (.make blueprint)).1 = some fault →
    (bank.run (.make blueprint)).2.borrowers = bank.borrowers ∧
      (bank.run (.make blueprint)).2.ledger.lent = bank.ledger.lent
  wrap_failed : ∀ place capacity nullable fault b, bank.borrowers[place]? = some b →
    (bank.run (.wrap place capacity nullable)).1 = some fault →
      (bank.run (.wrap place capacity nullable)).2.ledger.lent + b.room = bank.ledger.lent
  finished : ∀ place b, bank.borrowers[place]? = some b → (bank.run (.finish place)).1 = none →
    (bank.run (.finish place)).2.ledger.lent + b.room = bank.ledger.lent
  dropped : ∀ place b, bank.borrowers[place]? = some b →
    (bank.run (.drop place)).2.ledger.lent + b.room = bank.ledger.lent

/-- **Memory is conserved.** After any history of commands on a new bank, whether they were granted
or refused, what is lent is what the borrowers hold and stays within the limit, each content fits
its room, and whatever command comes next accounts for its requests: those that are refused change
nothing but the list of requests, and whoever is finished, dropped or fails to be made gives back
what it holds. -/
theorem conserves_after (limit : Nat) (history : List Command) :
    ((opened limit).after history).Conserves limit := by
  have h := ((sound_opened limit).trail_after history).1
  exact {
    lent_eq := h.lent_eq
    lent_le := h.lent_le
    byteLength_le := fun b hb => (h.bounded b hb).byteLength_le
    inner_le := fun b hb way _ hinner => ((h.bounded b hb).inner way hinner).byteLength_le
    account := fun command => (h.passes_run command).account
    grow_asks := fun _ _ _ hloan hn => h.grow_asks hloan hn
    grow_refused := fun _ _ _ hfault => h.grow_refused hfault
    buffer_refused := fun _ _ _ hfault => h.buffer_refused hfault
    make_failed := fun _ _ hfault => h.make_failed hfault
    wrap_failed := fun _ _ _ _ _ hb hfault => h.wrap_failed hb hfault
    finished := fun _ _ hb hdone => h.finished hb hdone
    dropped := fun _ _ hb => h.dropped hb }

/-- Next to a buffer of 64 bytes a loan of 40 is refused under a limit of 100. -/
example : (((opened 100).after [.make (.buffer 1), .make .loan]).run (.operate 1 (.grow 40))).1 =
    some (.outOfMemory ⟨40, some 36⟩) := by
  decide

end Bank

end Columnar
