import Columnar.Proofs.Batches
/-!
# A wider limit changes nothing but refusals

Whatever deals with a ledger asks for sizes that do not depend on what is left
under the limit.  So two ledgers with as much lent, the second under a limit
that is no narrower, are asked for the same sizes one after the other until the
first refuses.  If it never does, both deals come to the same end; if it does,
its refusal is what is reported: `Deal.eq_of_widens`.

A refusal by a limit tells what is left under it, and is told by that from the
refusal of a size that no memory can have, which every ledger meets alike.
-/

namespace Columnar

/-- Whether a failure reports that memory was refused by a limit, and not for its size. -/
def Failure.isByLimit : Failure → Bool
  | .fault (.outOfMemory refusal) => refusal.available.isSome
  | _ => false

namespace Ledger

/-- The ledgers have as much lent after the same requests, and the limit of the
second is no narrower. -/
structure Widens (m₁ m₂ : Ledger) : Prop where
  lent : m₁.lent = m₂.lent
  requests : m₁.requests = m₂.requests
  limit : ∀ wide ∈ m₂.limit, ∃ narrow ∈ m₁.limit, narrow ≤ wide

/-- A wider limit admits whatever the narrower one does. -/
theorem Widens.admits {m₁ m₂ : Ledger} (h : m₁.Widens m₂) {n : Nat} (hn : m₁.admits n = true) :
    m₂.admits n = true := by
  unfold Ledger.admits at hn ⊢
  cases hwide : m₂.limit with
  | none => rfl
  | some wide =>
    obtain ⟨narrow, hnarrow, hle⟩ := h.limit wide hwide
    rw [Option.mem_def.1 hnarrow] at hn
    have hfits : m₁.lent + n ≤ narrow := of_decide_eq_true hn
    have hlent := h.lent
    exact decide_eq_true (by omega)

/-- What the narrower limit grants the wider one grants too. -/
theorem Widens.ask {m₁ m₂ : Ledger} (h : m₁.Widens m₂) {n : Nat} (hn : (m₁.ask n).1 = none) :
    (m₂.ask n).1 = none ∧ (m₁.ask n).2.Widens (m₂.ask n).2 := by
  have hadmits : m₁.admits n = true := by
    cases hadmits : m₁.admits n with
    | true => rfl
    | false => simp [Ledger.ask, hadmits] at hn
  unfold Ledger.ask
  rw [if_pos hadmits, if_pos (h.admits hadmits)]
  exact ⟨rfl, congrArg (· + n) h.lent, congrArg (n :: ·) h.requests, h.limit⟩

/-- The ledgers are still alike after the same bytes came back. -/
theorem Widens.giveBack {m₁ m₂ : Ledger} (h : m₁.Widens m₂) (n : Nat) :
    (m₁.giveBack n).Widens (m₂.giveBack n) :=
  ⟨congrArg (· - n) h.lent, h.requests, h.limit⟩

/-- Only a limit refuses, and it tells what is left. -/
theorem available_of_ask {m : Ledger} {n : Nat} {refusal : Refusal}
    (h : (m.ask n).1 = some refusal) : refusal.available.isSome = true := by
  unfold Ledger.ask at h
  split at h
  · exact nomatch h
  · rename_i hadmits
    obtain rfl := Option.some.inj h
    unfold admits at hadmits
    cases hlimit : m.limit with
    | none => simp [hlimit] at hadmits
    | some limit => simp [available, hlimit]

/-- A limit that is no narrower, or none, over the same amount lent. -/
theorem widens_of_le {limit wider : Nat} (h : limit ≤ wider) (lent : Nat) :
    Widens { limit := some limit, lent } { limit := some wider, lent } ∧
      Widens { limit := some limit, lent } { limit := none, lent } := by
  refine ⟨⟨rfl, rfl, fun wide hwide => ?_⟩, ⟨rfl, rfl, nofun⟩⟩
  obtain rfl := Option.some.inj hwide
  exact ⟨limit, rfl, h⟩

end Ledger

/-- A deal under a limit reports a refusal by this limit, or it comes to the same
end under a wider one, by the same requests. -/
theorem Deal.eq_of_widens {ρ : Type} [Yield ρ] {P : ρ → Prop} {held : Nat}
    {f : Ledger → ρ × Ledger} (h : Deal P held f) {m₁ m₂ : Ledger} (hm : m₁.Widens m₂) :
    (∃ refusal ∈ Yield.refusal? (f m₁).1, refusal.available.isSome = true) ∨
      ((f m₁).1 = (f m₂).1 ∧ (f m₁).2.Widens (f m₂).2) := by
  induction h generalizing m₁ m₂ with
  | ended => exact .inr ⟨rfl, hm⟩
  | gaveBack _ ih => exact ih (hm.giveBack _)
  | @asked held n granted refused _ hrefused ih =>
    cases hanswer : (m₁.ask n).1 with
    | none =>
      obtain ⟨hanswer₂, hafter⟩ := hm.ask hanswer
      rw [Ledger.asking_of_none hanswer, Ledger.asking_of_none hanswer₂]
      exact ih hafter
    | some refusal =>
      obtain ⟨result, back, -, hreported, -, hsettle⟩ := hrefused refusal
      rw [Ledger.asking_of_some hanswer, hsettle]
      exact .inl ⟨refusal, hreported, Ledger.available_of_ask hanswer⟩

/-- Only a failure reports a refusal. -/
theorem Failure.isByLimit_of_refusal {α : Type} {result : Except Failure α} {refusal : Refusal}
    (h : Yield.refusal? result = some refusal) (havailable : refusal.available.isSome = true) :
    ∃ failure, result = .error failure ∧ failure.isByLimit = true := by
  rcases result with ⟨fault | flaw⟩ | a
  · cases fault with
    | outOfMemory other =>
      obtain rfl : other = refusal := Option.some.inj h
      exact ⟨_, rfl, havailable⟩
    | _ => exact nomatch h
  · exact nomatch h
  · exact nomatch h

/-- A component fails on a limit, or is encoded alike under a wider one. -/
theorem Component.encode_eq_of_widens (r : Registry) (c : Component) (records : List c.Datum)
    (hint : Nat) {m₁ m₂ : Ledger} (hm : m₁.Widens m₂) :
    (∃ failure, (c.encode r records hint m₁).1 = .error failure ∧ failure.isByLimit = true) ∨
      ((c.encode r records hint m₁).1 = (c.encode r records hint m₂).1 ∧
        (c.encode r records hint m₁).2.Widens (c.encode r records hint m₂).2) := by
  refine ((c.deal_encode r records hint).eq_of_widens hm).imp_left ?_
  rintro ⟨refusal, hreported, havailable⟩
  exact Failure.isByLimit_of_refusal hreported havailable

/-- Fields fail on a limit, or are encoded alike under a wider one. -/
theorem Batch.encodeFields_eq_of_widens {hint : Nat} (fields : List SetField) (r : Registry)
    (batch : Batch) {m₁ m₂ : Ledger} (hm : m₁.Widens m₂) :
    (∃ failure, (encodeFields hint fields r batch m₁).1 = .error failure ∧
        failure.isByLimit = true) ∨
      ((encodeFields hint fields r batch m₁).1 = (encodeFields hint fields r batch m₂).1 ∧
        (encodeFields hint fields r batch m₁).2.Widens
          (encodeFields hint fields r batch m₂).2) := by
  induction fields generalizing r batch m₁ m₂ with
  | nil => exact .inr ⟨rfl, hm⟩
  | cons field rest ih =>
    have hfield := field.component.encode_eq_of_widens r field.records hint hm
    revert hfield
    simp only [encodeFields]
    rcases field.component.encode r field.records hint m₁ with ⟨result, m₁'⟩
    rcases field.component.encode r field.records hint m₂ with ⟨result', m₂'⟩
    rintro (⟨failure, rfl, hlimit⟩ | ⟨rfl, hm'⟩)
    · exact .inl ⟨failure, rfl, hlimit⟩
    · cases result with
      | error failure => exact .inr ⟨rfl, hm'⟩
      | ok chunk => exact ih _ _ hm'

/-- The limit does nothing but refuse: what is encoded under it, compared with a
wider limit and with none, from the same amount lent. -/
structure LimitOnlyRefuses {α : Type} (encode : Ledger → Except Failure α × Ledger)
    (lent limit wider : Nat) : Prop where
  /-- Success stays success, with the same result by the same requests. -/
  of_ok : ∀ a, (encode { limit := some limit, lent }).1 = .ok a →
    ∀ m ∈ [({ limit := some wider, lent } : Ledger), { limit := none, lent }],
      (encode m).1 = .ok a ∧
        (encode m).2.requests = (encode { limit := some limit, lent }).2.requests
  /-- A failure that is none of the limit stays the same failure. -/
  of_error : ∀ failure, (encode { limit := some limit, lent }).1 = .error failure →
    failure.isByLimit = false →
    ∀ m ∈ [({ limit := some wider, lent } : Ledger), { limit := none, lent }],
      (encode m).1 = .error failure

/-- A limit only refuses what fails on it or else is encoded alike under any
that is no narrower. -/
theorem limitOnlyRefuses_of_widens {α : Type} {encode : Ledger → Except Failure α × Ledger}
    (hencode : ∀ {m₁ m₂ : Ledger}, m₁.Widens m₂ →
      (∃ failure, (encode m₁).1 = .error failure ∧ failure.isByLimit = true) ∨
        ((encode m₁).1 = (encode m₂).1 ∧ (encode m₁).2.Widens (encode m₂).2))
    {limit wider : Nat} (h : limit ≤ wider) (lent : Nat) :
    LimitOnlyRefuses encode lent limit wider := by
  have hwidens : ∀ m ∈ [({ limit := some wider, lent } : Ledger), { limit := none, lent }],
      Ledger.Widens { limit := some limit, lent } m := by
    obtain ⟨hwider, hnone⟩ := Ledger.widens_of_le h lent
    simp [hwider, hnone]
  constructor
  · intro a hok m hm
    obtain ⟨failure, herror, -⟩ | ⟨hsame, hafter⟩ := hencode (hwidens m hm)
    · exact nomatch hok.symm.trans herror
    · exact ⟨hsame.symm.trans hok, hafter.requests.symm⟩
  · intro failure herror hlimit m hm
    obtain ⟨failure', herror', hlimit'⟩ | ⟨hsame, -⟩ := hencode (hwidens m hm)
    · obtain rfl := Except.error.inj (herror.symm.trans herror')
      rw [hlimit] at hlimit'
      exact nomatch hlimit'
    · exact hsame.symm.trans herror

namespace Encoder

/-- Components and archetype values that are encoded under a limit are encoded
alike, by the same requests, under any wider limit and under none; and what
fails for another reason than the limit fails for that reason under them too. -/
theorem encode_of_limit_le {limit wider : Nat} (h : limit ≤ wider) (lent hint : Nat)
    (r : Registry) :
    (∀ (c : Component) (records : List c.Datum),
      LimitOnlyRefuses (c.encode r records hint) lent limit wider) ∧
    ∀ (a : Archetype) (value : a.Value),
      LimitOnlyRefuses (a.encode r value hint) lent limit wider := by
  refine ⟨fun c records => ?_, fun a value => ?_⟩
  · exact limitOnlyRefuses_of_widens (c.encode_eq_of_widens r records hint) h lent
  · refine limitOnlyRefuses_of_widens (fun hm => ?_) h lent
    rw [a.encode_eq_encodeFields, a.encode_eq_encodeFields]
    exact Batch.encodeFields_eq_of_widens _ _ _ hm

/-- Depths that may be unknown, in a list each. -/
private def soundings : Component :=
  ⟨"samples.Sounding", .collection (.option (.number .uint16))⟩

/-- One field of soundings, and one of them that is not set. -/
private def survey : Archetype where
  name := "samples.Survey"
  indicator := "samples.SurveyIndicator"
  fields := [⟨"near", soundings⟩, ⟨"far", soundings⟩]

/-- Two lists of soundings, one of which is unknown. -/
private def surveyValue : survey.Value :=
  (.populated [.populated [some 7#16, none], .unset], .unset, ())

/-- A survey that fits into 192 bytes next to 40 that are lent already is the
same batch without a limit, and takes the same three requests. -/
theorem encode_survey_of_limit_le :
    232 ≤ 250 ∧ ∃ batch,
      (survey.encode {} surveyValue 2 { limit := some 232, lent := 40 }).1 = .ok batch ∧
      (survey.encode {} surveyValue 2 { limit := none, lent := 40 }).1 = .ok batch ∧
      (survey.encode {} surveyValue 2 { limit := none, lent := 40 }).2.requests = [64, 64, 64] := by
  have hle : 232 ≤ 250 := by decide
  have hok : (survey.encode {} surveyValue 2 { limit := some 232, lent := 40 }).1 = .ok _ := rfl
  obtain ⟨hbatch, hrequests⟩ := ((encode_of_limit_le hle 40 2 {}).2 survey surveyValue).of_ok _ hok
    { limit := none, lent := 40 } (by simp)
  exact ⟨hle, _, hok, hbatch, hrequests⟩

end Encoder

end Columnar
