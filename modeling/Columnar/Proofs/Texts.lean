import Columnar.Outcome
import Columnar.Proofs.Finishing
import Columnar.Proofs.Refusals
/-!
# Texts after refused additions

A text is added in three steps: its bytes, the offset where it ends, and its
flag.  Each of them may be refused, and what was done before stays done:

* bytes without an offset are loose; they become part of the next text;
* an offset without a flag ends a slot for which there is no flag.

Nothing is checked when texts are finished.  `BytesWriter.Carries` is what holds
of the parts in any case, and `BytesWriter.parts_of_history` what that means for
the finished chunk: its offsets and its texts are always sound, and the chunk
has one slot too many for each addition that stopped half way.  Such a chunk is
as long as the writer, and its mask as long as the chunk, exactly if no addition
did.
-/

namespace Columnar

/-- An operation on a writer of texts.  A null is added as no text. -/
inductive TextOp where
  | append (text : Option String)
  | reserve (n : Nat)
  /-- Makes room for bytes of content. -/
  | reserveContent (n : Nat)

def TextOp.run : TextOp → BytesWriter → Ledger → Outcome BytesWriter
  | append text, w, m => w.append (text.map Text.encode) m
  | reserve n, w, m => w.reserve n m
  | reserveContent n, w, m => w.reserveContent n m

/-- Whether an operation ended a slot and then was refused. -/
def Step.stoppedHalfway (s : Step TextOp BytesWriter) : Bool :=
  (s.outcome TextOp.run).fault.isSome &&
    decide (s.before.slots.offsets.length < (s.outcome TextOp.run).value.slots.offsets.length)

/-- How many operations ended a slot and then were refused. -/
def halves (steps : List (Step TextOp BytesWriter)) : Nat :=
  steps.countP Step.stoppedHalfway

namespace Chunk

/-- Offsets that fit some items fit more of them. -/
theorem OffsetsFit.mono {offsets : List Int} {length more : Nat} (h : OffsetsFit offsets length)
    (hle : length ≤ more) : OffsetsFit offsets more := by
  obtain ⟨hnonempty, hrange, hordered⟩ := h
  refine ⟨hnonempty, fun offset hoffset => ?_, hordered⟩
  obtain ⟨hpositive, hlength, hword⟩ := hrange offset hoffset
  omega

end Chunk

/-- Offsets that hold lists count one slot for each of them. -/
theorem Offsets.Holds.length_eq {α : Type} {o : Offsets} {lists : List (List α)}
    (h : o.Holds lists) : o.length = lists.length := by
  rw [Offsets.length, h.items, Chunk.length_offsetsFrom, List.length_map, Nat.add_sub_cancel]

/-- The parts of shown slots have their room. -/
theorem Validity.Shows.bounded {v : Validity} {flags : List Bool} (h : v.Shows flags) :
    v.Bounded := by
  cases v with
  | allValid slots planned => trivial
  | mask bits => exact h.1.toBounded

namespace BytesWriter

/-- What the parts of a writer of texts hold: texts that are ended, loose bytes
after the last of them, and flags. -/
structure Carries (w : BytesWriter) (ended : List (List UInt8)) (loose : List UInt8)
    (flags : List Bool) : Prop where
  ends : w.slots.offsets.Holds ended
  content : w.content.items = ended.flatten ++ loose
  validity : w.slots.validity.Shows flags
  texts : ∀ bytes ∈ ended, ByteArray.IsValidUTF8 ⟨bytes.toArray⟩
  loose : ByteArray.IsValidUTF8 ⟨loose.toArray⟩

/-- The outcome of an addition: one more text with its flag after success; after a
fault the flags from before, and one more text at most. -/
def Adds (o : Outcome BytesWriter) (ended : List (List UInt8)) (flags : List Bool) : Prop :=
  ∃ ended' loose flags', o.value.Carries ended' loose flags' ∧
    ((o.fault = none ∧ ended'.length = ended.length + 1 ∧ flags'.length = flags.length + 1) ∨
      (o.fault ≠ none ∧ flags' = flags ∧
        (ended'.length = ended.length ∨ ended'.length = ended.length + 1)))

namespace Carries

variable {w : BytesWriter} {ended : List (List UInt8)} {loose : List UInt8} {flags : List Bool}

/-- Bytes of texts that were added without ending their slot are the bytes of a text. -/
theorem end_loose (h : w.Carries ended loose flags) {o : Offsets} (ho : o.Holds (ended ++ [loose]))
    {v : Validity} {flags' : List Bool} (hv : v.Shows flags') :
    ({ w with slots := { validity := v, offsets := o } } : BytesWriter).Carries
      (ended ++ [loose]) [] flags' := by
  refine ⟨ho, ?_, hv, ?_, ByteArray.isValidUTF8_empty⟩
  · rw [List.flatten_append, List.flatten_singleton, List.append_nil]
    exact h.content
  · exact List.forall_mem_append.2 ⟨h.texts, List.forall_mem_singleton.2 h.loose⟩

/-- A text is ended with all the loose bytes. -/
theorem close (h : w.Carries ended loose flags) (valid : Bool) (m : Ledger) :
    Adds (w.close valid m) ended flags := by
  have hstop : w.content.byteLength = ended.flatten.length + loose.length := by
    rw [Buffer.byteLength, h.content, List.length_append, Nat.one_mul]
  have hoffsets := h.ends.append loose hstop m
  have hlength : (ended ++ [loose]).length = ended.length + 1 := List.length_append
  unfold BytesWriter.close Slots.close
  cases hoffset : (w.slots.offsets.append w.content.byteLength m).fault with
  | some fault =>
    rw [Outcome.andThen_of_some (f := fault) (by simpa using hoffset)]
    refine ⟨ended, loose, flags, ?_, .inr ⟨by simp [hoffset], rfl, .inl rfl⟩⟩
    simpa only [Outcome.value_map, (Offsets.atomic_append _ m _ fault hoffset).1] using h
  | none =>
    rw [Outcome.andThen_of_none (by simpa using hoffset)]
    have hended := hoffsets hoffset
    generalize w.slots.offsets.append w.content.byteLength m = placed at hended
    cases hflag : (w.slots.validity.append valid placed.ledger).fault with
    | none =>
      have hshown := h.validity.append valid _ hflag
      exact ⟨_, _, _, h.end_loose hended hshown, .inl ⟨hflag, hlength, List.length_append⟩⟩
    | some fault =>
      have hshown : (w.slots.validity.append valid placed.ledger).value.Shows flags := by
        rw [(Validity.atomic_append _ _ valid fault hflag).1]
        exact h.validity
      refine ⟨_, _, _, h.end_loose hended hshown, .inr ⟨?_, rfl, .inr hlength⟩⟩
      exact fun hnone => Option.some_ne_none fault (hflag.symm.trans hnone)

/-- A text is added after all the loose bytes, or a null with them. -/
theorem append (h : w.Carries ended loose flags) (text : Option String) (m : Ledger) :
    Adds (w.append (text.map Text.encode) m) ended flags := by
  cases text with
  | none => exact h.close false m
  | some text =>
    show Adds (((w.content.append (Text.encode text) m).map _).andThen _) ended flags
    cases hcontent : (w.content.append (Text.encode text) m).fault with
    | some fault =>
      rw [Outcome.andThen_of_some (f := fault) (by simpa using hcontent)]
      refine ⟨ended, loose, flags, ⟨h.ends, ?_, h.validity, h.texts, h.loose⟩,
        .inr ⟨by simp [hcontent], rfl, .inl rfl⟩⟩
      exact (Buffer.items_append_of_fault hcontent).trans h.content
    | none =>
      rw [Outcome.andThen_of_none (by simpa using hcontent)]
      have hwritten : (w.content.append (Text.encode text) m).value.items =
          ended.flatten ++ (loose ++ Text.encode text) := by
        rw [Buffer.items_append hcontent, h.content, List.append_assoc]
      have hloose := Text.isValidUTF8_append h.loose text.isValidUTF8
      have hready : ({ w with content := (w.content.append (Text.encode text) m).value } :
          BytesWriter).Carries ended (loose ++ Text.encode text) flags :=
        ⟨h.ends, hwritten, h.validity, h.texts, hloose⟩
      exact hready.close true _

/-- No operation but an addition changes what the parts hold. -/
theorem run (h : w.Carries ended loose flags) (op : TextOp) (m : Ledger) :
    Adds (op.run w m) ended flags ∨ (op.run w m).value.Carries ended loose flags := by
  cases op with
  | append text => exact .inl (h.append text m)
  | reserveContent n =>
    exact .inr ⟨h.ends, (Buffer.items_reserve ..).trans h.content, h.validity, h.texts, h.loose⟩
  | reserve n =>
    have hslots : (w.slots.reserve n m).value.offsets.Holds ended ∧
        (w.slots.reserve n m).value.validity.Shows flags := by
      unfold Slots.reserve
      cases hok : (w.slots.validity.reserve n m).fault with
      | none =>
        rw [Outcome.andThen_of_none (by simpa using hok)]
        exact ⟨h.ends.reserve n _, h.validity.reserve n m⟩
      | some fault =>
        rw [Outcome.andThen_of_some (f := fault) (by simpa using hok)]
        exact ⟨h.ends, h.validity.reserve n m⟩
    exact .inr ⟨hslots.1, h.content, hslots.2, h.texts, h.loose⟩

/-- One operation adds to the texts without flags just if it stops half way. -/
theorem step (h : w.Carries ended loose flags) {extra : Nat}
    (hextra : ended.length = flags.length + extra) (op : TextOp) (m : Ledger) :
    ∃ ended' loose' flags', (op.run w m).value.Carries ended' loose' flags' ∧
      ended'.length = flags'.length + (extra + halves [⟨op, w, m⟩]) := by
  have hhalves {ended' : List (List UInt8)} {loose' : List UInt8} {flags' : List Bool}
      (h' : (op.run w m).value.Carries ended' loose' flags') :
      halves [⟨op, w, m⟩] =
        if (op.run w m).fault ≠ none ∧ ended.length < ended'.length then 1 else 0 := by
    rw [halves, List.countP_singleton]
    simp only [Step.stoppedHalfway, Step.outcome, h.ends.length_eq, h'.ends.length_eq,
      Bool.and_eq_true, decide_eq_true_eq, Option.isSome_iff_ne_none]
  rcases h.run op m with hadds | hsame
  · obtain ⟨ended', loose', flags', h', ⟨hok, hended, hadded⟩ | ⟨hfault, rfl, hended⟩⟩ := hadds
    · refine ⟨ended', loose', flags', h', ?_⟩
      rw [hhalves h', if_neg fun hhalf => hhalf.1 hok]
      omega
    · refine ⟨ended', loose', flags', h', ?_⟩
      rw [hhalves h']
      rcases hended with hended | hended
      · rw [if_neg (by omega)]
        omega
      · rw [if_pos ⟨hfault, by omega⟩]
        omega
  · refine ⟨ended, loose, flags, hsame, ?_⟩
    rw [hhalves hsame, if_neg fun hhalf => Nat.lt_irrefl _ hhalf.2]
    exact hextra

end Carries

/-- A new writer of texts carries no slots and no loose bytes. -/
theorem carries_new {capacity bytes : Nat} {m m' : Ledger} {w : BytesWriter}
    (h : BytesWriter.new capacity bytes m = (.ok w, m')) : w.Carries [] [] [] := by
  obtain ⟨hends, -, hcontent⟩ := BytesWriter.holds_new h
  exact ⟨hends.offsets, hcontent, hends.validity, nofun, ByteArray.isValidUTF8_empty⟩

/-- Any history leaves a text without a flag for each operation that stopped half
way. -/
theorem Carries.of_history {start w : BytesWriter} (h : start.Carries [] [] [])
    {steps : List (Step TextOp BytesWriter)} (hsteps : History TextOp.run start steps w) :
    ∃ ended loose flags, w.Carries ended loose flags ∧
      ended.length = flags.length + halves steps := by
  induction hsteps with
  | here => exact ⟨[], [], [], h, rfl⟩
  | step op m _ ih =>
    obtain ⟨ended, loose, flags, hcarries, hextra⟩ := ih
    have hstep := hcarries.step hextra op m
    rwa [halves, halves, ← List.countP_append] at hstep

/-- The parts of the finished texts after any history, whatever was refused in it.

The offsets start at zero, never descend and stay within the content, the bytes of
every slot are a text, and a mask has one bit for each slot of the writer.  But
there is one more slot for each operation that stopped half way, between its offset
and its flag.  So the chunk is sound and as long as the writer if and only if none
did. -/
theorem parts_of_history {capacity bytes : Nat} {m m' : Ledger} {start w : BytesWriter}
    {steps : List (Step TextOp BytesWriter)}
    (hnew : BytesWriter.new capacity bytes m = (.ok start, m'))
    (hsteps : History TextOp.run start steps w) :
    ∃ offsets content validity, w.finishText = .utf8 offsets content validity ∧
      offsets.head? = some 0 ∧ Chunk.OffsetsFit offsets content.length ∧
      Chunk.TextsFit offsets content ∧ Chunk.MaskFits w.length validity ∧
      w.finishText.length = w.length + halves steps ∧
      (w.finishText.Sound ∧ w.finishText.length = w.length ↔ halves steps = 0) := by
  obtain ⟨ended, loose, flags, h, hextra⟩ := (carries_new hnew).of_history hsteps
  have hfinish : w.finishText =
      .utf8 (Chunk.offsetsOf ended) (ended.flatten ++ loose) (Chunk.keepIfNull (some flags)) := by
    rw [finishText, h.ends.items, h.content, h.validity.finish_eq]
    rfl
  have hoffsets : Chunk.OffsetsFit (Chunk.offsetsOf ended) (ended.flatten ++ loose).length :=
    (Chunk.offsetsFit_offsetsOf h.ends.last_le).mono (by rw [List.length_append]; omega)
  have htexts : Chunk.TextsFit (Chunk.offsetsOf ended) (ended.flatten ++ loose) := by
    intro bytes hbytes
    rw [Chunk.contents_offsetsOf_append] at hbytes
    exact h.texts bytes hbytes
  have hmask : Chunk.MaskFits w.length (Chunk.keepIfNull (some flags)) := by
    intro mask hmem
    rw [Chunk.keepIfNull, Option.mem_def, Option.filter_eq_some_iff] at hmem
    obtain rfl := Option.some.inj hmem.1
    exact h.validity.length_eq.symm
  have hslots : (Chunk.offsetsOf ended).length - 1 = w.length + halves steps := by
    show _ = w.slots.validity.length + halves steps
    rw [Chunk.length_offsetsOf, h.validity.length_eq, Nat.add_sub_cancel, hextra]
  have hlength : w.finishText.length = w.length + halves steps := by
    rw [hfinish]
    exact hslots
  refine ⟨_, _, _, hfinish, Chunk.head?_offsetsFrom 0 _, hoffsets, htexts, hmask, hlength, ?_, ?_⟩
  · rintro ⟨-, hsame⟩
    omega
  · intro hnone
    refine ⟨?_, by omega⟩
    rw [hfinish]
    refine ⟨hoffsets, ?_, htexts⟩
    rwa [hslots, hnone]

/-- A new writer on a ledger without limit. -/
private def blankPage : BytesWriter :=
  match new 0 0 {} with
  | (.ok w, _) => w
  | (.error _, _) => { slots := { validity := .new 0 } }

/-- A text and a null on a ledger that grants them, with a text in between that finds
no memory for its bytes. -/
private def wholeCalls : List (TextOp × Ledger) :=
  [(.append (some "dog"), {}), (.append (some (String.ofList (List.replicate 70 'a'))),
    { limit := some 0 }), (.append none, {})]

/-- A text, a null that finds no memory for the mask, and a null that finds it. -/
private def halfCalls : List (TextOp × Ledger) :=
  [(.append (some "a"), {}), (.append none, { limit := some 0 }), (.append none, {})]

/-- What was refused before its offset does no harm: the chunk of the others is
sound. -/
theorem parts_of_refused_text :
    (leftBy TextOp.run blankPage wholeCalls).finishText =
        .utf8 [0, 3, 3] (Text.encode "dog") (some [true, false]) ∧
      (leftBy TextOp.run blankPage wholeCalls).finishText.Sound := by
  have hnew : new 0 0 {} = (.ok blankPage, _) := rfl
  have hsteps : History TextOp.run blankPage (stepsOf TextOp.run blankPage wholeCalls)
      (leftBy TextOp.run blankPage wholeCalls) := history_of_calls blankPage wholeCalls
  obtain ⟨_, _, _, -, -, -, -, -, -, hsound⟩ := parts_of_history hnew hsteps
  exact ⟨by decide +kernel, (hsound.2 (by decide +kernel)).1⟩

/-- After a null that stopped half way the chunk has three slots, the writer two,
and the mask two bits: the chunk is not sound. -/
theorem sound_of_refused_null_fails :
    (leftBy TextOp.run blankPage halfCalls).finishText =
        .utf8 [0, 1, 1, 1] (Text.encode "a") (some [true, false]) ∧
      (leftBy TextOp.run blankPage halfCalls).length = 2 ∧
      ¬ (leftBy TextOp.run blankPage halfCalls).finishText.Sound := by
  have hfinish : (leftBy TextOp.run blankPage halfCalls).finishText =
      .utf8 [0, 1, 1, 1] (Text.encode "a") (some [true, false]) := by
    decide +kernel
  refine ⟨hfinish, by decide +kernel, ?_⟩
  rw [hfinish]
  rintro ⟨-, hmask, -⟩
  exact absurd (hmask _ rfl) (by decide)

end BytesWriter

end Columnar
