import Columnar.Chunk.Sound
import Columnar.Outcome
import Columnar.Proofs.Agreement
import Columnar.Proofs.Canonical
import Columnar.Proofs.Conservation
import Columnar.Proofs.Cutting
import Columnar.Proofs.Growing
import Columnar.Proofs.Refusals
import Columnar.Words
/-!
# Offsets stay in order and are kept in words

Offsets that were never checked as a whole are in order all the same, since each end is
compared with the last one before it is pushed.  What is remembered as the last offset is the
last one as long as both change together, and they change only after success:
`Offsets.Sound` is what every operation keeps.

A buffer of items does just what the buffer of their bytes does: room is made for bytes,
whatever they stand for.  So each operation on offsets can be followed on the words that they
are stored as: `OffsetsOp.runWords?_stored`.  Nothing is lost on the way, since sound offsets
are not negative and stay within 32 bits.  An end that is narrowed to a word is the same
number, and so is a word that is widened again.
-/

namespace Columnar

/-- An offset that does not come before the last one may be put behind it. -/
theorem Chunk.OffsetsFit.concat {offsets : List Int} {length stop : Nat}
    (h : OffsetsFit offsets length) (hle : length ≤ stop) (hmax : stop ≤ Offsets.maxOffset) :
    OffsetsFit (offsets ++ [(stop : Int)]) stop := by
  obtain ⟨-, hrange, hordered⟩ := h
  have hbefore : ∀ offset ∈ offsets, offset ≤ (stop : Int) := by
    intro offset hoffset
    obtain ⟨-, hlength, -⟩ := hrange offset hoffset
    omega
  refine ⟨List.concat_ne_nil _ _, ?_, ?_⟩
  · intro offset hoffset
    rcases List.mem_append.1 hoffset with hold | hnew
    · obtain ⟨hnonneg, -, hword⟩ := hrange offset hold
      exact ⟨hnonneg, hbefore offset hold, hword⟩
    · obtain rfl := List.mem_singleton.1 hnew
      omega
  · refine List.pairwise_append.2 ⟨hordered, List.pairwise_singleton _ _, ?_⟩
    intro offset hoffset last hlast
    obtain rfl := List.mem_singleton.1 hlast
    exact hbefore offset hoffset

namespace Offsets

variable {o : Offsets} {m : Ledger}

/-- An end that does not come before the last one and is an offset is pushed. -/
theorem append_eq {stop : Nat} (hle : o.lastEnd ≤ stop) (hmax : stop ≤ maxOffset) (m : Ledger) :
    o.append stop m = ((o.ends.push (stop : Int) m).map fun ends => { o with ends }).andThen
      fun o m => .done { o with last := stop } m := by
  have horder : ¬ (stop : Int) < o.last := by
    rw [lastEnd] at hle
    omega
  rw [append, if_neg (Nat.not_lt.2 hmax), if_neg horder]

/-- An end that is too large or before the last one is refused before anything is asked for. -/
theorem append_eq_stopped {stop : Nat} (hnone : ¬(o.lastEnd ≤ stop ∧ stop ≤ maxOffset))
    (m : Ledger) : ∃ fault, o.append stop m = .stopped o m fault := by
  by_cases hmax : stop ≤ maxOffset
  · have horder : (stop : Int) < o.last := by
      rw [lastEnd] at hnone
      omega
    exact ⟨_, by rw [append, if_neg (Nat.not_lt.2 hmax), if_pos horder]⟩
  · exact ⟨_, if_pos (Nat.lt_of_not_le hmax)⟩

/-- What is pushed is the last end from then on. -/
theorem ensures_append (o : Offsets) (stop : Nat) (m : Ledger) :
    (o.append stop m).Ensures fun o' => o'.last = stop ∧ o.lastEnd ≤ stop ∧ stop ≤ maxOffset ∧
      o'.ends.items = o.ends.items ++ [(stop : Int)] := by
  by_cases hfits : o.lastEnd ≤ stop ∧ stop ≤ maxOffset
  · have hpush : (o.ends.push (stop : Int) m).Ensures fun ends =>
        ends.items = o.ends.items ++ [(stop : Int)] := Buffer.items_append
    rw [append_eq hfits.1 hfits.2]
    exact (Outcome.ensures_map hpush (P := fun o' : Offsets =>
      o'.ends.items = o.ends.items ++ [(stop : Int)])).andThen fun o' m' hitems =>
        Outcome.ensures_done ⟨rfl, hfits.1, hfits.2, hitems⟩
  · obtain ⟨fault, hstopped⟩ := append_eq_stopped hfits m
    rw [hstopped]
    exact Outcome.ensures_stopped

/-- Offsets in order and within their room, the last of which is remembered. -/
structure Sound (o : Offsets) : Prop where
  bounded : o.ends.Bounded
  fit : Chunk.OffsetsFit o.ends.items o.lastEnd
  last_eq : o.ends.items.getLast? = some o.last

theorem Sound.last_mem (h : o.Sound) : o.last ∈ o.ends.items :=
  List.mem_of_getLast? h.last_eq

theorem Sound.last_nonneg (h : o.Sound) : 0 ≤ o.last :=
  (h.fit.2.1 o.last h.last_mem).1

theorem Sound.last_le (h : o.Sound) : o.last ≤ maxOffset :=
  (h.fit.2.1 o.last h.last_mem).2.2

/-- The next slot starts at the last offset that is stored. -/
theorem Sound.lastEnd_eq (h : o.Sound) : (o.lastEnd : Int) = o.last :=
  Int.toNat_of_nonneg h.last_nonneg

/-- There is one offset more than there are slots. -/
theorem Sound.length_eq (h : o.Sound) : o.ends.items.length = o.length + 1 :=
  (Nat.sub_add_cancel (List.length_pos_iff.2 h.fit.1)).symm

/-- New offsets are sound, and there is just the zero. -/
theorem sound_new {capacity : Nat} {m' : Ledger} (h : new capacity m = (.ok o, m')) :
    o.Sound ∧ o.ends.items = [0] := by
  have hempty : o.Holds ([] : List (List Unit)) := holds_new h
  have hitems : o.ends.items = [0] := hempty.items
  have hfit : Chunk.OffsetsFit (Chunk.offsetsOf ([] : List (List Unit))) 0 :=
    Chunk.offsetsFit_offsetsOf (Nat.zero_le _)
  refine ⟨⟨hempty.bounded, ?_, ?_⟩, hitems⟩
  · rw [hitems, hempty.lastEnd_eq]
    exact hfit
  · rw [hitems, hempty.last]
    rfl

/-- Reserving changes no offset, neither where it succeeds nor where it fails. -/
theorem reserve_eq (o : Offsets) (n : Nat) (m : Ledger) :
    (o.reserve n m).value.ends.items = o.ends.items ∧ (o.reserve n m).value.last = o.last := by
  obtain ⟨hends, hlast⟩ := alike_iff.1 (idle_reserve n o m)
  exact ⟨Buffer.alike_iff.1 hends, hlast⟩

/-- Sound offsets stay sound, whatever is done to them. -/
theorem Sound.run (h : o.Sound) (op : OffsetsOp) (m : Ledger) : (op.run o m).value.Sound := by
  have hbounded : (op.run o m).value.ends.Bounded := ((op.deals_run o h.bounded).trail 0 m).1
  have hended (stop : Nat) (hbounded : (o.append stop m).value.ends.Bounded) :
      (o.append stop m).value.Sound := by
    cases hfault : (o.append stop m).fault with
    | some fault =>
      rw [(o.atomic_append m stop fault hfault).1]
      exact h
    | none =>
      obtain ⟨hlast, hle, hmax, hitems⟩ := o.ensures_append stop m hfault
      have hend : (o.append stop m).value.lastEnd = stop := congrArg Int.toNat hlast
      refine ⟨hbounded, ?_, ?_⟩
      · rw [hitems, hend]
        exact h.fit.concat hle hmax
      · rw [hitems, hlast, List.getLast?_concat]
  cases op with
  | reserve n =>
    obtain ⟨hitems, hlast⟩ := o.reserve_eq n m
    have hend : (o.reserve n m).value.lastEnd = o.lastEnd := congrArg Int.toNat hlast
    exact ⟨hbounded, hitems.symm ▸ hend.symm ▸ h.fit, hitems.symm ▸ hlast.symm ▸ h.last_eq⟩
  | append stop => exact hended stop hbounded
  | appendLength n =>
    rw [OffsetsOp.run, Offsets.appendLength] at hbounded ⊢
    cases hsum : Size.add? o.lastEnd n with
    | none => exact h
    | some stop =>
      rw [hsum] at hbounded
      exact hended stop hbounded

theorem Sound.of_history {start : Offsets} (hstart : start.Sound)
    {steps : List (Step OffsetsOp Offsets)} (h : History OffsetsOp.run start steps o) : o.Sound :=
  h.keeps hstart fun op _ m ha => ha.run op m

end Offsets

/-- A whole goes on as its part does. -/
theorem Outcome.map_andThen {σ τ : Type} (o : Outcome σ) {whole : σ → τ}
    {next : σ → Ledger → Outcome σ} {next' : τ → Ledger → Outcome τ}
    (h : ∀ a m, next' (whole a) m = (next a m).map whole) :
    (o.map whole).andThen next' = (o.andThen next).map whole := by
  rcases o with ⟨a, m, _ | fault⟩
  · exact h a m
  · rfl

namespace Buffer

variable {α : Type} {width : Nat} {encode : α → List UInt8}

/-- The bytes that items are stored as take as much room as the items do. -/
theorem byteLength_bytesOf (hencode : ∀ a, (encode a).length = width) (b : Buffer α width) :
    (b.bytesOf encode).byteLength = b.byteLength := by
  simp [byteLength, bytesOf, List.length_flatMap, hencode, Nat.mul_comm]

/-- Bytes of items that fit their room fit the same room. -/
theorem Bounded.bytesOf {b : Buffer α width} (h : b.Bounded)
    (hencode : ∀ a, (encode a).length = width) : (b.bytesOf encode).Bounded where
  fits := Nat.le_trans (Nat.le_of_eq (byteLength_bytesOf hencode b)) h.fits
  room_le := h.room_le
  steps := h.steps

/-- A new buffer of bytes is a new buffer of any items. -/
theorem new_bytes (encode : α → List UInt8) (bytes : Nat) (m : Ledger) :
    (new bytes m : Made (Buffer UInt8 1)) =
      (new bytes m : Made (Buffer α width)).map (Buffer.bytesOf encode) := by
  cases hroom : roomFor? bytes with
  | none => rw [new, new, hroom]; rfl
  | some room =>
    rw [new_eq hroom, new_eq hroom]
    rcases Loan.grow {} room m with ⟨loan, m', _ | fault⟩ <;> rfl

theorem reserve_bytesOf (hencode : ∀ a, (encode a).length = width) (b : Buffer α width)
    (bytes : Nat) (m : Ledger) :
    (b.bytesOf encode).reserve bytes m = (b.reserve bytes m).map (Buffer.bytesOf encode) := by
  have hroom : (b.bytesOf encode).room = b.room := rfl
  rw [reserve, reserve, byteLength_bytesOf hencode, hroom]
  by_cases hfits : b.byteLength + bytes ≤ b.room
  · rw [if_pos hfits, if_pos hfits]
    rfl
  · rw [if_neg hfits, if_neg hfits]
    cases roomFor? (b.byteLength + bytes) <;> rfl

theorem ensure_bytesOf (hencode : ∀ a, (encode a).length = width) (b : Buffer α width)
    (bytes : Nat) (m : Ledger) :
    (b.bytesOf encode).ensure bytes m = (b.ensure bytes m).map (Buffer.bytesOf encode) := by
  have hroom : (b.bytesOf encode).room = b.room := rfl
  rw [ensure, ensure, byteLength_bytesOf hencode, hroom]
  by_cases hfits : b.byteLength + bytes ≤ b.room
  · rw [if_pos hfits, if_pos hfits]
    rfl
  · rw [if_neg hfits, if_neg hfits]
    cases roomFor? (b.byteLength + bytes) <;> rfl

/-- Adding an item to a buffer does to its bytes what adding the bytes of the item does. -/
theorem push_bytesOf (hencode : ∀ a, (encode a).length = width) (b : Buffer α width) (item : α)
    (m : Ledger) :
    (b.bytesOf encode).append (encode item) m = (b.push item m).map (Buffer.bytesOf encode) := by
  rw [push, append, append, List.length_singleton, Nat.one_mul, Nat.mul_one, hencode,
    ensure_bytesOf hencode]
  refine Outcome.map_andThen _ fun b m => ?_
  simp [Buffer.bytesOf, Outcome.done, Outcome.map]

end Buffer

namespace Offsets

variable {o : Offsets} {m : Ledger}

/-- An offset that is not negative is a word as it is. -/
theorem toInt_word {offset : Int} (hnonneg : 0 ≤ offset) (hle : offset ≤ maxOffset) :
    (word offset).toInt = offset := by
  have hbmod : (word offset).toInt = offset.bmod (2 ^ 32) := BitVec.toInt_ofInt offset
  rw [maxOffset] at hle
  rw [hbmod, Int.bmod_def]
  omega

theorem length_encode (offset : Int) : (encode offset).length = 4 :=
  NumberType.length_toBytes .int32 _

/-- The last word as a number is the last offset. -/
theorem Sound.toInt_last (h : o.Sound) : o.stored.last.toInt = o.last :=
  toInt_word h.last_nonneg h.last_le

/-- Finishing the stored words reads back just the offsets. -/
theorem Sound.finish?_stored (h : o.Sound) : o.stored.finish? = some o.ends.items := by
  have hwords : NumberType.int32.words? o.stored.bytes.items =
      some (o.ends.items.map word) := by
    have hread := NumberType.int32.words?_flatMap (o.ends.items.map word)
    rwa [List.flatMap_map] at hread
  have hsame : (o.ends.items.map word).map BitVec.toInt = o.ends.items := by
    rw [List.map_map]
    refine (List.map_congr_left fun offset hoffset => ?_).trans (List.map_id _)
    obtain ⟨hnonneg, -, hle⟩ := h.fit.2.1 offset hoffset
    exact toInt_word hnonneg hle
  rw [OffsetWords.finish?, hwords]
  exact congrArg some hsame

/-- The number of slots that is computed from the stored bytes is the number of slots. -/
theorem Sound.length?_stored (h : o.Sound) : o.stored.length? = some o.length := by
  have hbytes : o.stored.bytes.items.length = 4 * (o.length + 1) := by
    rw [← h.length_eq, ← Nat.one_mul o.stored.bytes.items.length]
    exact Buffer.byteLength_bytesOf length_encode o.ends
  rw [OffsetWords.length?, hbytes, Nat.mul_div_cancel_left _ (by decide),
    Size.sub?_of_le (Nat.le_add_left 1 _), Nat.add_sub_cancel]

/-- The last word is widened to the end of the last slot. -/
theorem Sound.lastEnd_stored (h : o.Sound) : o.stored.lastEnd = o.lastEnd := by
  have hnonneg : 0 ≤ o.stored.last.toInt := h.toInt_last.symm ▸ h.last_nonneg
  have hsize : (o.stored.lastEnd : Int) = o.lastEnd := calc
    (o.stored.lastEnd : Int) = o.stored.last.toInt := Chunk.wordSize_of_nonneg hnonneg
    _ = o.last := h.toInt_last
    _ = o.lastEnd := h.lastEnd_eq.symm
  exact Int.natCast_inj.1 hsize

/-- Of words there may be as many as their bytes can be counted. -/
private theorem bytesFor?_eq (capacity : Nat) :
    (Size.add? capacity 1).bind (Size.mul? · 4) =
      if 4 * (capacity + 1) ≤ Size.max then some (4 * (capacity + 1)) else none := by
  have hcomm : (capacity + 1) * 4 = 4 * (capacity + 1) := Nat.mul_comm ..
  by_cases hcount : capacity + 1 ≤ Size.max
  · rw [Size.add?_of_le hcount, Option.bind_some, Size.mul?, hcomm]
  · rw [Size.add?, if_neg hcount, if_neg (by omega)]
    rfl

/-- Pushing an offset does to the stored bytes what adding the bytes of its word does. -/
theorem push_stored {ends : Buffer Int 4} (h : ends.Bounded) (offset : Int) (m : Ledger) :
    (ends.bytesOf encode).appendWords? (encode offset) m =
      some ((ends.push offset m).map (Buffer.bytesOf encode)) := by
  rw [(h.bytesOf length_encode).appendWords?_eq, Buffer.push_bytesOf length_encode]

/-- Making offsets in words comes to what making them as numbers does, for any capacity. -/
theorem new?_eq (capacity : Nat) (m : Ledger) :
    OffsetWords.new? capacity m = some ((Offsets.new capacity m).map Offsets.stored) := by
  rw [OffsetWords.new?, bytesFor?_eq]
  by_cases hsize : 4 * (capacity + 1) ≤ Size.max
  · rw [if_pos hsize, new_eq]
    dsimp only
    rw [Buffer.newWords?_eq, Option.bind_some, Buffer.new_bytes encode]
    rcases hmade : (Buffer.new (4 * (capacity + 1)) m : Made (Buffer Int 4)) with ⟨fault | ends, m'⟩
    · rfl
    · have hzero := push_stored (Buffer.bounded_new hmade).1 0 m'
      simp only [Made.map, Made.chain, Made.elim]
      rw [show NumberType.int32.toBytes 0 = encode 0 from rfl, hzero]
      rcases ends.push 0 m' with ⟨pushed, m'', _ | fault⟩ <;> rfl
  · -- A size that is no word is more room than a buffer can have as well.
    have hroom : Buffer.roomFor? (4 * (capacity + 1)) = none := by
      have hmax := Buffer.maxRoom_spec.2
      exact Buffer.roomFor?_eq_none_iff.2 (by omega)
    rw [if_neg hsize, Offsets.new, Buffer.new, hroom]
    rfl

/-- Reserving room for slots in words comes to what it does on the offsets that are stored. -/
theorem Sound.reserve?_stored (h : o.Sound) (n : Nat) (m : Ledger) :
    o.stored.reserve? n m = some ((o.reserve n m).map Offsets.stored) := by
  unfold OffsetWords.reserve? Offsets.reserve
  cases Size.mul? n 4 with
  | none => rfl
  | some bytes =>
    have hwords : o.stored.bytes.reserveWords? bytes m =
        some ((o.ends.reserve bytes m).map (Buffer.bytesOf encode)) := by
      rw [← Buffer.reserve_bytesOf length_encode]
      exact (h.bounded.bytesOf length_encode).reserveWords?_eq bytes m
    dsimp only
    rw [hwords]
    rfl

/-- Ending a slot in words comes to what it does on the offsets that are stored. -/
theorem Sound.append?_stored (h : o.Sound) (stop : Nat) (m : Ledger) :
    o.stored.append? stop m = some ((o.append stop m).map Offsets.stored) := by
  unfold OffsetWords.append? Offsets.append
  by_cases hlarge : maxOffset < stop
  · rw [if_pos hlarge, if_pos hlarge]
    rfl
  · have hword : BitVec.ofNat 32 stop = word stop := (BitVec.ofInt_natCast 32 stop).symm
    have hstop : (word stop).toInt = stop := toInt_word (Int.natCast_nonneg stop) (by omega)
    rw [if_neg hlarge, if_neg hlarge]
    dsimp only
    rw [h.toInt_last, hword, hstop]
    by_cases hdescends : (stop : Int) < o.last
    · rw [if_pos hdescends, if_pos hdescends]
      rfl
    · have hpushed : o.stored.bytes.appendWords? (encode stop) m =
          some ((o.ends.push stop m).map (Buffer.bytesOf encode)) := push_stored h.bounded stop m
      rw [if_neg hdescends, if_neg hdescends]
      rw [show NumberType.int32.toBytes (word stop) = encode stop from rfl, hpushed]
      rcases o.ends.push stop m with ⟨ends, m', _ | fault⟩ <;> rfl

end Offsets

/-- On words the operation does what it does on offsets. -/
theorem OffsetsOp.runWords?_stored (op : OffsetsOp) {o : Offsets} (h : o.Sound)
    (hcount : op.Countable o) (m : Ledger) :
    op.runWords? o.stored m = some ((op.run o m).map Offsets.stored) := by
  cases op with
  | reserve n => exact h.reserve?_stored n m
  | append stop => exact h.append?_stored stop m
  | appendLength n =>
    rw [runWords?, OffsetWords.appendLength?, h.lastEnd_stored, Size.add?_of_le hcount,
      Option.bind_some, h.append?_stored, run, Offsets.appendLength_eq hcount]

end Columnar
