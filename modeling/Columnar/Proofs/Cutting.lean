import Columnar.Chunk.Sound
import Columnar.Proofs.Reading
/-!
# Lists are cut at any offsets

Offsets that nobody checked may be negative, descend, or point past the values.
They are signed words of 32 bits, and are compared as sizes, which are words of 64:
a negative offset becomes one of the largest sizes.  A slot whose sizes are in order
and within the values is cut, also beneath a null, and the first slot where they are
not is reported.  A slot is checked before it is cut, so nothing is taken from past
the end of the values.

Among less than `2 ^ 64 - 2 ^ 31` values no size of a negative offset is found, and the
slots that are cut are just those with offsets in range.  Values of no size can come in
larger numbers, and of those even two negative offsets cut some out.
-/

namespace Columnar

namespace Chunk

variable {α : Type} {values : List α} {validity : Option Mask}

/-- The offsets of each slot of a list array, as they are stored: where it starts and where
it stops. -/
def bounds (words : List (BitVec 32)) : List (BitVec 32 × BitVec 32) := words.zip words.tail

/-- The offsets of a slot, taken as sizes, are in order and stay within `length` values. -/
def Cuttable (length : Nat) (slot : BitVec 32 × BitVec 32) : Prop :=
  wordSize slot.1 ≤ wordSize slot.2 ∧ wordSize slot.2 ≤ length

instance (length : Nat) (slot : BitVec 32 × BitVec 32) : Decidable (Cuttable length slot) :=
  inferInstanceAs (Decidable (_ ∧ _))

/-- The offsets of a slot, taken as the numbers they are, are in order and stay within
`length` values. -/
def InRange (length : Nat) (slot : BitVec 32 × BitVec 32) : Prop :=
  0 ≤ slot.1.toInt ∧ slot.1.toInt ≤ slot.2.toInt ∧ slot.2.toInt ≤ length

instance (length : Nat) (slot : BitVec 32 × BitVec 32) : Decidable (InRange length slot) :=
  inferInstanceAs (Decidable (_ ∧ _ ∧ _))

/-- The collection that slot `i` of a list array holds, when its offsets can be cut: nothing
beneath a null, an empty one between two equal offsets, else the values between them. -/
def collectionAt (values : List α) (validity : Option Mask) (i : Nat)
    (slot : BitVec 32 × BitVec 32) : Collection α :=
  if validity.any (·[i]? == some false) then .unset
  else if slot.1 = slot.2 then .empty
  else .populated ((values.drop (wordSize slot.1)).take (wordSize slot.2 - wordSize slot.1))

/-- The model of offsets as numbers takes the same size from a word. -/
theorem offsetSize_toInt (word : BitVec 32) : offsetSize word.toInt = wordSize word := rfl

/-- An offset that is not negative is a size as it is. -/
theorem wordSize_of_nonneg {word : BitVec 32} (h : 0 ≤ word.toInt) :
    (wordSize word : Int) = word.toInt := by
  have hlt : word.toInt < 2 ^ 31 := BitVec.toInt_lt
  rw [wordSize, BitVec.signExtend, BitVec.toNat_ofInt]
  omega

/-- A negative offset is one of the largest sizes. -/
theorem wordSize_of_neg {word : BitVec 32} (h : word.toInt < 0) :
    Size.max ≤ wordSize word + Offsets.maxOffset := by
  have hle : -2 ^ 31 ≤ word.toInt := BitVec.le_toInt word
  rw [wordSize, BitVec.signExtend, BitVec.toNat_ofInt, Size.max, Offsets.maxOffset]
  omega

/-- Offsets that are the same as sizes are the same words. -/
theorem wordSize_inj {start stop : BitVec 32} (h : wordSize start = wordSize stop) :
    start = stop := by
  apply BitVec.eq_of_toInt_eq
  rw [← BitVec.toInt_signExtend_of_le (x := start) (show 32 ≤ 64 by decide),
    ← BitVec.toInt_signExtend_of_le (x := stop) (show 32 ≤ 64 by decide), BitVec.eq_of_toNat_eq h]

/-- Of less than the largest numbers of values, just the slots with offsets in range can be
cut. -/
theorem cuttable_iff_inRange {length : Nat} (hcount : length + Offsets.maxOffset < Size.max)
    (slot : BitVec 32 × BitVec 32) : Cuttable length slot ↔ InRange length slot := by
  obtain ⟨start, stop⟩ := slot
  rw [Cuttable, InRange]
  dsimp only
  by_cases hstop : stop.toInt < 0
  · -- A negative end is past all values.
    have hlarge := wordSize_of_neg hstop
    omega
  · have hlast := wordSize_of_nonneg (Int.not_lt.1 hstop)
    by_cases hstart : start.toInt < 0
    · -- A negative start is past every end that is not negative.
      have hlarge := wordSize_of_neg hstart
      have hlt : stop.toInt < 2 ^ 31 := BitVec.toInt_lt
      rw [Size.max, Offsets.maxOffset] at hlarge
      omega
    · have hfirst := wordSize_of_nonneg (Int.not_lt.1 hstart)
      omega

/-- A mask that is long enough has a flag for the slot, which tells whether the slot is null. -/
theorem flagAt_eq {i : Nat} (hmask : ∀ mask ∈ validity, i < mask.length) :
    flagAt validity i = .ok (!validity.any (·[i]? == some false)) := by
  cases validity with
  | none => rfl
  | some mask =>
    have hi := hmask mask rfl
    rw [flagAt_some hi, Option.any_some, List.getElem?_eq_getElem hi]
    cases mask[i] <;> rfl

/-- What is cut between two sizes in order is the collection in the slot. -/
theorem cutList_eq_collectionAt {i : Nat} {start stop : BitVec 32}
    (hmask : ∀ mask ∈ validity, i < mask.length) (h : Cuttable values.length (start, stop)) :
    cutList values validity i (wordSize start) (wordSize stop) =
      .ok (collectionAt values validity i (start, stop)) := by
  rw [cutList_eq (flagAt_eq hmask) h.1 h.2, collectionAt]
  cases validity.any (·[i]? == some false) with
  | true => rfl
  | false =>
    by_cases hsame : start = stop
    · rw [if_neg Bool.false_ne_true, if_pos hsame, hsame, Nat.sub_self, List.take_zero]
      rfl
    · have hne : wordSize start ≠ wordSize stop := fun h => hsame (wordSize_inj h)
      have hsome : (values.drop (wordSize start)).take (wordSize stop - wordSize start) ≠ [] := by
        have hle : wordSize start ≤ wordSize stop := h.1
        have hlength : wordSize stop ≤ values.length := h.2
        apply List.ne_nil_of_length_pos
        rw [List.length_take, List.length_drop]
        omega
      rw [if_neg Bool.false_ne_true, if_neg hsame, ← Collection.ofList_of_ne_nil hsome]
      rfl

/-- A slot that can be cut is cut before the slots behind it, any other is reported. -/
theorem cutLists_cons (start stop : BitVec 32) (words : List (BitVec 32)) {i : Nat}
    (hmask : ∀ mask ∈ validity, i < mask.length) :
    cutLists values validity ((start :: stop :: words).map BitVec.toInt) i =
      if Cuttable values.length (start, stop) then
        (cutLists values validity ((stop :: words).map BitVec.toInt) (i + 1)).map
          (collectionAt values validity i (start, stop) :: ·)
      else .error (.offsetsOutOfBounds (wordSize start) (wordSize stop) values.length) := by
  rw [List.map_cons, List.map_cons, cutLists, offsetSize_toInt, offsetSize_toInt]
  by_cases h : Cuttable values.length (start, stop)
  · have hslot := cutList_eq_collectionAt hmask h
    have hin : ¬ (wordSize stop < wordSize start ∨ values.length < wordSize stop) := by
      rintro (hlt | hlt)
      · exact absurd h.1 (Nat.not_le.2 hlt)
      · exact absurd h.2 (Nat.not_le.2 hlt)
    rw [if_neg hin, if_pos h, hslot]
  · have hout : wordSize stop < wordSize start ∨ values.length < wordSize stop := by
      rcases Nat.lt_or_ge (wordSize stop) (wordSize start) with hlt | hle
      · exact .inl hlt
      · exact .inr (Nat.lt_of_not_ge fun hlength => h ⟨hle, hlength⟩)
    rw [if_pos hout, if_neg h]

/-- What is read from a list array, given the values of its child: the first slot that cannot
be cut is reported, and without one every slot is cut. -/
def cutting (values : List α) (validity : Option Mask) (words : List (BitVec 32)) (i : Nat) :
    Except Fault (List (Collection α)) :=
  match (bounds words).find? fun slot => ¬ Cuttable values.length slot with
  | some (start, stop) =>
    .error (.offsetsOutOfBounds (wordSize start) (wordSize stop) values.length)
  | none => .ok (((bounds words).zipIdx i).map fun (slot, k) => collectionAt values validity k slot)

/-- Lists are cut slot by slot, up to the first one that cannot be cut. -/
theorem cutLists_eq_cutting {words : List (BitVec 32)} {i : Nat}
    (hmask : ∀ mask ∈ validity, words.length - 1 + i ≤ mask.length) :
    cutLists values validity (words.map BitVec.toInt) i = cutting values validity words i := by
  induction words generalizing i with
  | nil => rfl
  | cons start words ih =>
    cases words with
    | nil => rfl
    | cons stop words =>
      have hflag : ∀ mask ∈ validity, i < mask.length := by
        intro mask hmem
        have hle := hmask mask hmem
        simp only [List.length_cons] at hle
        omega
      have hlater : ∀ mask ∈ validity, (stop :: words).length - 1 + (i + 1) ≤ mask.length := by
        intro mask hmem
        have hle := hmask mask hmem
        simp only [List.length_cons] at hle ⊢
        omega
      have hbounds :
          bounds (start :: stop :: words) = (start, stop) :: bounds (stop :: words) := rfl
      rw [cutLists_cons start stop words hflag, ih hlater, cutting, cutting, hbounds]
      by_cases h : Cuttable values.length (start, stop)
      · rw [if_pos h, List.find?_cons_of_neg (by simpa using h)]
        cases (bounds (stop :: words)).find? fun slot => ¬ Cuttable values.length slot <;> rfl
      · rw [if_neg h, List.find?_cons_of_pos (by simpa using h)]

/-- What reading a list array comes to, whatever its offsets are, when its child has
the given values. -/
structure CutsUp (words : List (BitVec 32)) (validity : Option Mask) (values : List α)
    (read : Except Fault (List (Collection α))) : Prop where
  /-- It does not break off: nothing is taken from past the end of the values. -/
  unbroken (fault : Fault) : read = .error fault → fault.isBreak = false
  /-- There are lists exactly when every slot can be cut, null slots included. -/
  ok_iff : (∃ lists, read = .ok lists) ↔ ∀ slot ∈ bounds words, Cuttable values.length slot
  /-- There are as many lists as the list array has slots. -/
  length_eq (lists : List (Collection α)) : read = .ok lists → lists.length = words.length - 1
  /-- Each list is the collection that its slot holds. -/
  slot_eq (lists : List (Collection α)) : read = .ok lists → ∀ i slot,
    (bounds words)[i]? = some slot → lists[i]? = some (collectionAt values validity i slot)
  /-- The first slot that cannot be cut is reported. -/
  error_eq (start stop : BitVec 32) :
    ((bounds words).find? fun slot => ¬ Cuttable values.length slot) = some (start, stop) →
    read = .error (.offsetsOutOfBounds (wordSize start) (wordSize stop) values.length)
  /-- Of fewer values than the size of any negative offset, the slots that can be cut are those
  with offsets in range. -/
  cuttable_iff : values.length + Offsets.maxOffset < Size.max →
    ∀ slot, Cuttable values.length slot ↔ InRange values.length slot
  /-- In a slot whose offsets are in range the sizes that are cut between are these offsets. -/
  sizes_eq (slot : BitVec 32 × BitVec 32) : InRange values.length slot →
    (wordSize slot.1 : Int) = slot.1.toInt ∧ (wordSize slot.2 : Int) = slot.2.toInt

/-- There is a pair of offsets for each slot. -/
theorem length_bounds (words : List (BitVec 32)) : (bounds words).length = words.length - 1 := by
  rw [bounds, List.length_zip, List.length_tail]
  omega

/-- Offsets in range are the sizes they are taken as. -/
theorem wordSize_of_inRange {length : Nat} (slot : BitVec 32 × BitVec 32)
    (h : InRange length slot) :
    (wordSize slot.1 : Int) = slot.1.toInt ∧ (wordSize slot.2 : Int) = slot.2.toInt :=
  ⟨wordSize_of_nonneg h.1, wordSize_of_nonneg (Int.le_trans h.1 h.2.1)⟩

/-- Cutting lists out of values by any words comes to what it is meant to, if the mask has a flag
for each slot. -/
theorem cutsUp_cutLists {words : List (BitVec 32)}
    (hmask : ∀ mask ∈ validity, words.length - 1 ≤ mask.length) :
    CutsUp words validity values (cutLists values validity (words.map BitVec.toInt) 0) := by
  have hread : cutLists values validity (words.map BitVec.toInt) 0 =
      cutting values validity words 0 := cutLists_eq_cutting hmask
  rw [cutting] at hread
  cases hfirst : (bounds words).find? fun slot => ¬ Cuttable values.length slot with
  | some slot =>
    obtain ⟨start, stop⟩ := slot
    rw [hfirst] at hread
    have hout : ¬ ∀ slot ∈ bounds words, Cuttable values.length slot := by
      intro hall
      have hbad := List.find?_some hfirst
      simp [hall _ (List.mem_of_find?_eq_some hfirst)] at hbad
    constructor
    case unbroken =>
      intro fault hfault
      obtain rfl := Except.error.inj (hread.symm.trans hfault)
      rfl
    case ok_iff =>
      refine iff_of_false ?_ hout
      rintro ⟨lists, hlists⟩
      exact nomatch hread.symm.trans hlists
    case length_eq =>
      intro lists hlists
      exact nomatch hread.symm.trans hlists
    case slot_eq =>
      intro lists hlists
      exact nomatch hread.symm.trans hlists
    case error_eq =>
      intro start' stop' hsame
      obtain ⟨rfl, rfl⟩ := Prod.mk.inj (Option.some.inj (hfirst.symm.trans hsame))
      exact hread
    case cuttable_iff => exact cuttable_iff_inRange
    case sizes_eq => exact wordSize_of_inRange
  | none =>
    rw [hfirst] at hread
    constructor
    case unbroken =>
      intro fault hfault
      exact nomatch hread.symm.trans hfault
    case ok_iff => exact iff_of_true ⟨_, hread⟩ (by simpa using hfirst)
    case length_eq =>
      intro lists hlists
      obtain rfl := Except.ok.inj (hread.symm.trans hlists)
      rw [List.length_map, List.length_zipIdx, length_bounds]
    case slot_eq =>
      intro lists hlists i slot hslot
      obtain rfl := Except.ok.inj (hread.symm.trans hlists)
      rw [List.getElem?_map, List.getElem?_zipIdx, hslot, Nat.zero_add]
      rfl
    case error_eq =>
      intro start stop hsame
      exact nomatch hfirst.symm.trans hsame
    case cuttable_iff => exact cuttable_iff_inRange
    case sizes_eq => exact wordSize_of_inRange

end Chunk

/-- Three numbers. -/
private def three : List (ValueType.number .uint16).Datum := [7#16, 8#16, 9#16]

/-- A record without fields. -/
private def dot : ValueType := .record "Dot" .nil

/-- A record without fields is read from every row. -/
private theorem read_dots (n : Nat) :
    dot.read (.struct n .nil none) = .ok (List.replicate n ()) := by
  show FieldTypes.nil.takeRows "Dot" n () = _
  induction n with
  | zero => rfl
  | succ n ih =>
    show (FieldTypes.nil.takeRows "Dot" n ()).map (() :: ·) = _
    rw [ih]
    rfl

/-- From the last but one to the last size there is one record. -/
private theorem read_lastDots {n : Nat} (h : Chunk.Cuttable n (-2, -1)) :
    (ValueType.collection dot).read (.list "item" false [-2, -1] (.struct n .nil none) none) =
      .ok [.populated [()]] := by
  have hlast : Size.max ≤ n := h.2
  have hcollection :
      Chunk.collectionAt (List.replicate n ()) none 0 (-2, -1) = .populated [()] := by
    have hone : Chunk.wordSize (-1) - Chunk.wordSize (-2) = 1 := rfl
    have hsize : Chunk.wordSize (-2) + 1 = Size.max := rfl
    have hleft : 1 ≤ n - Chunk.wordSize (-2) := by omega
    rw [Chunk.collectionAt, if_neg (by simp), if_neg (by decide), List.drop_replicate,
      List.take_replicate, hone, Nat.min_eq_left hleft]
    rfl
  rw [dot.read_list, read_dots]
  show Chunk.cutLists (List.replicate n ()) none
    (([-2, -1] : List (BitVec 32)).map BitVec.toInt) 0 = _
  rw [Chunk.cutLists_cons (-2) (-1) [] (by simp), List.length_replicate, if_pos h, hcollection]
  rfl

end Columnar
