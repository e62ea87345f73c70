import Columnar.Buffer
import Columnar.Chunk.Basic
import Columnar.Chunk.Select
import Columnar.Layout.Cell
/-!
# Slots of sound chunks

`Layout.chunk` makes the canonical chunk of some slots, and `Layout.cells` reads the slots of
any chunk.  Only what the slots refer to is read: what lies beneath a null or between the
slots plays no part, and neither does where the offsets start.  Many chunks have the same
slots; the canonical one is `Chunk.Tight`: its offsets start at zero and end where the content
ends, at every depth.

A chunk is sound when its parts fit together: a mask has one bit per slot, offsets are signed
32 bit words in order that stay within what they point into, the columns of a struct are as
long as the struct, the bytes of a text are the bytes of a text, and there is no null where
the datatype forbids one, except beneath a null.  Windows of sound chunks are sound: offsets
may start past zero, and content that no slot refers to may be there.

What slots are chosen by is less than that: a chunk is even when its parts are as long as they
have to be, whatever they hold.  A mask that is no longer than an even chunk can always choose
from it: `Chunk.Even.filter_eq`.
-/

namespace Columnar

/-- The members of a list in the slots that a mask marks; the others are null. -/
def Chunk.shown {α : Type} (validity : Option Mask) (xs : List α) : List (Option α) :=
  match validity with
  | none => xs.map some
  | some mask => List.zipWith (fun valid x => if valid then some x else none) mask xs

/-- The offsets of lists that lie one after the other from zero on. -/
def Chunk.offsetsOf {α : Type} (lists : List (List α)) : List Int :=
  Chunk.offsetsFrom 0 (lists.map List.length)

mutual

/-- The canonical chunk of some slots: with a mask if some slot is null, zero beneath nulls, and
offsets that leave no gaps. -/
def Layout.chunk : (layout : Layout) → List (Option layout.Cell) → Chunk
  | .boolean, (slots : List (Option Bool)) =>
    .boolean (slots.map (·.getD false)) (Mask.ofSlots slots)
  | .number kind, (slots : List (Option kind.Carrier)) =>
    .number kind (slots.map (·.getD 0)) (Mask.ofSlots slots)
  | .binary, (slots : List (Option (List UInt8))) =>
    .binary (Chunk.offsetsOf (slotLists slots)) (slotLists slots).flatten (Mask.ofSlots slots)
  | .utf8, (slots : List (Option String)) =>
    let strings := slots.map (·.map Text.encode)
    .utf8 (Chunk.offsetsOf (slotLists strings)) (slotLists strings).flatten (Mask.ofSlots slots)
  | .list item nullable, (slots : List (Option (List (Option item.Cell)))) =>
    .list Layout.itemName nullable (Chunk.offsetsOf (slotLists slots))
      (item.chunk (slotLists slots).flatten) (Mask.ofSlots slots)
  | .struct fields, (rows : List (Option fields.Cells)) =>
    .struct rows.length (fields.chunks rows) (Mask.ofSlots rows)

/-- The canonical columns of some rows; a null row is null in every column. -/
def LayoutFields.chunks : (fields : LayoutFields) → List (Option fields.Cells) → Chunks
  | .nil, _ => .nil
  | .cons name layout nullable rest, (rows : List (Option (Option layout.Cell × rest.Cells))) =>
    .cons name nullable (layout.chunk (rows.map (·.bind Prod.fst)))
      (rest.chunks (rows.map (·.map Prod.snd)))

end

mutual

/-- The slots of a chunk that fits the layout, each null or with the cell that it holds. -/
def Layout.cells : (layout : Layout) → Chunk → List (Option layout.Cell)
  | .boolean, .boolean values validity => Chunk.shown validity values
  | .number kind, .number kind' values validity =>
    if same : kind' = kind then Chunk.shown validity (same ▸ values) else []
  | .binary, .binary offsets content validity =>
    Chunk.shown validity (Chunk.contents offsets content)
  | .utf8, .utf8 offsets content validity =>
    Chunk.shown validity ((Chunk.contents offsets content).map Text.decode)
  | .list item _, .list _ _ offsets child validity =>
    Chunk.shown validity (Chunk.contents offsets (item.cells child))
  | .struct fields, .struct length columns validity =>
    Chunk.shown validity (fields.rows length columns)
  | _, _ => []

/-- The rows of so many slots of columns. -/
def LayoutFields.rows : (fields : LayoutFields) → Nat → Chunks → List fields.Cells
  | .nil, length, _ => List.replicate length ()
  | .cons _ layout _ rest, length, .cons _ _ column columns =>
    (layout.cells column).zip (rest.rows length columns)
  | .cons .., _, .nil => []

end

mutual

/-- The offsets start at zero and end where the content ends, at every depth. -/
def Chunk.Tight : Chunk → Prop
  | .utf8 offsets content _ =>
    offsets.head? = some 0 ∧ offsets.getLast? = some (content.length : Int)
  | .binary offsets content _ =>
    offsets.head? = some 0 ∧ offsets.getLast? = some (content.length : Int)
  | .list _ _ offsets child _ =>
    offsets.head? = some 0 ∧ offsets.getLast? = some (child.length : Int) ∧ child.Tight
  | .struct _ columns _ => columns.Tight
  | _ => True

/-- Every column is tight. -/
def Chunks.Tight : Chunks → Prop
  | .nil => True
  | .cons _ _ column rest => column.Tight ∧ rest.Tight

end

namespace Chunk

/-- A mask, if there is one, has one bit per slot. -/
def MaskFits (slots : Nat) (validity : Option Mask) : Prop :=
  ∀ mask ∈ validity, mask.length = slots

/-- Offsets are words in order and stay within `length` items. -/
def OffsetsFit (offsets : List Int) (length : Nat) : Prop :=
  offsets ≠ [] ∧
    (∀ offset ∈ offsets, 0 ≤ offset ∧ offset ≤ length ∧ offset ≤ Offsets.maxOffset) ∧
    offsets.Pairwise (· ≤ ·)

/-- Whether slot `i` is null. -/
def isNullAt (chunk : Chunk) (i : Nat) : Bool :=
  chunk.logicalValidity.elim false fun mask => mask[i]? == some false

/-- The bytes of every slot are the bytes of a text. -/
def TextsFit (offsets : List Int) (content : List UInt8) : Prop :=
  ∀ bytes ∈ contents offsets content, ByteArray.IsValidUTF8 ⟨bytes.toArray⟩

end Chunk

mutual

/-- The parts of the chunk fit together at every depth, as they do in every array that was
validated, and in windows of such arrays. -/
def Chunk.Sound : Chunk → Prop
  | .boolean values validity => Chunk.MaskFits values.length validity
  | .number _ values validity => Chunk.MaskFits values.length validity
  | .utf8 offsets content validity =>
    Chunk.OffsetsFit offsets content.length ∧ Chunk.MaskFits (offsets.length - 1) validity ∧
      Chunk.TextsFit offsets content
  | .binary offsets content validity =>
    Chunk.OffsetsFit offsets content.length ∧ Chunk.MaskFits (offsets.length - 1) validity
  | .list _ nullable offsets child validity =>
    Chunk.OffsetsFit offsets child.length ∧ Chunk.MaskFits (offsets.length - 1) validity ∧
      (nullable = false → ∀ i < child.length, child.isNullAt i = false) ∧ child.Sound
  | .struct length columns validity =>
    Chunk.MaskFits length validity ∧ columns.Sound length validity
  | .foreign type length validity logical =>
    type.isForeign = true ∧ Chunk.MaskFits length validity ∧ Chunk.MaskFits length logical

/-- The columns fit a struct of the given length and mask. -/
def Chunks.Sound (length : Nat) (validity : Option Mask) : Chunks → Prop
  | .nil => True
  | .cons _ nullable column rest =>
    column.length = length ∧
      (nullable = false →
        ∀ i < length, column.isNullAt i = true → validity.any (·[i]? == some false) = true) ∧
      column.Sound ∧ rest.Sound length validity

end

mutual

/-- The parts of the chunk are as long as they have to be. -/
def Chunk.Even : Chunk → Prop
  | .boolean values validity => Chunk.MaskFits values.length validity
  | .number _ values validity => Chunk.MaskFits values.length validity
  | .utf8 offsets content validity =>
    Chunk.OffsetsFit offsets content.length ∧ Chunk.MaskFits (offsets.length - 1) validity
  | .binary offsets content validity =>
    Chunk.OffsetsFit offsets content.length ∧ Chunk.MaskFits (offsets.length - 1) validity
  | .list _ _ offsets child validity =>
    Chunk.OffsetsFit offsets child.length ∧ Chunk.MaskFits (offsets.length - 1) validity ∧
      child.Even
  | .struct length columns validity => Chunk.MaskFits length validity ∧ columns.Even length
  | .foreign _ length validity logical =>
    Chunk.MaskFits length validity ∧ Chunk.MaskFits length logical

/-- The columns are even and of the given length. -/
def Chunks.Even (length : Nat) : Chunks → Prop
  | .nil => True
  | .cons _ _ column rest => column.length = length ∧ column.Even ∧ rest.Even length

end

mutual

/-- A sound chunk is even. -/
theorem Chunk.Sound.even : {chunk : Chunk} → chunk.Sound → chunk.Even
  | .boolean .., h => h
  | .number .., h => h
  | .utf8 .., ⟨hoffsets, hmask, _⟩ => ⟨hoffsets, hmask⟩
  | .binary .., h => h
  | .list .., ⟨hoffsets, hmask, _, hchild⟩ => ⟨hoffsets, hmask, hchild.even⟩
  | .struct .., ⟨hmask, hcolumns⟩ => ⟨hmask, hcolumns.even⟩
  | .foreign .., ⟨_, hmask, hlogical⟩ => ⟨hmask, hlogical⟩

/-- The columns of a sound struct are even. -/
theorem Chunks.Sound.even {length : Nat} {validity : Option Mask} : {columns : Chunks} →
    columns.Sound length validity → columns.Even length
  | .nil, _ => trivial
  | .cons .., ⟨hlength, _, hcolumn, hrest⟩ => ⟨hlength, hcolumn.even, hrest.even⟩

end

mutual

/-- No array in an even chunk is shorter than the chunk. -/
theorem Chunk.Even.shorterThan?_eq_none {n : Nat} : {chunk : Chunk} → chunk.Even →
    n ≤ chunk.length → chunk.shorterThan? n = none
  | .struct .., ⟨_, hcolumns⟩, hle =>
    (if_neg (Nat.not_lt.2 hle)).trans (hcolumns.shorterThan?_eq_none hle)
  | .boolean .., _, hle => if_neg (Nat.not_lt.2 hle)
  | .number .., _, hle => if_neg (Nat.not_lt.2 hle)
  | .utf8 .., _, hle => if_neg (Nat.not_lt.2 hle)
  | .binary .., _, hle => if_neg (Nat.not_lt.2 hle)
  | .list .., _, hle => if_neg (Nat.not_lt.2 hle)
  | .foreign .., _, hle => if_neg (Nat.not_lt.2 hle)

/-- No array in even columns is shorter than they are. -/
theorem Chunks.Even.shorterThan?_eq_none {n length : Nat} : {columns : Chunks} →
    columns.Even length → n ≤ length → columns.shorterThan? n = none
  | .nil, _, _ => rfl
  | .cons .., ⟨hlength, hcolumn, hrest⟩, hle => by
    rw [Chunks.shorterThan?, hcolumn.shorterThan?_eq_none (hlength ▸ hle)]
    exact hrest.shorterThan?_eq_none hle

end

/-- A mask that is no longer than an even chunk can choose from it. -/
theorem Chunk.Even.filter_eq {chunk : Chunk} {mask : Mask} (heven : chunk.Even)
    (hle : mask.length ≤ chunk.length) : chunk.filter mask = .ok (chunk.keep mask.runs) := by
  rw [Chunk.filter, heven.shorterThan?_eq_none hle, if_neg (Nat.not_lt.2 hle), ite_self]

mutual

/-- Whether there is a struct without columns in the chunk, other than in the items of
lists. -/
def Chunk.hasEmptyStruct : Chunk → Bool
  | .struct _ columns _ => columns.toList.isEmpty || columns.haveEmptyStruct
  | _ => false

/-- Whether there is a struct without columns in some column. -/
def Chunks.haveEmptyStruct : Chunks → Bool
  | .nil => false
  | .cons _ _ column rest => column.hasEmptyStruct || rest.haveEmptyStruct

end

end Columnar
