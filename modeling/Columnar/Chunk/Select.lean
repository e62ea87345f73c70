import Columnar.Chunk.Basic
import Columnar.Fault
/-!
# Choosing slots

`Chunk.slice` is a window of a chunk.  It shares what the chunk holds: a
window of lists keeps the whole child and a window of the offsets.

`Chunk.select` builds a new chunk of the slots in given spans.  A span of lists
brings along the items from its first offset to its last and nothing else, so
items of lists that were not chosen are gone.  Offsets that nobody checked stay
as they were but for the start of their span: an offset inside of a span may
point anywhere, and does so afterwards.  `Chunk.keep` does the same for a whole
column, except that a struct takes its length from its first column and has
none without columns.

`Chunk.filter` keeps the slots that a mask marks.  The mask may not be longer
than the chunk, nor than the columns of a struct: a struct without columns has
lost its slots once it was filtered, and a mask for them fits it no more.
-/

namespace Columnar

/-- Neighbouring slots or items: the first and the one after the last.  Offsets
that nobody checked make spans that descend or reach outside. -/
structure Span where
  first : Int
  last : Int
deriving DecidableEq, Repr

/-- How many slots a span has; it counts below zero if it descends. -/
def Span.length (span : Span) : Int := span.last - span.first

/-- The runs of marked slots in a mask whose first slot is `i`. -/
def Mask.runsFrom : Int → Mask → List Span
  | _, [] => []
  | i, false :: mask => runsFrom (i + 1) mask
  | i, true :: mask =>
    match runsFrom (i + 1) mask with
    | [] => [⟨i, i + 1⟩]
    | run :: runs =>
      if run.first = i + 1 then ⟨i, run.last⟩ :: runs else ⟨i, i + 1⟩ :: run :: runs

/-- The runs of marked slots in a mask: each is as long as it can be, and they are in order. -/
def Mask.runs (mask : Mask) : List Span := mask.runsFrom 0

namespace Chunk

/-- The members of a list in a span, from its first place up to its last. -/
def cut {α : Type} (xs : List α) (span : Span) : List α :=
  (xs.drop span.first.toNat).take span.length.toNat

/-- The members of a list in the given spans. -/
def pick {α : Type} (spans : List Span) (xs : List α) : List α :=
  spans.flatMap (cut xs)

/-- Bits as they are stored, in whole bytes.  Those past the end are not set. -/
def wholeBytes (bits : List Bool) : List Bool :=
  bits ++ List.replicate (7 - (bits.length + 7) % 8) false

/-- The bits in the given spans, which may reach past the last bit. -/
def pickBits (spans : List Span) (bits : List Bool) : List Bool :=
  pick spans (wholeBytes bits)

/-- The bits of a mask in the given spans, if the mask marks a null at all. -/
def pickMask (spans : List Span) (validity : Option Mask) : Option Mask :=
  (validity.filter (0 < Mask.nullCount ·)).map (pickBits spans)

/-- How many slots there are in the given spans.  A descending span takes slots
away again. -/
def spansLength : List Span → Int
  | [] => 0
  | span :: spans => span.length + spansLength spans

/-- The span of items of each slot, from its offset to the one behind it. -/
def itemSpans (offsets : List Int) : List Span := List.zipWith Span.mk offsets offsets.tail

/-- What the slots refer to, slot by slot. -/
def contents {α : Type} (offsets : List Int) (content : List α) : List (List α) :=
  (itemSpans offsets).map (cut content)

/-- Offsets, from a start, of slots as long as the given spans. -/
def rebase (start : Int) : List Span → List Int
  | [] => [start]
  | span :: spans => start :: rebase (start + span.length) spans

/-- There is one offset more than there are slots. -/
theorem length_rebase (start : Int) (spans : List Span) :
    (rebase start spans).length = spans.length + 1 := by
  induction spans generalizing start with
  | nil => rfl
  | cons span spans ih => simp [rebase, ih]

/-- The offsets of the slots in the given spans, which start at zero: one more
than there are slots. -/
def pickOffsets (spans : List Span) (offsets : List Int) : List Int :=
  (rebase 0 (spans.flatMap fun span => itemSpans (cut offsets ⟨span.first, span.last + 1⟩))).take
    (spansLength spans + 1).toNat

/-- For each span of slots the span of their items. -/
def descend (spans : List Span) (offsets : List Int) : List Span :=
  spans.map fun span => ⟨offsets.getD span.first.toNat 0, offsets.getD span.last.toNat 0⟩

end Chunk

mutual

/-- The slots in the given spans, in that order. -/
def Chunk.select (spans : List Span) : Chunk → Chunk
  | .boolean values validity =>
    .boolean (Chunk.pickBits spans values) (Chunk.pickMask spans validity)
  | .number kind values validity =>
    .number kind (Chunk.pick spans values) (Chunk.pickMask spans validity)
  | .utf8 offsets content validity =>
    .utf8 (Chunk.pickOffsets spans offsets) (Chunk.pick (Chunk.descend spans offsets) content)
      (Chunk.pickMask spans validity)
  | .binary offsets content validity =>
    .binary (Chunk.pickOffsets spans offsets) (Chunk.pick (Chunk.descend spans offsets) content)
      (Chunk.pickMask spans validity)
  | .list item nullable offsets child validity =>
    .list item nullable (Chunk.pickOffsets spans offsets)
      (child.select (Chunk.descend spans offsets)) (Chunk.pickMask spans validity)
  | .struct _ columns validity =>
    .struct (Chunk.spansLength spans).toNat (columns.select spans)
      (Chunk.pickMask spans validity)
  | .foreign type _ validity logical =>
    .foreign type (Chunk.spansLength spans).toNat (Chunk.pickMask spans validity)
      (Chunk.pickMask spans logical)

/-- The slots in the given spans, in every column. -/
def Chunks.select (spans : List Span) : Chunks → Chunks
  | .nil => .nil
  | .cons name nullable column rest =>
    .cons name nullable (column.select spans) (rest.select spans)

end

mutual

/-- The slots of a column in the given spans.  The length of a struct is that
of its first column. -/
def Chunk.keep (spans : List Span) : Chunk → Chunk
  | .struct _ columns validity =>
    let columns := columns.keep spans
    .struct columns.firstLength columns (Chunk.pickMask spans validity)
  | chunk => chunk.select spans

/-- The slots of every column in the given spans. -/
def Chunks.keep (spans : List Span) : Chunks → Chunks
  | .nil => .nil
  | .cons name nullable column rest =>
    .cons name nullable (column.keep spans) (rest.keep spans)

end

mutual

/-- The length of the first array with less than `n` slots, the chunk before
its columns. -/
def Chunk.shorterThan? (n : Nat) : Chunk → Option Nat
  | .struct length columns _ =>
    if length < n then some length else columns.shorterThan? n
  | chunk => if chunk.length < n then some chunk.length else none

/-- The length of the first array with less than `n` slots in the columns. -/
def Chunks.shorterThan? (n : Nat) : Chunks → Option Nat
  | .nil => none
  | .cons _ _ column rest =>
    match column.shorterThan? n with
    | some length => some length
    | none => rest.shorterThan? n

end

/-- The slots that a mask marks.  A mask that marks none leaves nothing of the
columns, so it need not fit them. -/
def Chunk.filter (mask : Mask) (chunk : Chunk) : Except Fault Chunk :=
  let tooShort :=
    if mask.contains true then chunk.shorterThan? mask.length
    else if chunk.length < mask.length then some chunk.length
    else none
  match tooShort with
  | some length => .error (.maskTooLong mask.length length)
  | none => .ok (chunk.keep mask.runs)

mutual

/-- The window of `n` slots from slot `first` on. -/
def Chunk.slice (first n : Nat) : Chunk → Chunk
  | .boolean values validity => .boolean (window values) (validity.map window)
  | .number kind values validity => .number kind (window values) (validity.map window)
  | .utf8 offsets content validity =>
    .utf8 ((offsets.drop first).take (n + 1)) content (validity.map window)
  | .binary offsets content validity =>
    .binary ((offsets.drop first).take (n + 1)) content (validity.map window)
  | .list item nullable offsets child validity =>
    .list item nullable ((offsets.drop first).take (n + 1)) child (validity.map window)
  | .struct _ columns validity =>
    .struct n (columns.slice first n) (validity.map window)
  | .foreign type _ validity logical =>
    .foreign type n (validity.map window) (logical.map window)
where
  window {α : Type} (xs : List α) : List α := (xs.drop first).take n

/-- The window of `n` slots of every column. -/
def Chunks.slice (first n : Nat) : Chunks → Chunks
  | .nil => .nil
  | .cons name nullable column rest =>
    .cons name nullable (column.slice first n) (rest.slice first n)

end

end Columnar
