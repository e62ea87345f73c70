/-!
# Memory ledger

Storage that grows asks a **ledger** for every byte before using it, and gives
the bytes back when it is done.  A ledger either has a limit on what may be
lent out at one time, or grants everything.

A request is refused exactly when the amount lent out would pass the limit.
A refused request changes nothing but the list of requests, which records all
sizes that were ever asked for.
-/

namespace Columnar

/-- The largest size: sizes are 64 bit words. -/
def Size.max : Nat := 0xffffffffffffffff

/-- The sum of two sizes, when it is a size again. -/
def Size.add? (m n : Nat) : Option Nat :=
  if m + n ≤ Size.max then some (m + n) else none

/-- The product of two sizes, when it is a size again. -/
def Size.mul? (m n : Nat) : Option Nat :=
  if m * n ≤ Size.max then some (m * n) else none

/-- A sum of sizes that is a size is the sum. -/
theorem Size.add?_eq_some {a b c : Nat} (h : Size.add? a b = some c) :
    c = a + b ∧ a + b ≤ Size.max := by
  simp only [Size.add?, Option.ite_none_right_eq_some, Option.some.injEq] at h
  omega

/-- As long as the sum is a size it is found. -/
theorem Size.add?_of_le {a b : Nat} (h : a + b ≤ Size.max) : Size.add? a b = some (a + b) :=
  if_pos h

/-- A product of sizes that is a size is the product. -/
theorem Size.mul?_eq_some {a b c : Nat} (h : Size.mul? a b = some c) : c = a * b := by
  simp only [Size.mul?, Option.ite_none_right_eq_some, Option.some.injEq] at h
  exact h.2.symm

/-- A request for memory that was not granted, as it is reported to whoever made it. -/
structure Refusal where
  /-- How many bytes were asked for in the request that was refused. -/
  requested : Nat
  /-- How many bytes could have been granted, where that is known. -/
  available : Option Nat
deriving DecidableEq, Repr

namespace Refusal

/-- The refusal of a size that no memory can have. -/
def overflow : Refusal := ⟨Size.max, none⟩

def message (r : Refusal) : String :=
  let head := s!"failed to allocate {r.requested} bytes"
  match r.available with
  | none => head
  | some n => head ++ s!", only {n} bytes available"

end Refusal

/-- What is lent out, under which limit, and what was asked for so far. -/
structure Ledger where
  /-- The most that may be lent out at one time; `none` grants everything. -/
  limit : Option Nat := none
  /-- Bytes that are lent out now. -/
  lent : Nat := 0
  /-- Every size that was asked for, the latest first. -/
  requests : List Nat := []
deriving DecidableEq, Repr

namespace Ledger

/-- Whether `n` more bytes on top of what is lent stay within the limit, which is what decides about
a request. -/
def admits (m : Ledger) (n : Nat) : Bool :=
  match m.limit with
  | none => true
  | some limit => decide (m.lent + n ≤ limit)

/-- What is left under the limit for further requests, if there is a limit. -/
def available (m : Ledger) : Option Nat :=
  m.limit.map (· - m.lent)

/-- Asks for `n` bytes.  The answer is `none` when they are granted. -/
def ask (m : Ledger) (n : Nat) : Option Refusal × Ledger :=
  let asked := { m with requests := n :: m.requests }
  if m.admits n then (none, { asked with lent := m.lent + n })
  else (some ⟨n, m.available⟩, asked)

/-- Takes `n` bytes back.  No more can come back than was lent. -/
def giveBack (m : Ledger) (n : Nat) : Ledger :=
  { m with lent := m.lent - n }

/-- A granted request lends out exactly what was asked for. -/
theorem lent_ask_of_admits {m : Ledger} {n : Nat} (h : m.admits n = true) :
    (m.ask n).2.lent = m.lent + n := by
  simp [ask, h]

/-- A request that the limit refuses leaves what is lent as it was. -/
theorem lent_ask_of_not_admits {m : Ledger} {n : Nat} (h : m.admits n = false) :
    (m.ask n).2.lent = m.lent := by
  simp [ask, h]

/-- Giving nothing back leaves a ledger as it was. -/
@[simp] theorem giveBack_zero (m : Ledger) : m.giveBack 0 = m := rfl

/-- Giving back two amounts one after the other leaves a ledger as giving back their sum does. -/
theorem giveBack_giveBack (m : Ledger) (a b : Nat) :
    (m.giveBack a).giveBack b = m.giveBack (a + b) := by
  simp [giveBack, Nat.sub_sub]

end Ledger

end Columnar
