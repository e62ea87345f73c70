import Columnar.Layout.Basic
import Columnar.Ledger
/-!
# Faults

Every way in which an operation on columns can end without doing its work.  A
fault records its cause; `Fault.message` is the text that is shown for it.
A fault found deep inside a value carries the places it was found in, the
outermost first; `Fault.root` is the fault without them.
-/

namespace Columnar

/-- Why an argument does not fit the operation that it was given to. -/
inductive BadArgument where
  | described (text : String)
  /-- An offset that does not fit a signed 32 bit word. -/
  | offsetTooLarge (offset : Nat)
  | wrongWriter (expected : String) (actual : DataType)
  | noFieldAt (index count : Nat)
  | noFieldNamed (name : String)
  | duplicateField (name : String)
  | unsupportedType (type : DataType)
  | tooFewRecords (component : String) (asked given : Nat)
  | wrongLayout (component : String) (held wanted : Layout)
  | wrongComponent (held wanted : String)
deriving DecidableEq

/-- Why the operation does not fit the state of the writer. -/
inductive BadState where
  | described (text : String)
  | offsetDescends (offset last : Int)
  /-- A column of a struct does not hold exactly one value for the row. -/
  | unevenRow (field : String) (held rows : Nat)
  | alreadyFinished
  | failedBefore
deriving DecidableEq

/-- Which data an array lacks that reading it asks for. -/
inductive MissingData where
  | described (text : String)
  | nulls (count length : Nat) (type : DataType)
  | tooFewValues
  | noSuchColumn
  | shortColumn
deriving DecidableEq

/-- Why an operation breaks off in the middle instead of replying.  Nothing is reported then:
whoever waits for the reply breaks off as well, and nobody calls the storage again. -/
inductive Break where
  /-- Two counts are added up unchecked, and the sum is no size. -/
  | sumTooLarge
  /-- The flag of a slot is looked up in a mask that ends before the slot. -/
  | maskTooShort
  /-- Members of a list are taken from one place up to another that do not lie in it in order. -/
  | rangeOutside (first last length : Nat)
deriving DecidableEq

/-- A reason why an operation did not do its work. -/
inductive Fault where
  | invalidArgument (cause : BadArgument)
  | invalidState (cause : BadState)
  | outOfMemory (refusal : Refusal)
  | typeMismatch (expected actual : DataType)
  | offsetsOutOfBounds (first last length : Nat)
  | missingData (cause : MissingData)
  /-- A computation on arrays failed, with the text that it left. -/
  | computation (text : String)
  /-- A mask has more slots than the array that it chooses from. -/
  | maskTooLong (mask length : Nat)
  /-- The operation gives no reply at all: it broke off, and its caller with it. -/
  | brokenOff (cause : Break)
  /-- The fault was found at a place inside a value. -/
  | within (place : String) (fault : Fault)
deriving DecidableEq

def BadArgument.message : BadArgument → String
  | described text => text
  | offsetTooLarge offset => s!"list offset {offset} exceeds the i32 range"
  | wrongWriter expected actual =>
    "expected " ++ expected ++ " builder, but got a builder of " ++ actual.render
  | noFieldAt index count =>
    s!"field index {index} is out of bounds of a struct with {count} fields"
  | noFieldNamed name => "struct has no field `" ++ name ++ "`"
  | duplicateField name => "duplicate struct field `" ++ name ++ "`"
  | unsupportedType type => "unsupported arrow type - " ++ type.render
  | tooFewRecords component asked given =>
    component ++ s!": asked to fill {asked} records, but only {given} were given"
  | wrongLayout component held wanted =>
    component ++ ": builder of " ++ held.render ++ " can't hold " ++ wanted.render
  | wrongComponent held wanted =>
    "column holds " ++ held ++ ", but " ++ wanted ++ " was requested"

def BadState.message : BadState → String
  | described text => text
  | offsetDescends offset last =>
    s!"offsets must be monotonic, but got {offset} after {last}"
  | unevenRow field held rows =>
    "struct field `" ++ field ++ s!"` holds {held} values, but the row count is {rows}"
  | alreadyFinished => "builder is already finished"
  | failedBefore => "builder is unusable after a failed operation"

def MissingData.message : MissingData → String
  | described text => text
  | nulls count length type =>
    s!"{count} of {length} values of a non-nullable " ++ type.render ++ " column are null"
  | tooFewValues => "fewer values than valid slots"
  | noSuchColumn => "field is not present"
  | shortColumn => "child array is shorter than the struct"

def Break.message : Break → String
  | sumTooLarge => "attempt to add with overflow"
  | maskTooShort => "assertion failed: idx < self.len"
  | rangeOutside first last length =>
    if last < first then s!"slice index starts at {first} but ends at {last}"
    else s!"range end index {last} out of range for slice of length {length}"

namespace Fault

/-- The text that is shown for a fault. -/
def message : Fault → String
  | invalidArgument cause => "invalid argument: " ++ cause.message
  | invalidState cause => "invalid state: " ++ cause.message
  | outOfMemory refusal => refusal.message
  | typeMismatch expected actual =>
    "datatype mismatch: expected " ++ expected.render ++ ", but got " ++ actual.render
  | offsetsOutOfBounds first last length =>
    s!"offsets {first}..{last} are out of bounds of a child array with {length} elements"
  | missingData cause => "missing data: " ++ cause.message
  | computation text => "Compute error: " ++ text
  | maskTooLong mask length =>
    "Invalid argument error: " ++
      s!"Filter predicate of length {mask} is larger than target array of length {length}"
  | brokenOff cause => cause.message
  | within place fault => place ++ ": " ++ fault.message

/-- The fault without the places it was found in. -/
def root : Fault → Fault
  | within _ fault => fault.root
  | fault => fault

/-- Whether memory ran out, at whatever place. -/
def isOutOfMemory (fault : Fault) : Bool :=
  match fault.root with
  | outOfMemory _ => true
  | _ => false

/-- Whether the operation broke off, at whatever place. -/
def isBreak (fault : Fault) : Bool :=
  match fault.root with
  | brokenOff _ => true
  | _ => false

end Fault

/-- The result with a place added to its fault, if it has one. -/
def locatedAt {α : Type} (place : String) : Except Fault α → Except Fault α
  | .ok a => .ok a
  | .error fault => .error (.within place fault)

/-- What was done after something else was done after it. -/
theorem exists_of_bind {α β : Type} {result : Except Fault α} {f : α → Except Fault β} {b : β}
    (h : result.bind f = .ok b) : ∃ a, result = .ok a ∧ f a = .ok b := by
  cases result with
  | ok a => exact ⟨a, rfl, h⟩
  | error fault => exact nomatch h

end Columnar
