import Columnar.Registry
/-!
# Encoding and decoding

Records of a component are encoded into one chunk with one slot per record, and decoded again.
The layout of the column is the registered one, which is another than the component's own if
the name was taken before.  Encoding holds memory only while it runs, whether it succeeds or
not.

A batch holds the finished columns of one archetype, in the order of its fields.  A field that
is not set has no column.  Columns are encoded one after the other; the first that fails ends
the batch, and its fault is the batch's.  Decoding looks each field up by its name.  A field
without a column is unset.

An encoder turns archetype values into batches, all with the same settings and on one ledger.
Its settings are read from a document of the usual kinds of values: a table with the keys
`memoryLimit` and `builder`, or the two values in a list.  The table under `builder` has the
key `listLenHint`, and may be a list too.  What is missing has its default.  Unknown keys are
refused in the outer table and ignored in the inner one.
-/

namespace Columnar

/-- Makes room for all the items that values put into a column of lists.  Their numbers are
added up unchecked, so the operation breaks off when the sum is no size.  Other columns
need no such room. -/
def ValueType.makeRoom (type : ValueType) (values : List type.Datum) (c : Column) (m : Ledger) :
    Outcome Column :=
  if c.layout.isList then
    match type.itemSum? values with
    | none => .stopped c m (.brokenOff .sumTooLarge)
    | some items => c.reserveItems items m
  else .done c m

/-- Making room is reserving for the sum if that is a size, breaks off before anything is
done if not, and is nothing at all in a column without lists. -/
theorem ValueType.makeRoom_eq (type : ValueType) (values : List type.Datum) (c : Column) :
    (type.makeRoom values c = c.reserveItems (type.itemTotal values) ∧
        c.layout.isList = true ∧ type.itemTotal values ≤ Size.max) ∨
      (type.makeRoom values c = (fun m => .stopped c m (.brokenOff .sumTooLarge)) ∧
        c.layout.isList = true ∧ Size.max < type.itemTotal values) ∨
      (type.makeRoom values c = .done c ∧ c.layout.isList = false) := by
  cases hlist : c.layout.isList with
  | false =>
    refine .inr (.inr ⟨funext fun m => ?_, rfl⟩)
    rw [makeRoom, hlist, if_neg Bool.false_ne_true]
  | true =>
    rcases Nat.lt_or_ge Size.max (type.itemTotal values) with hlarge | hsize
    · refine .inr (.inl ⟨funext fun m => ?_, rfl, hlarge⟩)
      rw [makeRoom, if_pos hlist, type.itemSum?_eq, if_neg (Nat.not_le.2 hlarge)]
    · refine .inl ⟨funext fun m => ?_, rfl, hsize⟩
      rw [makeRoom, if_pos hlist, type.itemSum?_eq, if_pos hsize]

/-- Adds the slots of the first `count` records to a column, which must have
the registered layout.  A column of lists first makes room for all the items. -/
def Component.fill (r : Registry) (c : Component) (column : Column) (records : List c.Datum)
    (count : Nat) (m : Ledger) : Outcome Column :=
  if records.length < count then
    .stopped column m (.invalidArgument (.tooFewRecords c.name count records.length))
  else if column.layout ≠ (r.entryFor c).layout then
    .stopped column m
      (.invalidArgument (.wrongLayout c.name column.layout (r.entryFor c).layout))
  else
    (records.take count).foldl (fun o record => o.andThen (c.type.writeSlot record))
      (c.type.makeRoom (records.take count) column m)

/-- Encodes records with a guess of items per list. -/
def Component.encode (r : Registry) (c : Component) (records : List c.Datum) (hint : Nat)
    (m : Ledger) : Except Failure Chunk × Ledger :=
  match Column.new (r.entryFor c).layout m with
  | (.error fault, m) => (.error (.fault fault), m)
  | (.ok column, m) =>
    let filled := ((column.withHint hint).reserve records.length m).andThen fun column m =>
      c.fill r column records records.length m
    match filled.fault with
    | some fault => (.error (.fault fault), filled.value.release filled.ledger)
    | none =>
      let (result, _, m) := filled.value.finish filled.ledger
      (result, m)

/-- Encoding makes a column, fills it, and finishes it or drops it. -/
theorem Component.encode_eq (r : Registry) (c : Component) (records : List c.Datum) (hint : Nat)
    (m : Ledger) :
    c.encode r records hint m =
      (Column.new (r.entryFor c).layout m).elim
        (fun column m =>
          (((column.withHint hint).reserve records.length m).andThen fun column m =>
            c.fill r column records records.length m).elim
            (fun column m => ((column.finish m).1, (column.finish m).2.2))
            fun column m fault => (.error (.fault fault), column.release m))
        fun fault m => (.error (.fault fault), m) := by
  unfold Component.encode
  rcases Column.new (r.entryFor c).layout m with ⟨_ | column, m'⟩
  · rfl
  · simp only [Made.elim]
    rcases ((column.withHint hint).reserve records.length m').andThen fun column m =>
      c.fill r column records records.length m with ⟨column', m'', _ | fault⟩ <;> rfl

/-- Decodes a chunk into one record per slot. A chunk of any other datatype than the registered one
is refused first. -/
def Component.decode (r : Registry) (c : Component) (chunk : Chunk) :
    Except Fault (List c.Datum) :=
  match (r.entryFor c).check chunk with
  | .error fault => .error fault
  | .ok () => locatedAt c.name (c.type.read chunk)

/-- A finished column of an archetype's field, with the name of the field and the entry of its
component. -/
structure BatchEntry where
  field : String
  chunk : Chunk
  component : ComponentEntry
deriving DecidableEq

/-- The finished columns of an archetype under its name, in the order in which they were encoded. -/
structure Batch where
  archetype : String
  entries : List BatchEntry := []
deriving DecidableEq

namespace Batch

def push (b : Batch) (entry : BatchEntry) : Batch := { b with entries := b.entries ++ [entry] }

def length (b : Batch) : Nat := b.entries.length

def isEmpty (b : Batch) : Bool := b.entries.isEmpty

/-- The first column of a component. -/
def get? (b : Batch) (component : String) : Option BatchEntry :=
  b.entries.find? fun e => e.component.name == component

/-- The first column of a field. -/
def getField? (b : Batch) (field : String) : Option BatchEntry :=
  b.entries.find? fun e => e.field == field

/-- The component names of the columns. -/
def componentNames (b : Batch) : List String := b.entries.map (·.component.name)

/-- The values of a field, which must be those of the given component. -/
def collection (b : Batch) (r : Registry) (c : Component) (field : String) :
    Except Fault (Collection c.Datum) :=
  match b.getField? field with
  | none => .ok .unset
  | some entry =>
    locatedAt (fieldPlace b.archetype field)
      (if entry.component.name ≠ c.name then
        .error (.invalidArgument (.wrongComponent entry.component.name c.name))
      else (c.decode r entry.chunk).map .ofList)

end Batch

/-- Encodes collections under the field names and entries that are registered
for them, skipping those that are not set.  A component is registered when it is
encoded, if its name is free. -/
def Batch.encodeColumns (hint : Nat) :
    List (String × ComponentEntry) → List ColumnValues → Registry → Batch → Ledger →
      Except Failure Batch × Ledger
  | (field, component) :: fields, ⟨c, values⟩ :: columns, r, batch, m =>
    match values.toList? with
    | none => encodeColumns hint fields columns r batch m
    | some records =>
      match c.encode r records hint m with
      | (.error failure, m) => (.error failure, m)
      | (.ok chunk, m) =>
        encodeColumns hint fields columns (r.describe c).2 (batch.push ⟨field, chunk, component⟩) m
  | _, _, _, batch, m => (.ok batch, m)

/-- Encodes every field that is set into a column of its own, in the order of the registered table;
the first that fails ends the batch with its failure. -/
def Archetype.encode (r : Registry) (a : Archetype) (value : a.Value) (hint : Nat) (m : Ledger) :
    Except Failure Batch × Ledger :=
  let (entry, r) := r.describeArchetype a
  Batch.encodeColumns hint entry.fields (a.columns value) r ⟨a.name, []⟩ m

/-- The registry after a field was decoded: its component is registered if it
has a column. -/
def ArchetypeField.describe (batch : Batch) (field : ArchetypeField) (r : Registry) : Registry :=
  match batch.getField? field.name with
  | none => r
  | some _ => (r.describe field.component).2

/-- Decodes fields from the columns of their names. -/
def ArchetypeField.decode (batch : Batch) :
    (fields : List ArchetypeField) → Registry → Except Fault (Values fields)
  | [], _ => .ok ()
  | field :: rest, r =>
    match batch.collection r field.component field.name with
    | .error fault => .error fault
    | .ok values =>
      match decode batch rest (field.describe batch r) with
      | .error fault => .error fault
      | .ok others => .ok (values, others)

/-- Decodes an archetype value from a batch: every field from the first column of its name, and a
field without a column as not set. -/
def Archetype.decode (r : Registry) (a : Archetype) (batch : Batch) : Except Fault a.Value :=
  ArchetypeField.decode batch a.fields r

/-- A document that settings are read from. -/
inductive Setting where
  | null
  | boolean (value : Bool)
  | integer (value : Int)
  /-- A number that is not written as an integer. -/
  | fraction
  | text (value : String)
  | list (items : List Setting)
  | table (entries : List (String × Setting))
deriving Inhabited

namespace Setting

/-- The number of bytes or items that a document stands for. -/
def size? : Setting → Option Nat
  | integer value =>
    if 0 ≤ value ∧ value ≤ Size.max then some value.toNat else none
  | _ => none

/-- The value under a key. -/
def find? (entries : List (String × Setting)) (key : String) : Option Setting :=
  (entries.find? fun entry => entry.1 == key).map (·.2)

end Setting

/-- How an encoder works: the limit of its ledger, if it has one, and the guess of items per list
for its columns. -/
structure EncoderConfig where
  /-- The most memory that columns may hold at one time. -/
  memoryLimit : Option Nat := none
  /-- The guess of items per list. -/
  listLenHint : Nat := 2
deriving DecidableEq, Repr

namespace EncoderConfig

/-- The guess of items per list, as the document under `builder` has it. -/
def readHint : Setting → Option Nat
  | .table entries =>
    match Setting.find? entries "listLenHint" with
    | none => some ({} : EncoderConfig).listLenHint
    | some hint => hint.size?
  | .list [] => some ({} : EncoderConfig).listLenHint
  | .list [hint] => hint.size?
  | _ => none

/-- The limit, as the document under `memoryLimit` has it. -/
def readLimit : Setting → Option (Option Nat)
  | .null => some none
  | limit => limit.size?.map some

/-- The settings that a document describes; unknown keys are refused in the outer table, and
whatever is missing has its default. -/
def ofSetting? : Setting → Option EncoderConfig
  | .table entries => do
    guard (entries.all fun entry => entry.1 == "memoryLimit" || entry.1 == "builder")
    let memoryLimit ← ((Setting.find? entries "memoryLimit").getD .null |> readLimit)
    let listLenHint ← ((Setting.find? entries "builder").getD (.list []) |> readHint)
    pure { memoryLimit, listLenHint }
  | .list [] => some {}
  | .list [limit] => (readLimit limit).map fun memoryLimit => { memoryLimit }
  | .list [limit, builder] => do
    let memoryLimit ← readLimit limit
    let listLenHint ← readHint builder
    pure { memoryLimit, listLenHint }
  | _ => none

/-- The ledger that the settings ask for. -/
def ledger (config : EncoderConfig) : Ledger := { limit := config.memoryLimit }

end EncoderConfig

/-- Settings and a ledger to encode archetype values with. -/
structure Encoder where
  config : EncoderConfig := {}
  ledger : Ledger := config.ledger

/-- Encodes an archetype value on the ledger of the encoder, which goes on with what the call leaves
of it. -/
def Encoder.encode (e : Encoder) (r : Registry) (a : Archetype) (value : a.Value) :
    Except Failure Batch × Encoder :=
  let (result, ledger) := a.encode r value e.config.listLenHint e.ledger
  (result, { e with ledger })

end Columnar
