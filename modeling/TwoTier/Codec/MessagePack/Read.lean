import TwoTier.Codec.MessagePack.Marker
import TwoTier.Codec.Row

/-!
# Reading MessagePack

`MessagePack.read` takes a value of a given shape off the front of the bytes; what follows is not
looked at. The first fault ends the reading.

* A record is a map from its fields' names, or an array of its fields in order. Unknown fields are
  skipped unless the record is strict. A field or a choice may also be named by its position, unless
  the record is strict.
* A choice is its name, or a map with the name as its only key and nil under it.
* A binary value is read as a text where a text is wanted, except as the first key of a free-form
  object, and as the array of its bytes where a list, a pair or a record is.
* Of several entries under one key of a map or a free-form object the last one counts; for a record
  they are a fault. A double that is not finite is null in a free-form value.
* Arrays and maps may nest `maxDepth` deep.
-/

namespace TwoTier.MessagePack

open Reader

/-- How deep arrays and maps may nest. -/
def maxDepth : Nat := 1023

/-- A token of a value in which arrays and maps may nest `budget` deep. Extensions take a level as
well. -/
def tokenWithin (budget : Nat) : Reader Fault Token := do
  let t ← token
  match t with
  -- the level is missed at the token itself, before anything in it is read
  | .array _ | .map _ | .extension _ => if budget = 0 then fail .tooDeep else pure t
  | t => pure t

/-! ### Scalars -/

/-- A token that is none of the type wanted: a text is checked to be one first. -/
def refuse {α : Type} : Token → Reader Fault α
  | .text b => if (Bytes.text? b).isSome then fail .mismatched else fail .badText
  | _ => fail .mismatched

/-- A value of one token that `accept` makes something of. -/
def scalar {α : Type} (budget : Nat) (accept : Token → Option α) : Reader Fault α := do
  let t ← tokenWithin budget
  match accept t with
  | some a => pure a
  | none => refuse t

/-- A number or truth value that `accept` makes something of. Nil is of the wrong type, and so are
the other numbers and truth values; any other value has the wrong marker. -/
def plain {α : Type} (accept : Token → Option α) : Reader Fault α := do
  let m ← marker
  match m with
  | .nil | .bool _ | .small _ | .unsigned _ | .signed _ | .single | .double =>
    let t ← Token.ofMarker m
    ofOption .mismatched (accept t)
  | _ => fail .wrongMarker

/-- A text, which may also be a binary value. -/
def text (budget : Nat) : Reader Fault String :=
  scalar budget fun
    | .text b | .binary b => Bytes.text? b
    | _ => none

/-- The only character of a text. -/
def onlyChar? (s : String) : Option Char :=
  match s.toList with
  | [c] => some c
  | _ => none

/-- The nil of a choice that is written as a map. -/
def nilMark : Reader Fault Unit := do
  match ← marker with
  | .nil => pure ()
  | _ => fail .wrongMarker

/-! ### Skipped values -/

/-- Passes over a value in which arrays and maps nest at most `budget` deep. Texts need not be
UTF-8. -/
def skip : (budget : Nat) → Reader Fault Unit
  | 0 => do let _ ← tokenWithin 0
  | d + 1 => do
    match ← token with
    | .array n => do let _ ← (skip d).times n
    -- keys are passed over like values
    | .map n => do let _ ← (skip d).times (2 * n)
    -- one byte more: the type of the extension
    | .extension n => do let _ ← take .short (n + 1)
    | _ => pure ()

/-! ### Free-form values -/

/-- The first key of a free-form object, which may not be a binary value. -/
def firstKey (budget : Nat) : Reader Fault String :=
  scalar budget fun
    | .text b => Bytes.text? b
    | _ => none

/-- An entry of a map, with the given reader for its key. -/
def entry {α : Type} (key : Reader Fault String) (p : Reader Fault α) :
    Reader Fault (String × α) := do
  let k ← key
  let v ← p
  pure (k, v)

/-- The `n` entries of a free-form object, whose values are read by `p`. -/
def jsonEntries (budget : Nat) (p : Reader Fault Json) :
    (n : Nat) → Reader Fault (List (String × Json))
  | 0 => pure []
  | n + 1 => do
    let e ← entry (firstKey budget) p
    let es ← (entry (text budget) p).times n
    pure (e :: es)

/-- The free-form value of one token. -/
def jsonScalar? : Token → Option Json
  | .nil => some .null
  | .bool b => some (.bool b)
  | .nat n => some (.int n)
  | .int i => some (.int i)
  | .float x => some (if x.isFinite then .float x else .null)
  | .text b => (Bytes.text? b).map .text
  | _ => none

/-- A free-form value in which arrays and maps nest at most `budget` deep. -/
def json : (budget : Nat) → Reader Fault Json
  | 0 => scalar 0 jsonScalar?
  | d + 1 => do
    match ← token with
    | .array n => Json.array <$> (json d).times n
    | .map n => Json.ofEntries <$> jsonEntries d (json d) n
    | t =>
      match jsonScalar? t with
      | some v => pure v
      | none => refuse t

/-! ### Names -/

/-- How a field or a choice is named. -/
inductive Name where
  | text (s : String)
  | position (n : Nat)
  /-- Bytes that are no text, so no name either. -/
  | unnamed

/-- The name of a field of a record that is not strict. -/
def fieldName (budget : Nat) : Reader Fault Name :=
  scalar budget fun
    | .text b | .binary b => some ((Bytes.text? b).elim .unnamed .text)
    | .nat n => some (.position n)
    | _ => none

/-- The position of a choice. -/
def choiceName (names : List String) (t : Token) : Option (Fin names.length) :=
  match t with
  | .text b | .binary b => (Bytes.text? b).bind fun s => names.finIdxOf? s
  | .nat n => if h : n < names.length then some ⟨n, h⟩ else none
  | _ => none

/-- A choice. -/
def choice (budget : Nat) (names : List String) : Reader Fault (Fin names.length) := do
  -- the map of a choice takes no level
  match ← token with
  | .map n =>
    if n = 1 then
      let i ← scalar budget (choiceName names)
      nilMark
      pure i
    else fail .wrongLength
  | t =>
    match choiceName names t with
    | some i => pure i
    | none => refuse t

/-! ### Binary values as arrays

A binary value stands for the array of its bytes. Unlike those of an array, items that are too many
are passed over. -/

/-- The value of a byte as an item. -/
def ofByte : {α : Type} → Shape α → UInt8 → Option α
  -- a byte is a number, so it is an item of a number's shape, or of a free form
  | _, .int k, b => some (k.ofByte b)
  | _, .float, b => some (.ofNat b.toNat)
  | _, .json, b => some (.int b.toNat)
  | _, _, _ => none

/-- The pair of the first two bytes. -/
def pairOfBytes {α β : Type} (s : Shape α) (t : Shape β) : Bytes → Option (α × β)
  | a :: b :: _ => do
    let x ← ofByte s a
    let y ← ofByte t b
    pure (x, y)
  | _ => none

/-- The fields of a record from the bytes in order; beyond the last byte stand the fallbacks. -/
def fieldsOfBytes : {α : Type} → Fields α → Bytes → Option α
  | _, .nil, _ => some ()
  | _, .cons _ fallback _ rest, [] => do
    -- the bytes have run out
    let a ← fallback
    let r ← fieldsOfBytes rest []
    pure (a, r)
  | _, .cons _ _ s rest, b :: bs => do
    let a ← ofByte s b
    let r ← fieldsOfBytes rest bs
    pure (a, r)

/-! ### Records -/

/-- The names of the fields, in order. -/
def fieldNames : {α : Type} → Fields α → List String
  | _, .nil => []
  | _, .cons name _ _ rest => name :: fieldNames rest

/-- Records in MessagePack; the state is the number of items left. -/
def rowStyle : RowStyle Fault Nat where
  another
    | 0 => pure none
    | n + 1 => pure (some n)
  between := pure ()
  missing := .mismatched
  duplicate := .mismatched

/-- Checks that no item is left. -/
def noneLeft (left : Nat) : Reader Fault Unit :=
  if left = 0 then pure () else fail .wrongLength

/-- Reads one entry of a record into the slots. -/
def recordEntry {α S : Type} (strict : Bool) (names : List String) (budget : Nat)
    (row : Row Fault Nat α S) (slots : S) : Reader Fault S := do
  -- a strict record names its fields by text only, and refuses any other name
  if strict then
    let s ← text budget
    match row.fill? s slots with
    | some p => p
    | none => fail .mismatched
  else
    let name ← fieldName budget
    let field := match name with
      | .text s => row.fill? s slots
      | .position n => names[n]?.bind fun s => row.fill? s slots
      | .unnamed => none
    match field with
    | some p => p
    | none => do
      skip budget
      pure slots

/-- Reads `n` entries of a record into the slots. -/
def recordEntries {α S : Type} (strict : Bool) (names : List String) (budget : Nat)
    (row : Row Fault Nat α S) : (n : Nat) → S → Reader Fault S
  | 0, slots => pure slots
  | n + 1, slots => do
    let slots' ← recordEntry strict names budget row slots
    recordEntries strict names budget row n slots'

/-- A record, in either form. -/
def record {α β : Type} (strict : Bool) (fs : Fields α) (budget : Nat)
    (row : Nat → Row Fault Nat α fs.Slots) (make : α → Option β) : Reader Fault β := do
  -- the parts of a record stand one level down
  let inner := budget - 1
  match ← tokenWithin budget with
  | .array n =>
    let (a, left) ← (row inner).inOrder n
    -- a sum out of range is noticed before items that are too many
    let b ← ofOption .mismatched (make a)
    noneLeft left
    pure b
  | .map n =>
    let slots ← recordEntries strict (fieldNames fs) inner (row inner) n fs.blank
    ofOption .mismatched ((fs.collect slots).bind make)
  | .binary b => ofOption .mismatched ((fieldsOfBytes fs b).bind make)
  | t => refuse t

/-! ### Values of a shape -/

mutual
/-- Reads a value of the given shape, with arrays and maps nesting at most `budget` deep. -/
def reader : {α : Type} → Shape α → (budget : Nat) → Reader Fault α
  | _, .unit, budget => scalar budget fun
    | .nil => some ()
    | _ => none
  | _, .bool, _ => plain fun
    | .bool b => some b
    | _ => none
  | _, .char, budget => scalar budget fun
    | .text b => (Bytes.text? b).bind onlyChar?
    | _ => none
  | _, .text, budget => text budget
  | _, .int k, _ => plain fun
    | .nat n => k.ofInt? n
    | .int i => k.ofInt? i
    | _ => none
  | _, .float, _ => plain fun
    | .nat n => some (.ofNat n)
    | .int i => some (.ofInt i)
    | .float x => some x
    | _ => none
  | _, .option s, budget => do
    match ← peek with
    | none => fail .noMarker
    | some b =>
      -- nil is the absent value, whatever the shape of a present one
      if b == 0xc0 then
        let _ ← byte .noMarker
        pure none
      else some <$> reader s budget
  | _, .list s, budget => do
    match ← tokenWithin budget with
    | .array n => (reader s (budget - 1)).times n
    | .binary b => ofOption .mismatched (b.mapM (ofByte s))
    | t => refuse t
  | _, .map s, budget => do
    match ← tokenWithin budget with
    | .map n =>
      let es ← (entry (text (budget - 1)) (reader s (budget - 1))).times n
      pure (TextMap.ofList es)
    | t => refuse t
  | _, .pair s t, budget => do
    match ← tokenWithin budget with
    | .array n =>
      let (a, left) ← rowStyle.item none (reader s (budget - 1)) n
      let (b, left) ← rowStyle.item none (reader t (budget - 1)) left
      noneLeft left
      pure (a, b)
    | .binary b => ofOption .mismatched (pairOfBytes s t b)
    | tok => refuse tok
  | _, .record strict fs make _ _, budget => record strict fs budget (row fs) make
  | _, .choice names pick _ _, budget => pick <$> choice budget names
  | _, .json, budget => json budget
  | _, .refused _, _ => fail .mismatched
/-- Reads the fields of a record. -/
def row : {α : Type} → (fs : Fields α) → (budget : Nat) → Row Fault Nat α fs.Slots
  | _, .nil, _ => Row.nil
  | _, .cons name fallback s rest, budget =>
    Row.cons rowStyle name fallback (reader s budget) (row rest budget)
end

/-- Reads a value of the given shape off the front of the bytes. -/
def read {α : Type} (s : Shape α) (b : Bytes) : Except Fault α :=
  match (reader s maxDepth).run b with
  -- what follows the value is left alone
  | .ok (a, _) => .ok a
  | .error e => .error e

end TwoTier.MessagePack
