import TwoTier.Codec.JsonText.Scalar
import TwoTier.Codec.Row

/-!
# Reading JSON text

`JsonText.read` reads a value of a given shape. It is driven by the shape and stops at the first
fault, so a text that is wrong in two ways has the fault of whichever comes first.

* Arrays and objects may nest `maxDepth` deep; only what is skipped may nest deeper.
* A record is an object, whose unknown fields are skipped unless the record is strict, or an array
  of its fields in order.
* A choice is its name, or an object with the name as its only key and `null` under it.
* Of several entries under one key of a map or a free-form object the last one counts; for a record
  they are a fault.
-/

namespace TwoTier.JsonText

open Reader

/-- How deep arrays and objects may nest. -/
def maxDepth : Nat := 127

/-- Goes one level down, if there is one left. -/
def within {α : Type} (budget : Nat) (p : Nat → Reader Fault α) : Reader Fault α :=
  match budget with
  | 0 => fail .malformed
  | d + 1 => p d

/-! ### Arrays -/

/-- The comma before another item: what follows it is not the closing bracket. -/
def itemComma : Reader Fault Unit := do
  let _ ← byte .truncated
  match ← peekPastBlank with
  | none => fail .truncated
  -- a comma with no item after it is a fault
  | some b => if b == Bytes.ascii ']' then fail .malformed

/-- Whether another item follows, which it then stands right before: it is the `first`, or comes
after a comma. The closing bracket stays. -/
def another (first : Bool) : Reader Fault (Option Bool) := do
  match ← peekPastBlank with
  | none => fail .truncated
  | some b =>
    if b == Bytes.ascii ']' then pure none
    else if first then pure (some false)
    else if b == Bytes.ascii ',' then do itemComma; pure (some false)
    else fail .malformed

/-- A closing bracket or brace. -/
def closing (c : Char) : Reader Fault Unit := do
  match ← peekPastBlank with
  | none => fail .truncated
  | some b => if b == Bytes.ascii c then do let _ ← byte .truncated else fail .malformed

/-- Goes on with the item after a comma, or stops before the closing bracket. -/
def itemStep {α : Type} (p : Reader Fault α) (sofar : List α) :
    Reader Fault (Turn (List α) (List α)) := do
  match ← peekPastBlank with
  | none => fail .truncated
  | some b =>
    if b == Bytes.ascii ']' then pure (.done sofar.reverse)
    else if b == Bytes.ascii ',' then do
      itemComma
      let a ← p
      pure (.next (a :: sofar))
    else fail .malformed

theorem moves_itemStep {α : Type} (p : Reader Fault α) (sofar : List α) :
    (itemStep p sofar).Moves := by
  refine Moves.bind_right _ fun b => ?_
  match b with
  | none => exact moves_fail _
  | some b =>
    dsimp only
    split
    · exact moves_done _
    · split
      · exact (((consumes_byte _).bind _).bind _).moves
      · exact moves_fail _

/-- The items of an array, up to its closing bracket, which stays. -/
def items {α : Type} (p : Reader Fault α) : Reader Fault (List α) := do
  match ← another true with
  | none => pure []
  | some _ =>
    let a ← p
    loop (itemStep p) (moves_itemStep p) [a]

/-- An array. -/
def array {α : Type} (budget : Nat) (p : Nat → Reader Fault α) : Reader Fault α :=
  within budget fun d => do
    let _ ← byte .truncated
    let a ← p d
    closing ']'
    pure a

/-! ### Objects -/

/-- Whether another entry follows, before whose key it then stands. The closing brace stays. -/
def anotherKey (first : Bool) : Reader Fault Bool := do
  match ← peekPastBlank with
  | none => fail .truncated
  | some b =>
    if b == Bytes.ascii '\x7d' then pure false
    else if first then
      -- a key is a string: any other byte is refused before a value is looked for
      if b == Bytes.ascii '"' then pure true else fail .malformed
    else if b == Bytes.ascii ',' then
      let _ ← byte .truncated
      match ← peekPastBlank with
      | none => fail .truncated
      | some c => if c == Bytes.ascii '"' then pure true else fail .malformed
    else fail .malformed

/-- The colon between a key and its value. -/
def colon : Reader Fault Unit := closing ':'

/-- A string, with its opening quote. -/
def quoted : Reader Fault String := do
  let _ ← byte .truncated
  textBody

/-- Goes on with the next entry, or stops before the closing brace. -/
def entryStep {σ : Type} (step : σ → String → Reader Fault σ) (st : Bool × σ) :
    Reader Fault (Turn (Bool × σ) σ) := do
  if ← anotherKey st.1 then
    let k ← quoted
    let st' ← step st.2 k
    pure (.next (false, st'))
  else pure (.done st.2)

theorem moves_entryStep {σ : Type} (step : σ → String → Reader Fault σ) (st : Bool × σ) :
    (entryStep step st).Moves := by
  refine Moves.bind_right _ fun b => ?_
  cases b with
  | false => exact moves_done _
  | true => exact (((consumes_byte _).bind _).bind _).moves

/-- The entries of an object, up to its closing brace, which stays: `step` reads the rest of an
entry after its key. -/
def entries {σ : Type} (step : σ → String → Reader Fault σ) (st : σ) : Reader Fault σ :=
  loop (entryStep step) (moves_entryStep step) (true, st)

/-- An object. -/
def object {α : Type} (budget : Nat) (p : Nat → Reader Fault α) : Reader Fault α :=
  within budget fun d => do
    let _ ← byte .truncated
    let a ← p d
    closing '\x7d'
    pure a

/-- The rest of an entry of a map: the last one under a key counts. -/
def mapEntry {α : Type} (p : Reader Fault α) (m : TextMap α) (k : String) :
    Reader Fault (TextMap α) := do
  colon
  let a ← p
  pure (m.insert k a)

/-! ### Skipped values -/

/-- An array or object around the value that is being skipped. -/
inductive Frame where
  | array
  | object
deriving DecidableEq

/-- The byte that ends an array or object. -/
def Frame.close : Frame → UInt8
  | .array => Bytes.ascii ']'
  | .object => Bytes.ascii '\x7d'

/-- What stands before a value: the key and the colon in an object. -/
def Frame.enter : Frame → Reader Fault Unit
  | .array => pure ()
  | .object => do
    match ← peekPastBlank with
    | none => fail .truncated
    | some b =>
      if b == Bytes.ascii '"' then do
        let _ ← byte .truncated
        skipText
        colon
      else fail .malformed

/-- After a value within the given frames, innermost first: closes the frames that end here, up to a
comma before another value, or to the end of the outermost frame. -/
def leave : List Frame → Reader Fault (Turn (List Frame) Unit)
  | [] => pure (.done ())
  | f :: fs => do
    match ← peekPastBlank with
    | none => fail .truncated
    | some b =>
      if b == Bytes.ascii ',' then
        let _ ← byte .truncated
        -- in an object the next key stands before the value
        f.enter
        pure (.next (f :: fs))
      else if b == f.close then
        let _ ← byte .truncated
        leave fs
      else fail .malformed

/-- Enters a frame, after its opening byte; leaves it again if it is empty. -/
def enterFrame (f : Frame) (fs : List Frame) : Reader Fault (Turn (List Frame) Unit) := do
  match ← peekPastBlank with
  | none => fail .truncated
  | some b =>
    if b == f.close then
      let _ ← byte .truncated
      leave fs
    else
      f.enter
      pure (.next (f :: fs))

/-- Passes over the start of a value within the given frames. -/
def skipAt (fs : List Frame) : Start → Reader Fault (Turn (List Frame) Unit)
  | .nullWord => do let _ ← byte .truncated; exactly (Bytes.ofText "ull"); leave fs
  | .trueWord => do let _ ← byte .truncated; exactly (Bytes.ofText "rue"); leave fs
  | .falseWord => do let _ ← byte .truncated; exactly (Bytes.ofText "alse"); leave fs
  | .number => do skipNumber; leave fs
  | .quote => do let _ ← byte .truncated; skipText; leave fs
  | .bracket => do let _ ← byte .truncated; enterFrame .array fs
  | .brace => do let _ ← byte .truncated; enterFrame .object fs
  | .other => fail .malformed

theorem moves_skipAt (fs : List Frame) (st : Start) : (skipAt fs st).Moves := by
  cases st with
  | number => exact (consumes_skipNumber.bind _).moves
  | other => exact moves_fail _
  | _ => exact ((consumes_byte _).bind _).moves

/-- Passes over a value of any type and depth. Numbers out of range, surrogates alone and bytes that
are not UTF-8 are no faults in it. -/
def skip : Reader Fault Unit :=
  loop (fun fs => do skipAt fs (← start)) (fun fs => Moves.bind_right _ (moves_skipAt fs)) []

/-! ### Free-form values -/

/-- A free-form value whose items and entries are read by `inner`; without it there are none. -/
def jsonOf (inner : Option (Reader Fault Json)) : Reader Fault Json := do
  match ← start, inner with
  | .bracket, some p => Json.array <$> array 1 fun _ => items p
  | .brace, some p => Json.ofMap <$> object 1 fun _ => entries (mapEntry p) .empty
  | .bracket, none => fail .malformed
  | .brace, none => fail .malformed
  | st, _ =>
    match ← scalarAt st with
    | .null => pure .null
    | .bool b => pure (.bool b)
    | .number (.int i) => pure (.int i)
    | .number (.float x) => pure (.float x)
    | .text s => pure (.text s)

/-- A free-form value in which arrays and objects nest at most `budget` deep. -/
def json : (budget : Nat) → Reader Fault Json
  | 0 => jsonOf none
  | d + 1 => jsonOf (some (json d))

/-! ### Values of a shape -/

/-- Records in JSON text. -/
def rowStyle : RowStyle Fault Bool where
  another := another
  between := colon
  missing := .mismatched
  duplicate := .mismatched

/-- Reads the rest of an entry of a record: the value of a field, or a value to skip. -/
def recordEntry {α S : Type} (strict : Bool) (row : Row Fault Bool α S) (slots : S) (k : String) :
    Reader Fault S :=
  match row.fill? k slots with
  | some p => p
  -- a strict record refuses the key before it looks at the value
  | none => if strict then fail .mismatched else do colon; skip; pure slots

/-- A record, in either form. -/
def record {α β : Type} (strict : Bool) (fs : Fields α) (budget : Nat)
    (row : Nat → Row Fault Bool α fs.Slots) (make : α → Option β) : Reader Fault β := do
  match ← start with
  | .bracket =>
    array budget fun d => do
      let (a, _) ← (row d).inOrder true
      ofOption .mismatched (make a)
  | .brace =>
    object budget fun d => do
      let slots ← entries (recordEntry strict (row d)) fs.blank
      ofOption .mismatched ((fs.collect slots).bind make)
  | st => refuse st

/-- The position of a name. -/
def position? (names : List String) (s : String) : Option (Fin names.length) :=
  names.finIdxOf? s

/-- The name of a choice, which must be a string. -/
def chosen (names : List String) : Start → Reader Fault (Fin names.length)
  | .quote => do
    let s ← quoted
    ofOption .mismatched (position? names s)
  | _ => fail .malformed

/-- The name of a choice, or an object with it as the only key. -/
def choice (budget : Nat) (names : List String) : Reader Fault (Fin names.length) := do
  match ← start with
  | .brace =>
    object budget fun _ => do
      let i ← chosen names (← start)
      colon
      -- a name without contents has null for its value
      scalar fun
        | .null => some ()
        | _ => none
      pure i
  | st => chosen names st

/-- The only character of a text. -/
def onlyChar? (s : String) : Option Char :=
  match s.toList with
  | [c] => some c
  | _ => none

mutual
/-- Reads a value of the given shape, with arrays and objects nesting at most `budget` deep. -/
def reader : {α : Type} → Shape α → (budget : Nat) → Reader Fault α
  | _, .unit, _ => scalar fun
    | .null => some ()
    | _ => none
  | _, .bool, _ => scalar fun
    | .bool b => some b
    | _ => none
  | _, .char, _ => scalar fun
    | .text s => onlyChar? s
    | _ => none
  | _, .text, _ => scalar fun
    | .text s => some s
    | _ => none
  | _, .int k, _ => scalar fun
    | .number (.int i) => k.ofInt? i
    | _ => none
  | _, .float, _ => scalar fun
    | .number (.int i) => some (.ofInt i)
    | .number (.float x) => some x
    | _ => none
  | _, .option s, budget => do
    -- null is the absent value, whatever the shape of a present one
    if (← peekPastBlank).map Start.of == some .nullWord then
      let _ ← scalarAt .nullWord
      pure none
    else some <$> reader s budget
  | _, .list s, budget => do
    match ← start with
    | .bracket => array budget fun d => items (reader s d)
    | st => refuse st
  | _, .map s, budget => do
    match ← start with
    | .brace => object budget fun d => entries (mapEntry (reader s d)) .empty
    | st => refuse st
  | _, .pair s t, budget => do
    match ← start with
    | .bracket =>
      array budget fun d => do
        let (a, st) ← rowStyle.item none (reader s d) true
        let (b, _) ← rowStyle.item none (reader t d) st
        pure (a, b)
    | st => refuse st
  | _, .record strict fs make _ _, budget => record strict fs budget (row fs) make
  | _, .choice names pick _ _, budget => pick <$> choice budget names
  | _, .json, budget => json budget
  | _, .refused _, _ => fail .mismatched
/-- Reads the fields of a record. -/
def row : {α : Type} → (fs : Fields α) → (budget : Nat) → Row Fault Bool α fs.Slots
  | _, .nil, _ => Row.nil
  | _, .cons name fallback s rest, budget =>
    Row.cons rowStyle name fallback (reader s budget) (row rest budget)
end

/-- Reads a text that holds exactly one value of the given shape. -/
def read {α : Type} (s : Shape α) (b : Bytes) (budget : Nat := maxDepth) : Except Fault α :=
  match (reader s budget).run b with
  -- only white space may follow the value
  | .ok (a, rest) => if rest.all isBlank then .ok a else .error .malformed
  | .error e => .error e

end TwoTier.JsonText
