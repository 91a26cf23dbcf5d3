import TwoTier.Bytes
import TwoTier.Value.Shape

/-!
# Writing MessagePack

`MessagePack.write` writes a value of a given shape. Integers and lengths take the shortest form
that holds them, a natural an unsigned one; doubles always have eight bytes. A record is a map from
its fields' names, so that it can be read by name; a choice is its name.

Lengths have four bytes at the most, and a length is cut to these before its form is chosen
(`announced`): what is longer is written whole, but announced as shorter than it is.
-/

namespace TwoTier.MessagePack

/-! ### Scalars and lengths -/

/-- An integer in its shortest form. -/
def writeInt (i : Int) : Bytes :=
  if 0 ≤ i then
    let n := i.toNat
    -- naturals take the unsigned forms, also where a signed one is as short
    if n < 0x80 then [UInt8.ofNat n]
    else if n < Bytes.bound 1 then 0xcc :: Bytes.bigEndian 1 n
    else if n < Bytes.bound 2 then 0xcd :: Bytes.bigEndian 2 n
    else if n < Bytes.bound 4 then 0xce :: Bytes.bigEndian 4 n
    else 0xcf :: Bytes.bigEndian 8 n
  else
    -- negative integers in two's complement
    if -0x20 ≤ i then [UInt8.ofNat (i + Bytes.bound 1).toNat]
    else if -0x80 ≤ i then 0xd0 :: Bytes.bigEndian 1 (i + Bytes.bound 1).toNat
    else if -0x8000 ≤ i then 0xd1 :: Bytes.bigEndian 2 (i + Bytes.bound 2).toNat
    else if -0x80000000 ≤ i then 0xd2 :: Bytes.bigEndian 4 (i + Bytes.bound 4).toNat
    else 0xd3 :: Bytes.bigEndian 8 (i + Bytes.bound 8).toNat

/-- A double. -/
def writeFloat (x : Binary64) : Bytes := 0xcb :: Bytes.bigEndian 8 x.bits.toNat

/-- The length that is announced of `n` bytes, items or entries. -/
def announced (n : Nat) : Nat := n % Bytes.bound 4

/-- A text. -/
def writeText (s : String) : Bytes :=
  let b := Bytes.ofText s
  let n := announced b.length
  (if n < 0x20 then [UInt8.ofNat (0xa0 + n)]
    else if n < Bytes.bound 1 then 0xd9 :: Bytes.bigEndian 1 n
    else if n < Bytes.bound 2 then 0xda :: Bytes.bigEndian 2 n
    else 0xdb :: Bytes.bigEndian 4 n) ++ b

/-- The start of an array of `items` items. -/
def arrayStart (items : Nat) : Bytes :=
  let n := announced items
  if n < 0x10 then [UInt8.ofNat (0x90 + n)]
  else if n < Bytes.bound 2 then 0xdc :: Bytes.bigEndian 2 n
  else 0xdd :: Bytes.bigEndian 4 n

/-- The start of a map of `entries` entries. -/
def mapStart (entries : Nat) : Bytes :=
  let n := announced entries
  if n < 0x10 then [UInt8.ofNat (0x80 + n)]
  else if n < Bytes.bound 2 then 0xde :: Bytes.bigEndian 2 n
  else 0xdf :: Bytes.bigEndian 4 n

/-! ### Values -/

mutual
/-- Writes a free-form value. -/
def writeJson : Json → Bytes
  | .null => [0xc0]
  | .bool b => [if b then 0xc3 else 0xc2]
  | .int i => writeInt i
  | .float x => writeFloat x
  | .text s => writeText s
  | .array items => arrayStart items.length ++ writeItems items
  | .object entries => mapStart entries.length ++ writeEntries entries
/-- Writes the items of an array, one after the other. -/
def writeItems : List Json → Bytes
  | [] => []
  | v :: vs => writeJson v ++ writeItems vs
/-- Writes the entries of an object, one after the other. -/
def writeEntries : List (String × Json) → Bytes
  | [] => []
  | (k, v) :: es => writeText k ++ writeJson v ++ writeEntries es
end

mutual
/-- Writes a value of the given shape. -/
def write : {α : Type} → Shape α → α → Bytes
  | _, .unit, _ => [0xc0]
  | _, .bool, b => [if b then 0xc3 else 0xc2]
  | _, .char, c => writeText (String.singleton c)
  | _, .text, s => writeText s
  | _, .int _, i => writeInt i.1
  | _, .float, x => writeFloat x
  | _, .option s, v => match v with
    | none => [0xc0]
    | some a => write s a
  | _, .list s, v => arrayStart v.length ++ v.flatMap (write s)
  | _, .map s, v => mapStart v.size ++ v.entries.flatMap fun e => writeText e.1 ++ write s e.2
  | _, .pair s t, v => arrayStart 2 ++ write s v.1 ++ write t v.2
  -- named fields, so that a reader may have them in any order
  | _, .record _ fs _ fields _, v => mapStart fs.size ++ writeFields fs (fields v)
  | _, .choice names _ index _, v => writeText (names.get (index v))
  | _, .json, v => writeJson v
  | _, .refused _, _ => []
/-- Writes the fields of a record as entries, one after the other. -/
def writeFields : {α : Type} → Fields α → α → Bytes
  | _, .nil, _ => []
  | _, .cons name _ s rest, v => writeText name ++ write s v.1 ++ writeFields rest v.2
end

end TwoTier.MessagePack
