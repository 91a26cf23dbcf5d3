import TwoTier.Codec.Reader
import TwoTier.Value.Shape

/-!
# The fixed-width encoding

A compact encoding that does not describe itself: whoever reads it must know the shape it was
written with. Integers and doubles have their full width, the least significant byte first; a
sequence, a map or a text is its length in eight bytes and then its parts; a record is its fields in
order, without names; a choice is its position in four bytes. What follows a value is not looked at.

Main definitions:

* `FixedWidth.write s v`, and `FixedWidth.read s b`, which takes a value off the front of `b`.
* A free-form value can be written but not read, since nothing in the bytes tells what it was.
-/

namespace TwoTier.FixedWidth

open Reader

/-- Why bytes cannot be read. -/
inductive Fault where
  /-- The input ends inside a value. -/
  | short
  /-- A text is not UTF-8. -/
  | badText
  /-- A truth value is neither 0 nor 1. -/
  | badBool
  /-- A character is not UTF-8. -/
  | badChar
  /-- The mark of an optional value is neither 0 nor 1. -/
  | badMark
  /-- A free-form value was asked for. -/
  | freeForm
  /-- The parts were read, but make no value of the type. -/
  | unacceptable
deriving DecidableEq, Repr

/-! ### Integers, texts and characters -/

/-- The bytes of an integer in two's complement. -/
def writeInt (width : Nat) (i : Int) : Bytes :=
  Bytes.littleEndian width (i % Bytes.bound width).toNat

/-- A natural in `width` bytes. -/
def word (width : Nat) : Reader Fault Nat := do
  let b ← take .short width
  pure (Bytes.ofLittleEndian b)

/-- The integer of a kind that has the given bytes, read as a natural. -/
def signed (k : IntKind) (n : Nat) : Int :=
  if (n : Int) ≤ k.greatest then n else n - Bytes.bound k.width

/-- The bytes of a text, after its length. -/
def writeText (s : String) : Bytes :=
  Bytes.littleEndian 8 (Bytes.ofText s).length ++ Bytes.ofText s

/-- A text. -/
def text : Reader Fault String := do
  let n ← word 8
  let b ← take .short n
  ofOption .badText (Bytes.text? b)

/-- The number of bytes of a character that starts with `b`; zero if none does. -/
def charWidth (b : UInt8) : Nat :=
  if b < 0x80 then 1
  -- bytes that continue a character, and the two starts of overlong ones
  else if b < 0xc2 then 0
  else if b < 0xe0 then 2
  else if b < 0xf0 then 3
  else if b < 0xf5 then 4
  else 0

/-- A character in UTF-8. -/
def char : Reader Fault Char := do
  let b ← byte .short
  match charWidth b with
  | 0 => fail .badChar
  | n + 1 =>
    -- a character cut off is a bad one, not a missing one
    let bs ← take .badChar n
    match (Bytes.text? (b :: bs)).map String.toList with
    | some [c] => pure c
    | _ => fail .badChar

/-! ### Writing -/

mutual
/-- Writes a free-form value. -/
def writeJson : Json → Bytes
  | .null => []
  | .bool b => [if b then 1 else 0]
  | .int i => writeInt 8 i
  | .float x => Bytes.littleEndian 8 x.bits.toNat
  | .text s => writeText s
  | .array items => Bytes.littleEndian 8 items.length ++ writeItems items
  | .object entries => Bytes.littleEndian 8 entries.length ++ writeEntries entries
/-- Writes the items of an array, one after the other. -/
def writeItems : List Json → Bytes
  | [] => []
  | v :: vs => writeJson v ++ writeItems vs
/-- Writes the entries of an object, one after the other. -/
def writeEntries : List (String × Json) → Bytes
  | [] => []
  | (k, v) :: es => writeText k ++ writeJson v ++ writeEntries es
end

mutual
/-- Writes a value of the given shape. -/
def write : {α : Type} → Shape α → α → Bytes
  | _, .unit, _ => []
  | _, .bool, b => [if b then 1 else 0]
  | _, .char, c => String.utf8EncodeChar c
  | _, .text, s => writeText s
  | _, .int k, i => writeInt k.width i.1
  | _, .float, x => Bytes.littleEndian 8 x.bits.toNat
  | _, .option s, v => match v with
    | none => [0]
    | some a => 1 :: write s a
  | _, .list s, v => Bytes.littleEndian 8 v.length ++ v.flatMap (write s)
  | _, .map s, v =>
    Bytes.littleEndian 8 v.size ++ v.entries.flatMap fun e => writeText e.1 ++ write s e.2
  | _, .pair s t, v => write s v.1 ++ write t v.2
  | _, .record _ fs _ fields _, v => writeFields fs (fields v)
  -- the position stands for the name
  | _, .choice _ _ index _, v => Bytes.littleEndian 4 (index v).1
  | _, .json, v => writeJson v
  | _, .refused _, _ => []
/-- Writes the fields of a record, one after the other. -/
def writeFields : {α : Type} → Fields α → α → Bytes
  | _, .nil, _ => []
  | _, .cons _ _ s rest, v => write s v.1 ++ writeFields rest v.2
end

/-! ### Reading -/

mutual
/-- Reads a value of the given shape. -/
def reader : {α : Type} → Shape α → Reader Fault α
  | _, .unit => pure ()
  | _, .bool => do
    match ← byte .short with
    | 0 => pure false
    | 1 => pure true
    | _ => fail .badBool
  | _, .char => char
  | _, .text => text
  | _, .int k => do
    let n ← word k.width
    ofOption .unacceptable (k.ofInt? (signed k n))
  | _, .float => do
    let n ← word 8
    pure ⟨UInt64.ofNat n⟩
  | _, .option s => do
    match ← byte .short with
    | 0 => pure none
    | 1 => some <$> reader s
    | _ => fail .badMark
  | _, .list s => do
    let n ← word 8
    (reader s).times n
  | _, .map s => do
    let n ← word 8
    let es ← Reader.times (do
      let k ← text
      let v ← reader s
      pure (k, v)) n
    pure (TextMap.ofList es)
  | _, .pair s t => do
    let a ← reader s
    let b ← reader t
    pure (a, b)
  | _, .record _ fs make _ _ => do
    let a ← fieldsReader fs
    ofOption .unacceptable (make a)
  | _, .choice names pick _ _ => do
    let n ← word 4
    if h : n < names.length then pure (pick ⟨n, h⟩) else fail .unacceptable
  -- the writer leaves no tags, so there is nothing to go by
  | _, .json => fail .freeForm
  | _, .refused _ => fail .unacceptable
/-- Reads the fields of a record. -/
def fieldsReader : {α : Type} → Fields α → Reader Fault α
  | _, .nil => pure ()
  | _, .cons _ _ s rest => do
    let a ← reader s
    let b ← fieldsReader rest
    pure (a, b)
end

/-- Reads a value of the given shape off the front of the bytes. -/
def read {α : Type} (s : Shape α) (b : Bytes) : Except Fault α :=
  match (reader s).run b with
  -- what follows the value is left alone
  | .ok (a, _) => .ok a
  | .error e => .error e

end TwoTier.FixedWidth
