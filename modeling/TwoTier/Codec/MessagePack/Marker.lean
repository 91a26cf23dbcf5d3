import TwoTier.Codec.Reader
import TwoTier.Decimal.Binary64

/-!
# Markers of MessagePack

Every MessagePack value starts with a marker byte, which says what the value is and holds a small
value or length itself, or says how many bytes hold it. `Marker.of` decodes the byte, and
`Token.ofMarker` reads what belongs to it: a scalar whole, of an array or a map only the length.
Numbers and lengths have their most significant byte first.
-/

namespace TwoTier.MessagePack

open Reader

/-- Why bytes cannot be read. -/
inductive Fault where
  /-- The input ends where a value should start. -/
  | noMarker
  /-- The input ends inside a value. -/
  | short
  /-- The marker is reserved, or starts no number where one is wanted. -/
  | wrongMarker
  /-- An array or a map has more parts than the value. -/
  | wrongLength
  /-- A text is not UTF-8. -/
  | badText
  /-- A value is read whole, and is none of the type. -/
  | mismatched
  /-- Arrays and maps nest too deep. -/
  | tooDeep
deriving DecidableEq, Repr

/-! ### Markers -/

/-- A length: in the marker itself, or in the bytes after it. -/
inductive Length where
  | known (n : Nat)
  | stored (width : Nat)
deriving DecidableEq, Repr

/-- What the first byte of a value says. -/
inductive Marker where
  | nil
  | reserved
  | bool (b : Bool)
  /-- A number in the marker itself. -/
  | small (i : Int)
  | unsigned (width : Nat)
  | signed (width : Nat)
  | single
  | double
  | text (n : Length)
  | binary (n : Length)
  | array (n : Length)
  | map (n : Length)
  | extension (n : Length)
deriving DecidableEq, Repr

/-- The marker that a byte is. -/
def Marker.of (b : UInt8) : Marker :=
  let n := b.toNat
  if n < 0x80 then .small n
  else if n < 0x90 then .map (.known (n - 0x80))
  else if n < 0xa0 then .array (.known (n - 0x90))
  else if n < 0xc0 then .text (.known (n - 0xa0))
  else if n < 0xc1 then .nil
  else if n < 0xc2 then .reserved
  else if n < 0xc4 then .bool (n == 0xc3)
  -- within a family the markers follow the width of what is stored: 1, 2, 4 and 8 bytes
  else if n < 0xc7 then .binary (.stored (1 <<< (n - 0xc4)))
  else if n < 0xca then .extension (.stored (1 <<< (n - 0xc7)))
  else if n < 0xcb then .single
  else if n < 0xcc then .double
  else if n < 0xd0 then .unsigned (1 <<< (n - 0xcc))
  else if n < 0xd4 then .signed (1 <<< (n - 0xd0))
  else if n < 0xd9 then .extension (.known (1 <<< (n - 0xd4)))
  else if n < 0xdc then .text (.stored (1 <<< (n - 0xd9)))
  -- arrays and maps have no one-byte length
  else if n < 0xde then .array (.stored (1 <<< (n - 0xdc + 1)))
  else if n < 0xe0 then .map (.stored (1 <<< (n - 0xde + 1)))
  else .small (n - 0x100)

/-- A natural in `width` bytes. -/
def word (width : Nat) : Reader Fault Nat := do
  let b ← take .short width
  pure (Bytes.ofBigEndian b)

/-- Reads a length. -/
def Length.reader : Length → Reader Fault Nat
  | .known n => pure n
  | .stored width => word width

/-! ### Tokens -/

/-- A scalar, or the start of an array, a map or an extension. -/
inductive Token where
  | nil
  | bool (b : Bool)
  /-- A number of an unsigned form. -/
  | nat (n : Nat)
  /-- A number of a signed form. -/
  | int (i : Int)
  | float (x : Binary64)
  /-- The bytes of a text, which need not be UTF-8. -/
  | text (b : Bytes)
  | binary (b : Bytes)
  | array (n : Nat)
  | map (n : Nat)
  | extension (n : Nat)
deriving DecidableEq

/-- The integer in two's complement with the given bits. -/
def signedValue (width n : Nat) : Int :=
  if 2 * n < Bytes.bound width then n else n - Bytes.bound width

/-- Reads what belongs to a marker. -/
def Token.ofMarker : Marker → Reader Fault Token
  | .nil => pure .nil
  | .reserved => fail .wrongMarker
  | .bool b => pure (.bool b)
  -- a number in the marker counts as unsigned if it can
  | .small i => pure (if 0 ≤ i then .nat i.toNat else .int i)
  | .unsigned width => do
    let n ← word width
    pure (.nat n)
  | .signed width => do
    let n ← word width
    pure (.int (signedValue width n))
  | .single => do
    let n ← word 4
    pure (.float (.ofSingle n))
  | .double => do
    let n ← word 8
    pure (.float ⟨UInt64.ofNat n⟩)
  | .text l => do
    let n ← l.reader
    let b ← take .short n
    pure (.text b)
  | .binary l => do
    let n ← l.reader
    let b ← take .short n
    pure (.binary b)
  | .array l => do
    let n ← l.reader
    pure (.array n)
  | .map l => do
    let n ← l.reader
    pure (.map n)
  | .extension l => do
    let n ← l.reader
    pure (.extension n)

/-- Reads a marker. -/
def marker : Reader Fault Marker := do
  let b ← byte .noMarker
  pure (Marker.of b)

/-- Reads a token. -/
def token : Reader Fault Token := do
  let m ← marker
  Token.ofMarker m

end TwoTier.MessagePack
