import TwoTier.Codec.JsonText.Number

/-!
# Scalars in JSON text

White space, the three words, numbers and strings. What a value is shows in its first byte
(`Start`). A scalar of the wrong type is read to its end before it is refused, so a fault of form
inside it is the one reported (`scalar`).

Strings are read byte by byte: an escape stands for a character, every other byte from `0x20` on for
itself, and at the closing quote the whole must be UTF-8. Two escapes of surrogates, the leading one
first, make one character; a surrogate alone is a fault.
-/

namespace TwoTier.JsonText

open Reader

/-! ### White space and first bytes -/

/-- The white space of JSON. -/
def isBlank (b : UInt8) : Bool := b == 0x20 || b == 0x0a || b == 0x09 || b == 0x0d

/-- Passes over white space and gives the byte after it, which stays; `none` at the end. -/
def peekPastBlank : Reader Fault (Option UInt8) := do
  let _ ← span isBlank
  peek

/-- What a value that starts with a given byte is. -/
inductive Start where
  | nullWord
  | trueWord
  | falseWord
  | number
  | quote
  | bracket
  | brace
  | other
deriving DecidableEq, Repr

/-- What a value that starts with `b` is. -/
def Start.of (b : UInt8) : Start :=
  if b == Bytes.ascii 'n' then .nullWord
  else if b == Bytes.ascii 't' then .trueWord
  else if b == Bytes.ascii 'f' then .falseWord
  else if b == Bytes.ascii '-' || isDigit b then .number
  else if b == Bytes.ascii '"' then .quote
  else if b == Bytes.ascii '[' then .bracket
  else if b == Bytes.ascii '\x7b' then .brace
  else .other

/-- Passes over white space up to a value. -/
def start : Reader Fault Start := do
  match ← peekPastBlank with
  | none => fail .truncated
  | some b => pure (Start.of b)

/-! ### Words -/

/-- Exactly the given bytes. -/
def exactly : Bytes → Reader Fault Unit
  | [] => pure ()
  | b :: bs => do
    let a ← byte .truncated
    if a == b then exactly bs else fail .malformed

/-! ### Strings -/

/-- The value of a hexadecimal digit. -/
def hexValue? (b : UInt8) : Option Nat :=
  if isDigit b then some (digitValue b)
  else if Bytes.ascii 'a' ≤ b && b ≤ Bytes.ascii 'f' then some (b.toNat - 0x61 + 10)
  else if Bytes.ascii 'A' ≤ b && b ≤ Bytes.ascii 'F' then some (b.toNat - 0x41 + 10)
  else none

/-- The number with the given hexadecimal digits. -/
def hexNumber? : Bytes → Option Nat :=
  List.foldlM (fun n b => (hexValue? b).map (n * 16 + ·)) 0

/-- The four hexadecimal digits of an escape. -/
def hexFour : Reader Fault Nat := do
  let ds ← take .truncated 4
  ofOption .malformed (hexNumber? ds)

/-- The UTF-8 form of the character with the given code. -/
def codeBytes (n : Nat) : Bytes := String.utf8EncodeChar (Char.ofNat n)

/-- The code of the character that two surrogates stand for. -/
def joinSurrogates (lead trail : Nat) : Nat := (lead - 0xd800) * 0x400 + (trail - 0xdc00) + 0x10000

/-- An escape, after its backslash. -/
def escape : Reader Fault Bytes := do
  let b ← byte .truncated
  if b == Bytes.ascii '"' || b == Bytes.ascii '\\' || b == Bytes.ascii '/' then pure [b]
  else if b == Bytes.ascii 'b' then pure [0x08]
  else if b == Bytes.ascii 'f' then pure [0x0c]
  else if b == Bytes.ascii 'n' then pure [0x0a]
  else if b == Bytes.ascii 'r' then pure [0x0d]
  else if b == Bytes.ascii 't' then pure [0x09]
  else if b == Bytes.ascii 'u' then
    let n ← hexFour
    -- a trailing surrogate alone, any other code, or a leading surrogate with its partner
    if 0xdc00 ≤ n && n ≤ 0xdfff then fail .malformed
    else if n < 0xd800 || 0xdbff < n then pure (codeBytes n)
    else
      exactly [Bytes.ascii '\\', Bytes.ascii 'u']
      let m ← hexFour
      if m < 0xdc00 || 0xdfff < m then fail .malformed
      else pure (codeBytes (joinSurrogates n m))
  else fail .malformed

/-- An escape in a text that is not kept: surrogates are not paired. -/
def skipEscape : Reader Fault Bytes := do
  let b ← byte .truncated
  if b == Bytes.ascii 'u' then
    let _ ← hexFour
    pure []
  else if [Bytes.ascii '"', Bytes.ascii '\\', Bytes.ascii '/', Bytes.ascii 'b', Bytes.ascii 'f',
      Bytes.ascii 'n', Bytes.ascii 'r', Bytes.ascii 't'].contains b then pure []
  else fail .malformed

/-- One step through a string, with the bytes so far in reverse: an escape, a byte that stands for
itself, or the closing quote. -/
def textStep (escape : Reader Fault Bytes) (sofar : Bytes) : Reader Fault (Turn Bytes Bytes) := do
  let b ← byte .truncated
  if b == Bytes.ascii '"' then pure (.done sofar.reverse)
  else if b == Bytes.ascii '\\' then
    let u ← escape
    pure (.next (u.reverse ++ sofar))
  else if b < 0x20 then fail .malformed
  else pure (.next (b :: sofar))

theorem moves_textStep (escape : Reader Fault Bytes) (sofar : Bytes) :
    (textStep escape sofar).Moves :=
  ((consumes_byte _).bind _).moves

/-- The bytes of a string, after its opening quote. -/
def textBytes : Reader Fault Bytes := loop (textStep escape) (moves_textStep _) []

/-- A string, after its opening quote. -/
def textBody : Reader Fault String := do
  let b ← textBytes
  ofOption .malformed (Bytes.text? b)

/-- Passes over a string, after its opening quote. Its bytes need not be UTF-8. -/
def skipText : Reader Fault Unit := do
  let _ ← loop (textStep skipEscape) (moves_textStep _) []

/-! ### Scalars -/

/-- A scalar that was read. -/
inductive Scalar where
  | null
  | bool (b : Bool)
  | number (n : Number)
  | text (s : String)
deriving DecidableEq

/-- A scalar, if that is what a value with the given start is. -/
def scalarAt : Start → Reader Fault Scalar
  | .nullWord => do exactly (Bytes.ofText "null"); pure .null
  | .trueWord => do exactly (Bytes.ofText "true"); pure (.bool true)
  | .falseWord => do exactly (Bytes.ofText "false"); pure (.bool false)
  | .number => do return .number (← number)
  | .quote => do let _ ← byte .truncated; return .text (← textBody)
  | .bracket => fail .mismatched
  | .brace => fail .mismatched
  | .other => fail .malformed

/-- A scalar that `accept` makes something of. -/
def scalar {α : Type} (accept : Scalar → Option α) : Reader Fault α := do
  let v ← scalarAt (← start)
  ofOption .mismatched (accept v)

/-- A value of a type that has no scalars: whatever comes next is refused. -/
def refuse {α : Type} (st : Start) : Reader Fault α := do
  let _ ← scalarAt st
  fail .mismatched

end TwoTier.JsonText
