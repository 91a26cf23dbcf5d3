import TwoTier.Bytes
import TwoTier.Decimal.Shortest
import TwoTier.Value.Shape

/-!
# Writing JSON text

`JsonText.write` writes a value of a given shape without white space. Objects keep the order of
their entries, a record has its fields in the order of its shape, and a choice is its name.

* In a string the quote, the backslash and the control characters below `0x20` are escaped, with the
  short escapes where there are any; all else stands for itself (`escapeByte`).
* A double has the fewest digits that read back as it. From `1e-5` up to below `1e16` it is written
  positionally and always has a point, otherwise with an exponent, which always has a sign;
  infinities and not-a-numbers are `null` (`floatText`).
-/

namespace TwoTier.JsonText

/-! ### Strings -/

/-- A lower-case hexadecimal digit. -/
def hexDigit (n : Nat) : UInt8 := Bytes.ascii (Nat.digitChar n)

/-- A byte of a string as it is written. -/
def escapeByte (b : UInt8) : Bytes :=
  if b == 0x22 then Bytes.ofText "\\\""
  else if b == 0x5c then Bytes.ofText "\\\\"
  else if b == 0x08 then Bytes.ofText "\\b"
  else if b == 0x0c then Bytes.ofText "\\f"
  else if b == 0x0a then Bytes.ofText "\\n"
  else if b == 0x0d then Bytes.ofText "\\r"
  else if b == 0x09 then Bytes.ofText "\\t"
  else if b < 0x20 then
    Bytes.ofText "\\u00" ++ [hexDigit (b.toNat / 16), hexDigit (b.toNat % 16)]
  else [b]

/-- A string in quotes. -/
def writeText (s : String) : Bytes :=
  Bytes.ascii '"' :: ((Bytes.ofText s).flatMap escapeByte ++ [Bytes.ascii '"'])

/-! ### Numbers -/

/-- An integer in decimal. -/
def writeInt (i : Int) : Bytes := Bytes.ofText (toString i)

/-- The digits of a positive decimal in the notation of JSON text. -/
def decimalText (d : Decimal) : String :=
  let digits := Nat.toDigits 10 d.digits
  let n := digits.length
  let point : Int := n + d.exponent
  if 0 ≤ d.exponent && point ≤ 16 then
    String.ofList (digits ++ List.replicate d.exponent.toNat '0') ++ ".0"
  else if 0 < point && point ≤ 16 then
    String.ofList (digits.take point.toNat ++ '.' :: digits.drop point.toNat)
  else if -5 < point && point ≤ 0 then
    "0." ++ String.ofList (List.replicate (-point).toNat '0' ++ digits)
  else
    let tail := if n = 1 then [] else '.' :: digits.drop 1
    let mark := if 0 < point then "e+" else "e"
    String.ofList (digits.take 1 ++ tail) ++ mark ++ toString (point - 1)

/-- A double; `null` if it is not finite. -/
def floatText (x : Binary64) : String :=
  if !x.isFinite then "null"
  else
    let sign := if x.isNegative then "-" else ""
    if x.isZero then sign ++ "0.0" else sign ++ decimalText x.shortest

/-! ### Values -/

/-- Items between brackets or braces, with commas between them. -/
def enclose (left right : Char) : List Bytes → Bytes
  | [] => [Bytes.ascii left, Bytes.ascii right]
  | b :: bs =>
    Bytes.ascii left :: (b ++ bs.flatMap (Bytes.ascii ',' :: ·)) ++ [Bytes.ascii right]

/-- A key, a colon and a value. -/
def writeEntry (k : String) (v : Bytes) : Bytes := writeText k ++ Bytes.ascii ':' :: v

mutual
/-- Writes a free-form value. -/
def writeJson : Json → Bytes
  | .null => Bytes.ofText "null"
  | .bool b => Bytes.ofText (if b then "true" else "false")
  | .int i => writeInt i
  | .float x => Bytes.ofText (floatText x)
  | .text s => writeText s
  | .array items => enclose '[' ']' (writeItems items)
  | .object entries => enclose '\x7b' '\x7d' (writeEntries entries)
/-- Writes the items of an array. -/
def writeItems : List Json → List Bytes
  | [] => []
  | v :: vs => writeJson v :: writeItems vs
/-- Writes the entries of an object. -/
def writeEntries : List (String × Json) → List Bytes
  | [] => []
  | (k, v) :: es => writeEntry k (writeJson v) :: writeEntries es
end

mutual
/-- Writes a value of the given shape. -/
def write : {α : Type} → Shape α → α → Bytes
  | _, .unit, _ => Bytes.ofText "null"
  | _, .bool, b => Bytes.ofText (if b then "true" else "false")
  | _, .char, c => writeText (String.singleton c)
  | _, .text, s => writeText s
  | _, .int _, i => writeInt i.1
  | _, .float, x => Bytes.ofText (floatText x)
  | _, .option s, v => match v with
    | none => Bytes.ofText "null"
    | some a => write s a
  | _, .list s, v => enclose '[' ']' (v.map (write s))
  | _, .map s, v => enclose '\x7b' '\x7d' (v.entries.map fun e => writeEntry e.1 (write s e.2))
  | _, .pair s t, v => enclose '[' ']' [write s v.1, write t v.2]
  | _, .record _ fs _ fields _, v => enclose '\x7b' '\x7d' (writeFields fs (fields v))
  | _, .choice names _ index _, v => writeText (names.get (index v))
  | _, .json, v => writeJson v
  | _, .refused _, _ => []
/-- Writes the fields of a record as entries. -/
def writeFields : {α : Type} → Fields α → α → List Bytes
  | _, .nil, _ => []
  | _, .cons name _ s rest, v => writeEntry name (write s v.1) :: writeFields rest v.2
end

end TwoTier.JsonText
