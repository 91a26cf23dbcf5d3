import TwoTier.Codec.Reader
import TwoTier.Decimal.Binary64

/-!
# Numbers in JSON text

A number is an optional minus sign, digits without a leading zero, and optionally a fraction and an
exponent. Without fraction and exponent, and within the range of 64-bit integers, it is an integer;
anything else is a double, `-0` included.

The double is computed in three rounded steps, so that it can differ from the nearest one in the
last place:

* digits are gathered into a significand for as long as it stays below `2 ^ 64`; later digits count
  only through the exponent (`gather`);
* the significand is rounded to a double, and
* multiplied or divided by a power of ten, itself rounded to a double, in steps of at most `10 ^
  308` (`scale`). A product beyond the range is a fault, a quotient below it is zero.
-/

namespace TwoTier.JsonText

/-- Why a JSON text cannot be read. -/
inductive Fault where
  /-- The input ends inside a value. -/
  | truncated
  /-- The input is not well formed. -/
  | malformed
  /-- The input is well formed where it was read, but has a value of another type. -/
  | mismatched
deriving DecidableEq, Repr

/-- A number that was read. -/
inductive Number where
  | int (i : Int)
  | float (x : Binary64)
deriving DecidableEq

/-- An ASCII digit. -/
def isDigit (b : UInt8) : Bool := 0x30 ≤ b && b ≤ 0x39

/-- The value of an ASCII digit. -/
def digitValue (b : UInt8) : Nat := b.toNat - 0x30

/-! ### Values of digit strings -/

/-- Appends digits to a significand for as long as it stays below `2 ^ 64`; also gives the digits
that were not used. -/
def gather (significand : Nat) : Bytes → Nat × Bytes
  | [] => (significand, [])
  | d :: ds =>
    let next := significand * 10 + digitValue d
    if next < UInt64.size then gather next ds else (significand, d :: ds)

/-- The number with the given digits. -/
def digitsValue (ds : Bytes) : Nat := ds.foldl (fun n d => n * 10 + digitValue d) 0

/-- The double nearest to a power of ten. -/
def tenPower (k : Nat) : Binary64 := .ofRatio false (Nat.pow 10 k) 1

/-- A double divided by `10 ^ k`, at most `10 ^ 308` at a time. -/
def scaleDown (x : Binary64) (k : Nat) : Binary64 :=
  if k ≤ 308 then x.divMagnitude (tenPower k)
  else if x.isZero then x
  else scaleDown (x.divMagnitude (tenPower 308)) (k - 308)
termination_by k

/-- The double for `significand · 10 ^ exponent`; `none` beyond the range. -/
def scale (significand : Nat) (exponent : Int) : Option Binary64 :=
  let x := Binary64.ofNat significand
  if exponent < 0 then some (scaleDown x exponent.natAbs)
  else if 308 < exponent then if x.isZero then some x else none
  else
    let y := x.mulMagnitude (tenPower exponent.toNat)
    if y.isFinite then some y else none

/-- The number written with the given sign, digits, fraction and exponent. -/
def Number.ofParts (negative : Bool) (whole : Bytes) (fraction : Option Bytes)
    (exponent : Option Int) : Except Fault Number :=
  let (n, unused) := gather 0 whole
  match fraction, exponent, unused with
  | none, none, [] =>
    -- minus zero and what lies below the least integer of 64 bits are doubles
    if !negative then .ok (.int n)
    else if 0 < n ∧ n ≤ 0x8000000000000000 then .ok (.int (-n))
    else .ok (.float ((Binary64.ofNat n).withSign true))
  | _, _, _ =>
    -- digits that were not used before the point still count through the exponent
    let digits := fraction.getD []
    let (m, rest) := gather n digits
    let e : Int := exponent.getD 0 + unused.length - (digits.length - rest.length : Nat)
    match scale m e with
    | some x => .ok (.float (x.withSign negative))
    | none => .error .malformed

/-! ### Reading -/

/-- The digits of a number's fraction, if a point comes next. -/
def fraction : Reader Fault (Option Bytes) := do
  if (← Reader.peek) == some (Bytes.ascii '.') then
    let _ ← Reader.byte .truncated
    let ds ← Reader.span isDigit
    if ds.isEmpty then
      match ← Reader.peek with
      | none => Reader.fail .truncated
      | some _ => Reader.fail .malformed
    else pure (some ds)
  else pure none

/-- A number's exponent, if an `e` of either case comes next. -/
def exponent : Reader Fault (Option Int) := do
  let mark ← Reader.peek
  if mark == some (Bytes.ascii 'e') || mark == some (Bytes.ascii 'E') then
    let _ ← Reader.byte .truncated
    let sign ← Reader.peek
    let negative := sign == some (Bytes.ascii '-')
    if negative || sign == some (Bytes.ascii '+') then
      let _ ← Reader.byte .truncated
    let first ← Reader.byte .truncated
    if isDigit first then
      let ds ← Reader.span isDigit
      let n : Int := digitsValue (first :: ds)
      pure (some (if negative then -n else n))
    else Reader.fail .malformed
  else pure none

/-- The digits before a number's fraction: no zero stands before another digit. -/
def whole : Reader Fault Bytes := do
  let first ← Reader.byte .truncated
  if isDigit first then
    let ds ← Reader.span isDigit
    if first == Bytes.ascii '0' && !ds.isEmpty then Reader.fail .malformed
    else pure (first :: ds)
  else Reader.fail .malformed

/-- A number. -/
def number : Reader Fault Number := do
  let negative := (← Reader.peek) == some (Bytes.ascii '-')
  if negative then
    let _ ← Reader.byte .truncated
  let ds ← whole
  let f ← fraction
  let e ← exponent
  Reader.ofExcept (Number.ofParts negative ds f e)

/-! ### Numbers of ignored values

In a value that is not kept, a number is only scanned: its size does not matter, and a missing digit
is a fault of form, also at the end of the input. -/

/-- One digit or more. -/
def someDigits : Reader Fault Unit := do
  let ds ← Reader.span isDigit
  if ds.isEmpty then Reader.fail .malformed else pure ()

/-- A minus sign, if there is one. -/
def skipMinus : Reader Fault Unit := do
  if (← Reader.peek) == some (Bytes.ascii '-') then
    let _ ← Reader.byte .malformed

/-- A fraction, if there is one. -/
def skipFraction : Reader Fault Unit := do
  if (← Reader.peek) == some (Bytes.ascii '.') then
    let _ ← Reader.byte .malformed
    someDigits

/-- An exponent, if there is one. -/
def skipExponent : Reader Fault Unit := do
  let mark ← Reader.peek
  if mark == some (Bytes.ascii 'e') || mark == some (Bytes.ascii 'E') then
    let _ ← Reader.byte .malformed
    let sign ← Reader.peek
    if sign == some (Bytes.ascii '-') || sign == some (Bytes.ascii '+') then
      let _ ← Reader.byte .malformed
    someDigits

/-- Passes over a number. -/
def skipNumber : Reader Fault Unit := do
  skipMinus
  let first ← Reader.byte .malformed
  if isDigit first then
    let ds ← Reader.span isDigit
    if first == Bytes.ascii '0' && !ds.isEmpty then Reader.fail .malformed
    else
      skipFraction
      skipExponent
  else Reader.fail .malformed

theorem consumes_skipNumber : skipNumber.Consumes :=
  Reader.Consumes.bind_right _ fun _ => (Reader.consumes_byte _).bind _

end TwoTier.JsonText
