/-!
# Double-precision numbers

A double is its sixty-four bits, so that every pattern, each not-a-number included, is kept as it
is. Arithmetic goes through exact quotients of naturals: a finite double is
`± significand · 2 ^ exponent`, and `Binary64.ofRatio` rounds a quotient to the nearest double, a
tie to the even significand, and to infinity where the nearest lies beyond the range. No operation
here depends on the machine.
-/

namespace TwoTier

/-- A double-precision number, as its bits. -/
structure Binary64 where
  bits : UInt64
deriving DecidableEq, Inhabited

/-- The nearest natural to `num / den`, of two nearest the even one. -/
def roundEven (num den : Nat) : Nat :=
  let k := num / den
  let r := num % den
  if 2 * r < den then k
  else if den < 2 * r then k + 1
  else k + k % 2

namespace Binary64

/-! ### Fields -/

/-- The bit of the sign, `2 ^ 63`. -/
def signBit : Nat := 0x8000000000000000

/-- The bit of a significand that is not stored, `2 ^ 52`. -/
def hiddenBit : Nat := 0x10000000000000

/-- Whether the sign is set. -/
def isNegative (x : Binary64) : Bool := x.bits.toNat / signBit == 1

/-- The eleven bits of the exponent. -/
def exponentField (x : Binary64) : Nat := x.bits.toNat / hiddenBit % 2048

/-- The fifty-two bits of the fraction. -/
def fraction (x : Binary64) : Nat := x.bits.toNat % hiddenBit

/-- Neither infinite nor not-a-number. -/
def isFinite (x : Binary64) : Bool := x.exponentField != 2047

/-- Zero of either sign. -/
def isZero (x : Binary64) : Bool := x.bits.toNat % signBit == 0

/-- The integer `m` of a finite double `± m · 2 ^ exponent`. -/
def significand (x : Binary64) : Nat :=
  if x.exponentField = 0 then x.fraction else hiddenBit + x.fraction

/-- The power of two in a finite double `± significand · 2 ^ q`. -/
def exponent (x : Binary64) : Int :=
  if x.exponentField = 0 then -1074 else x.exponentField - 1075

/-- The magnitude of a finite double as a quotient of naturals. -/
def ratio (x : Binary64) : Nat × Nat :=
  (x.significand <<< x.exponent.toNat, 1 <<< (-x.exponent).toNat)

/-! ### Rounding -/

/-- The bits of infinity. -/
def infinityBits : Nat := 2047 * hiddenBit

/-- The greatest `e` with `2 ^ e ≤ num / den`, for positive arguments. -/
def floorLog2 (num den : Nat) : Int :=
  let e : Int := (num.log2 : Int) - den.log2
  if den <<< e.toNat ≤ num <<< (-e).toNat then e else e - 1

/-- The bits, without the sign, of the double nearest to `num / den`. -/
def magnitudeBits (num den : Nat) : Nat :=
  if num = 0 then 0
  else
    let q := max (floorLog2 num den - 52) (-1074)
    if 971 < q then infinityBits
    else
      -- rounding up to the next power of two carries into the exponent by itself
      let m := roundEven (num <<< (-q).toNat) (den <<< q.toNat)
      if m < hiddenBit then m
      else min infinityBits ((q + 1075).toNat * hiddenBit + (m - hiddenBit))

/-- The double nearest to `num / den`, negated if `negative`. -/
def ofRatio (negative : Bool) (num den : Nat) : Binary64 :=
  ⟨UInt64.ofNat ((if negative then signBit else 0) + magnitudeBits num den)⟩

/-- The double nearest to a natural. -/
def ofNat (n : Nat) : Binary64 := ofRatio false n 1

/-- The double nearest to an integer. -/
def ofInt (i : Int) : Binary64 := ofRatio (i < 0) i.natAbs 1

/-- The double with the sign of `x` set as told. -/
def withSign (negative : Bool) (x : Binary64) : Binary64 :=
  ⟨UInt64.ofNat ((if negative then signBit else 0) + x.bits.toNat % signBit)⟩

/-- The product of the magnitudes of two finite doubles, rounded once. -/
def mulMagnitude (x y : Binary64) : Binary64 :=
  ofRatio false (x.ratio.1 * y.ratio.1) (x.ratio.2 * y.ratio.2)

/-- The quotient of the magnitudes of two finite doubles, rounded once. -/
def divMagnitude (x y : Binary64) : Binary64 :=
  ofRatio false (x.ratio.1 * y.ratio.2) (x.ratio.2 * y.ratio.1)

/-! ### Widening -/

/-- The double with the value of a single-precision number, given by its bits. The fraction of a
not-a-number is kept, and its quiet bit is set. -/
def ofSingle (bits : Nat) : Binary64 :=
  -- one bit of sign, eight of exponent, twenty-three of fraction
  let negative := bits / 0x80000000 % 2 == 1
  let e := bits / 0x800000 % 0x100
  let f := bits % 0x800000
  if e = 255 then
    let quiet := if f = 0 then 0 else 0x8000000000000 ||| f <<< 29
    ⟨UInt64.ofNat ((if negative then signBit else 0) + infinityBits + quiet)⟩
  else if e = 0 then ofRatio negative f (1 <<< 149)
  else ofRatio negative ((0x800000 + f) <<< (e - 150)) (1 <<< (150 - e))

end Binary64

end TwoTier
