import TwoTier.Decimal.Binary64

/-!
# The shortest decimal of a double

The reals that round to a finite double form an interval around it. `Binary64.shortest` gives a
decimal `digits · 10 ^ exponent` of that interval with as few digits as possible, the nearest to the
double among those, and the even one of two equally near. So the decimal reads back as the double
it came from.

The search goes through the grids of `1, 2, …, 17` digits. If any point of a grid lies in the
interval, one of the two neighbours of the double on that grid does, so only these are tried; on the
grid of seventeen digits one always does.
-/

namespace TwoTier

/-- A decimal `digits · 10 ^ exponent`. -/
structure Decimal where
  digits : Nat
  exponent : Int
deriving DecidableEq, Repr

namespace Decimal

/-- The number of decimal digits of a natural; zero has one. -/
def width (n : Nat) : Nat := (Nat.toDigits 10 n).length

/-- The same decimal without zeros at the end of its digits. -/
def trim : (fuel : Nat) → Decimal → Decimal
  | 0, d => d
  | fuel + 1, d => if d.digits % 10 = 0 then trim fuel ⟨d.digits / 10, d.exponent + 1⟩ else d

end Decimal

namespace Binary64

/-- A power of ten as a quotient of naturals. -/
def tenTo (k : Int) : Nat × Nat := (Nat.pow 10 k.toNat, Nat.pow 10 (-k).toNat)

/-- An exponent `k` with `num / den < 10 ^ k`, which is least or one above the least. -/
def decimalExponent (num den : Nat) : Int :=
  if den ≤ num then Decimal.width (num / den) else 1 - (Decimal.width (den / num) : Int) + 1

/-- The point of the grid `10 ^ k` nearest to `mid / den`, if it lies between `low / den` and
`high / den`; the ends belong to the interval when `closed`. -/
def gridPoint (low mid high den : Nat) (closed : Bool) (k : Int) : Option Nat :=
  let n := (tenTo k).1
  let d := (tenTo k).2
  let inside (c : Nat) : Bool :=
    let v := c * n * den
    if closed then low * d ≤ v && v ≤ high * d else low * d < v && v < high * d
  let c := mid * d / (n * den)
  let nearest := roundEven (mid * d) (n * den)
  if inside nearest then some nearest
  else if inside c then some c
  else if inside (c + 1) then some (c + 1)
  else none

/-- The grids of `digits, digits + 1, …` digits, as many as `fuel` says: the first with a point in
the interval. -/
def searchGrids (low mid high den : Nat) (closed : Bool) (top : Int) :
    (fuel digits : Nat) → Option Decimal
  | 0, _ => none
  | fuel + 1, digits =>
    match gridPoint low mid high den closed (top - digits) with
    | some c => some ⟨c, top - digits⟩
    | none => searchGrids low mid high den closed top fuel (digits + 1)

/-- The shortest decimal that rounds to the magnitude of a finite double other than zero. -/
def shortest (x : Binary64) : Decimal :=
  -- in quarters of the last place; the lower neighbour of a power of two is only half as far away
  let m := x.significand
  let q := x.exponent - 2
  let up := 1 <<< q.toNat
  let den := 1 <<< (-q).toNat
  let below := if m = hiddenBit ∧ 1 < x.exponentField then 1 else 2
  let mid := 4 * m * up
  let top := decimalExponent mid den
  let found := searchGrids ((4 * m - below) * up) mid ((4 * m + 2) * up) den (m % 2 == 0) top 20 1
  (found.getD ⟨mid / den, 0⟩).trim 20

end Binary64

end TwoTier
