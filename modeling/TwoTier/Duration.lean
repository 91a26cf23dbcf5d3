/-!
# Durations

A time to live is a span of whole seconds, fewer than `2 ^ 64`, and nanoseconds below one second.

* `Duration.toNanos` is the view: durations with equal nanosecond counts are equal (`ext_toNanos`);
* `Duration.ofParts?` carries nanoseconds beyond a second into the seconds, and refuses a sum that
  does not fit;
* `Duration.text` shows a span in the largest unit of which it holds at least one.
-/

namespace TwoTier

/-- Nanoseconds in one second. -/
abbrev nanosPerSec : Nat := 1000000000

/-- A span of time. -/
structure Duration where
  /-- Whole seconds. -/
  secs : Nat
  /-- Nanoseconds on top of the whole seconds. -/
  nanos : Nat
  secs_lt : secs < UInt64.size
  nanos_lt : nanos < nanosPerSec
deriving DecidableEq

namespace Duration

/-- A number of whole seconds. -/
def ofSecs (secs : UInt64) : Duration := ⟨secs.toNat, 0, secs.toNat_lt, by decide⟩

/-- No time at all. -/
def zero : Duration := ofSecs 0

instance : Inhabited Duration := ⟨zero⟩

/-- Seconds and nanoseconds, with whole seconds among the nanoseconds carried; `none` when the sum
has too many seconds. -/
def ofParts? (secs nanos : Nat) : Option Duration :=
  if h : secs + nanos / nanosPerSec < UInt64.size then
    some ⟨secs + nanos / nanosPerSec, nanos % nanosPerSec, h, Nat.mod_lt _ (by decide)⟩
  else none

@[simp] theorem ofParts?_parts (d : Duration) : ofParts? d.secs d.nanos = some d := by
  obtain ⟨s, n, hs, hn⟩ := d
  have h0 : n / nanosPerSec = 0 := Nat.div_eq_of_lt hn
  have h1 : n % nanosPerSec = n := Nat.mod_eq_of_lt hn
  have h : s + n / nanosPerSec < UInt64.size := by rw [h0]; exact hs
  rw [ofParts?, dif_pos h]
  simp only [h0, h1, Nat.add_zero]

/-- The span in nanoseconds. -/
def toNanos (d : Duration) : Nat := d.secs * nanosPerSec + d.nanos

theorem ext_toNanos {a b : Duration} (h : a.toNanos = b.toNanos) : a = b := by
  obtain ⟨s, n, hs, hn⟩ := a
  obtain ⟨t, m, ht, hm⟩ := b
  simp only [toNanos, nanosPerSec] at h hn hm
  -- the nanoseconds are below a second on both sides, so the seconds can be told apart
  have h1 : s = t := by omega
  have h2 : n = m := by omega
  subst h1 h2
  rfl

/-- Whether the span is empty. -/
def isZero (d : Duration) : Bool := d.secs == 0 && d.nanos == 0

theorem isZero_iff {d : Duration} : d.isZero = true ↔ d.toNanos = 0 := by
  simp only [isZero, toNanos, nanosPerSec, Bool.and_eq_true, beq_iff_eq]
  omega

/-- Whole milliseconds in the span. -/
def toMillis (d : Duration) : Nat := d.toNanos / 1000000

/-! ### Text -/

/-- The fraction `n / 10 ^ places` in decimal: a point and the digits without zeros
at the end, or nothing for zero. -/
def fractionText (places n : Nat) : String :=
  let digits := Nat.toDigits 10 n
  let padded := List.replicate (places - digits.length) '0' ++ digits
  let kept := (padded.reverse.dropWhile (· == '0')).reverse
  if n = 0 then "" else String.ofList ('.' :: kept)

/-- The span in the largest of the units s, ms, µs and ns of which it holds at least one, with the
rest as a decimal fraction. -/
def text (d : Duration) : String :=
  if 0 < d.secs then toString d.secs ++ fractionText 9 d.nanos ++ "s"
  else if 1000000 ≤ d.nanos then
    toString (d.nanos / 1000000) ++ fractionText 6 (d.nanos % 1000000) ++ "ms"
  else if 1000 ≤ d.nanos then
    toString (d.nanos / 1000) ++ fractionText 3 (d.nanos % 1000) ++ "µs"
  else toString d.nanos ++ "ns"

end Duration

end TwoTier
