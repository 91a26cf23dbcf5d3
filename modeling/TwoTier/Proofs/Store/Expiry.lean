import Mathlib.Order.Bounds.Basic
import Mathlib.Order.MinMax
import TwoTier.Clock
import TwoTier.Config.Settings
import TwoTier.Store.Memcached
import TwoTier.Store.Redis

/-!
# Lifetimes as servers are told of them

A server is told how long a record lasts as one number, which the store makes of the time to live.
Both stores guard against zero and against numbers that do not fit; three guards are missing.

## Memcached

The seconds of a write are the least whole number that lasts as long as the time to live
(`Duration.ceilSecs`), clamped to `1 … 2 ^ 32 - 1`. Rounding up is done before the clamp, on words
of 64 bits, so the longest second of all wraps around to the shortest lifetime
(`Memcached.expirySecs_exact_iff`).

What a server makes of the number depends on its size (`Memcached.ReadsExpiry`): one of up to 30
days counts from now, a greater one from the beginning of 1970. The store sends it without regard to
that, so a record lasts as asked for up to 30 days, and is over at once beyond them
(`Memcached.lasts_iff`).

## Redis

The milliseconds of a write are those in the time to live, clamped to `1 … 2 ^ 64 - 1`. A server
takes numbers up to `2 ^ 63 - 1` (`Redis.Accepts`), and refuses the write for a time to live of more
(`Redis.expiryMillis_accepted_iff`).
-/

namespace TwoTier

namespace Duration

/-- The span in whole seconds, rounded up. -/
def ceilSecs (d : Duration) : Nat := d.secs + if 0 < d.nanos then 1 else 0

/-- Rounded up, a span is the least number of whole seconds that are no shorter. -/
theorem isLeast_ceilSecs (d : Duration) :
    IsLeast {n | d.toNanos ≤ n * nanosPerSec} d.ceilSecs := by
  have hlt := d.nanos_lt
  simp only [nanosPerSec] at hlt
  constructor
  · show d.toNanos ≤ d.ceilSecs * nanosPerSec
    simp only [toNanos, ceilSecs, nanosPerSec]
    split <;> omega
  · -- no fewer seconds will do: they would have to cover the nanoseconds as well
    intro n (hn : d.toNanos ≤ n * nanosPerSec)
    simp only [toNanos, nanosPerSec] at hn
    unfold ceilSecs
    split <;> omega

theorem toNanos_le_ceilSecs (d : Duration) : d.toNanos ≤ d.ceilSecs * nanosPerSec :=
  d.isLeast_ceilSecs.1

theorem ceilSecs_lt (d : Duration) : d.ceilSecs * nanosPerSec < d.toNanos + nanosPerSec := by
  simp only [toNanos, ceilSecs, nanosPerSec]
  split <;> omega

theorem ceilSecs_mono {a b : Duration} (h : a.toNanos ≤ b.toNanos) : a.ceilSecs ≤ b.ceilSecs :=
  a.isLeast_ceilSecs.2 (h.trans b.toNanos_le_ceilSecs)

/-- Rounding up leaves 64 bits only above the greatest number of whole seconds. -/
theorem ceilSecs_lt_size_iff (d : Duration) :
    d.ceilSecs < UInt64.size ↔ ¬ (d.secs = UInt64.size - 1 ∧ 0 < d.nanos) := by
  have hlt := d.secs_lt
  unfold ceilSecs
  split <;> omega

/-- The greatest sum is the first one that has more than 64 bits. -/
theorem ceilSecs_le_size (d : Duration) : d.ceilSecs ≤ UInt64.size := by
  have hlt := d.secs_lt
  unfold ceilSecs
  split <;> omega

end Duration

namespace Memcached

variable {ttl longer : Duration} {ends : UnixTime → Nat → Option UnixTime}

/-! ### The number of seconds -/

/-- The seconds are rounded up on words of 64 bits. -/
theorem wholeSecs_toNat (ttl : Duration) : (wholeSecs ttl).toNat = ttl.ceilSecs % UInt64.size := by
  have hlt := ttl.secs_lt
  unfold wholeSecs Duration.ceilSecs
  split
  · -- the added second can carry the sum out of 64 bits
    rw [UInt64.toNat_add, UInt64.toNat_ofNat', Nat.mod_eq_of_lt hlt]
    rfl
  · rw [UInt64.add_zero, UInt64.toNat_ofNat', Nat.mod_eq_of_lt hlt, Nat.add_zero,
      Nat.mod_eq_of_lt hlt]

/-- The sum is the exact one iff it has 64 bits. -/
theorem wholeSecs_exact_iff (ttl : Duration) :
    (wholeSecs ttl).toNat = ttl.ceilSecs ↔ ttl.ceilSecs < UInt64.size := by
  rw [wholeSecs_toNat]
  exact Nat.mod_eq_iff_lt (by decide)

/-- At least one second is sent, … -/
theorem expirySecs_pos (ttl : Duration) : 1 ≤ expirySecs ttl := by
  have : 1 ≤ UInt32.size - 1 := by decide
  unfold expirySecs
  omega

/-- … and the number has 32 bits. -/
theorem expirySecs_lt (ttl : Duration) : expirySecs ttl < UInt32.size := by
  have : 1 ≤ UInt32.size := by decide
  unfold expirySecs
  omega

/-- If the seconds have 64 bits, they are sent within the bounds. -/
theorem expirySecs_of_lt (h : ttl.ceilSecs < UInt64.size) :
    expirySecs ttl = min (max ttl.ceilSecs 1) (UInt32.size - 1) := by
  rw [expirySecs, (wholeSecs_exact_iff ttl).mpr h]

/-- Rounded up beyond 64 bits, the longest time to live becomes the shortest. -/
theorem expirySecs_of_size_le (h : UInt64.size ≤ ttl.ceilSecs) : expirySecs ttl = 1 := by
  -- the sum is `2 ^ 64` itself, which is `0` on words
  have hsize : ttl.ceilSecs = UInt64.size := Nat.le_antisymm ttl.ceilSecs_le_size h
  rw [expirySecs, wholeSecs_toNat, hsize, Nat.mod_self]
  decide

/-- A longer time to live gives no smaller number, if its seconds have 64 bits. -/
theorem expirySecs_mono (h : ttl.toNanos ≤ longer.toNanos) (hlt : longer.ceilSecs < UInt64.size) :
    expirySecs ttl ≤ expirySecs longer := by
  have hle := Duration.ceilSecs_mono h
  rw [expirySecs_of_lt hlt, expirySecs_of_lt (hle.trans_lt hlt)]
  omega

/-- **The number of seconds that a write carries** for a time to live. -/
structure SecsSent (ttl : Duration) : Prop where
  /-- The number to send is the least one that lasts as long as the time to live. -/
  least : IsLeast {n | ttl.toNanos ≤ n * nanosPerSec} ttl.ceilSecs
  /-- What is sent is neither zero nor beyond 32 bits, whatever it is made of. -/
  bounds : 1 ≤ expirySecs ttl ∧ expirySecs ttl ≤ UInt32.size - 1
  /-- The sum in front of the clamp is the number exactly if that has 64 bits, … -/
  sum_exact_iff : (wholeSecs ttl).toNat = ttl.ceilSecs ↔ ttl.ceilSecs < UInt64.size
  /-- … and then alone the number that is sent is the clamped one. -/
  sent_exact_iff : expirySecs ttl = min (max ttl.ceilSecs 1) (UInt32.size - 1) ↔
    ttl.ceilSecs < UInt64.size
  /-- It has, unless the time to live lies inside its last possible second; … -/
  fits_iff : ttl.ceilSecs < UInt64.size ↔ ¬ (ttl.secs = UInt64.size - 1 ∧ 0 < ttl.nanos)
  /-- … there, one second is sent. -/
  wrapped : UInt64.size ≤ ttl.ceilSecs → expirySecs ttl = 1
  /-- Where the sum is exact, no shorter time to live is sent as more. -/
  mono : ∀ shorter : Duration, shorter.toNanos ≤ ttl.toNanos → ttl.ceilSecs < UInt64.size →
    expirySecs shorter ≤ expirySecs ttl

/-- The number of seconds that a write carries is always one of `1 … 2 ^ 32 - 1`. It is the least
whole number of seconds that last as long as the time to live, within those bounds, exactly if that
number has 64 bits; up to there it never falls as the time to live grows. The number has more than
64 bits only if the time to live lies inside its last possible second, and then one second is sent.
-/
theorem expirySecs_exact_iff (ttl : Duration) : SecsSent ttl where
  least := ttl.isLeast_ceilSecs
  bounds := ⟨expirySecs_pos ttl, Nat.le_pred_of_lt (expirySecs_lt ttl)⟩
  sum_exact_iff := wholeSecs_exact_iff ttl
  sent_exact_iff := by
    refine ⟨fun h => ?_, expirySecs_of_lt⟩
    -- beyond 64 bits the number is `1`, which no clamp makes of so many seconds
    by_contra hge
    have hsize : UInt64.size ≤ ttl.ceilSecs := Nat.le_of_not_lt hge
    rw [expirySecs_of_size_le hsize] at h
    have : 1 < UInt32.size - 1 := by decide
    have : 1 < UInt64.size := by decide
    omega
  fits_iff := ttl.ceilSecs_lt_size_iff
  wrapped := expirySecs_of_size_le
  mono _ h hlt := expirySecs_mono h hlt

/-- A second below the longest time to live, the number is that of the upper bound, and no smaller
than for five minutes. -/
theorem expirySecs_exact_iff_below_longest :
    expirySecs ⟨UInt64.size - 2, nanosPerSec - 1, by decide, by decide⟩ = UInt32.size - 1 ∧
      expirySecs (.ofSecs 300) ≤
        expirySecs ⟨UInt64.size - 2, nanosPerSec - 1, by decide, by decide⟩ := by
  have hsent := expirySecs_exact_iff ⟨UInt64.size - 2, nanosPerSec - 1, by decide, by decide⟩
  exact ⟨hsent.sent_exact_iff.mpr (by decide), hsent.mono (.ofSecs 300) (by decide) (by decide)⟩

/-- The longest time to live is sent as one second, where the bounds make `2 ^ 32 - 1` of it; that
is less than what is sent for five minutes. -/
theorem longest_sent_as_one_second :
    let longest : Duration := ⟨UInt64.size - 1, nanosPerSec - 1, by decide, by decide⟩
    expirySecs longest = 1 ∧ min (max longest.ceilSecs 1) (UInt32.size - 1) = UInt32.size - 1 ∧
      (Duration.ofSecs 300).toNanos ≤ longest.toNanos ∧
      expirySecs longest < expirySecs (.ofSecs 300) := by
  decide

/-! ### The end of a record -/

/-- The greatest number of seconds that a server counts from now: 30 days. -/
def relativeLimit : Nat := 30 * 24 * 60 * 60

/-- What a server takes for the end of a record, given the time of the write and the number it
carries: zero sets no end, a number of up to 30 days counts from now, and a greater one from the
beginning of 1970. -/
structure ReadsExpiry (ends : UnixTime → Nat → Option UnixTime) : Prop where
  never : ∀ now, ends now 0 = none
  relative : ∀ now n, 1 ≤ n → n ≤ relativeLimit →
    ends now n = some ⟨now.nanos + (n * nanosPerSec : Nat)⟩
  absolute : ∀ now n, relativeLimit < n → ends now n = some (.ofParts n 0)

/-- The end of a record by that rule. -/
def endOf (now : UnixTime) (n : Nat) : Option UnixTime :=
  if n = 0 then none
  else if n ≤ relativeLimit then some ⟨now.nanos + (n * nanosPerSec : Nat)⟩
  else some (.ofParts n 0)

/-- The rule is one that a server can follow. -/
theorem readsExpiry_endOf : ReadsExpiry endOf where
  never _ := rfl
  relative now n hpos hle := by rw [endOf, if_neg (Nat.ne_of_gt hpos), if_pos hle]
  absolute now n hlt := by
    rw [endOf, if_neg (Nat.ne_of_gt (Nat.zero_lt_of_lt hlt)), if_neg (Nat.not_le_of_lt hlt)]

/-- A record that is written now and ends at `t` lasts as asked: no shorter than its time to live,
and less than a second longer, where a time to live below a second counts as one. -/
def Lasts (now : UnixTime) (ttl : Duration) (t : UnixTime) : Prop :=
  now.nanos + ttl.toNanos ≤ t.nanos ∧
    t.nanos < now.nanos + (max ttl.toNanos nanosPerSec : Nat) + nanosPerSec

/-- Seconds that count from now last as asked. -/
theorem lasts_relative (now : UnixTime) (ttl : Duration) :
    Lasts now ttl ⟨now.nanos + (max ttl.ceilSecs 1 * nanosPerSec : Nat)⟩ := by
  have hle := ttl.toNanos_le_ceilSecs
  have hlt := ttl.ceilSecs_lt
  simp only [nanosPerSec] at hle hlt
  constructor <;> simp only [nanosPerSec] <;> omega

/-- Seconds that count from the beginning of 1970 end before the time to live is over, unless it is
still the first second of that year. -/
theorem absolute_lt {now : UnixTime} (hnow : nanosPerSec ≤ now.nanos) (ttl : Duration) :
    (UnixTime.ofParts ttl.ceilSecs 0).nanos < now.nanos + ttl.toNanos := by
  have hlt := ttl.ceilSecs_lt
  simp only [UnixTime.ofParts, nanosPerSec] at hlt hnow ⊢
  omega

/-- A write under a key that is not too long is one call, which carries the number of seconds. -/
theorem calls_set {key : String} (hkey : (Bytes.ofText key).length ≤ maxKeyLength)
    (payload : Bytes) (ttl : Duration) :
    calls (.set key payload ttl) =
      [[.text "set", .text key, .text "0", .text (toString (expirySecs ttl)),
        .text (toString payload.length), .bytes payload]] :=
  if_neg (Nat.not_lt.mpr hkey)

/-- Of a time to live whose seconds have 32 bits, a write sends them, and at least one.
A server that is told so lets the record last as asked exactly if they are at most 30 days. Beyond,
it takes them for a date in or after 1970 that comes before the time to live is over. -/
theorem lasts_iff (reads : ReadsExpiry ends) (now : UnixTime) (hnow : nanosPerSec ≤ now.nanos)
    (ttl : Duration) (hfits : ttl.ceilSecs < UInt32.size) (key : String)
    (hkey : (Bytes.ofText key).length ≤ maxKeyLength) (payload : Bytes) :
    ∃ n t,
      calls (.set key payload ttl) =
        [[.text "set", .text key, .text "0", .text (toString n),
          .text (toString payload.length), .bytes payload]] ∧
      n = max ttl.ceilSecs 1 ∧ ends now n = some t ∧
      (Lasts now ttl t ↔ ttl.ceilSecs ≤ relativeLimit) ∧
      (relativeLimit < ttl.ceilSecs →
        t = .ofParts ttl.ceilSecs 0 ∧ t.nanos < now.nanos + ttl.toNanos) := by
  -- seconds of 32 bits pass the clamp as they are
  have hn : expirySecs ttl = max ttl.ceilSecs 1 := by
    have h32 : UInt32.size < UInt64.size := by decide
    have h1 : 1 ≤ UInt32.size - 1 := by decide
    rw [expirySecs_of_lt (hfits.trans h32)]
    omega
  have hcalls := calls_set hkey payload ttl
  have hlimit : 1 ≤ relativeLimit := by decide
  refine ⟨expirySecs ttl, ?_⟩
  by_cases hle : ttl.ceilSecs ≤ relativeLimit
  · -- up to 30 days the number counts from now
    refine ⟨_, hcalls, hn, ?_, iff_of_true (lasts_relative now ttl) hle, fun h => ?_⟩
    · rw [hn]
      exact reads.relative now _ (le_max_right _ _) (max_le hle hlimit)
    · exact absurd hle (Nat.not_le_of_lt h)
  · -- beyond them the server takes it for a date, which is long over
    have hlt : relativeLimit < ttl.ceilSecs := Nat.lt_of_not_le hle
    have hearly := absolute_lt hnow ttl
    refine ⟨.ofParts ttl.ceilSecs 0, hcalls, hn, ?_, iff_of_false (fun h => ?_) hle,
      fun _ => ⟨rfl, hearly⟩⟩
    · rw [hn, max_eq_left (hlimit.trans hlt.le)]
      exact reads.absolute now _ hlt
    · exact absurd h.1 (not_le_of_gt hearly)

/-- In 2023, a time to live of 30 days and a fraction of a second is one of more than 30 days. -/
theorem lasts_iff_month :
    ∃ n t,
      calls (.set "k" [1, 2] ⟨2592000, 1, by decide, by decide⟩) =
        [[.text "set", .text "k", .text "0", .text (toString n), .text "2", .bytes [1, 2]]] ∧
      n = 2592001 ∧ endOf (.ofParts 1700000000 0) n = some t ∧
      ¬ Lasts (.ofParts 1700000000 0) ⟨2592000, 1, by decide, by decide⟩ t := by
  obtain ⟨n, t, hcalls, hn, ht, hiff, -⟩ :=
    lasts_iff readsExpiry_endOf (.ofParts 1700000000 0) (by decide)
      ⟨2592000, 1, by decide, by decide⟩ (by decide) "k" (by decide) [1, 2]
  exact ⟨n, t, hcalls, hn, ht, fun h => absurd (hiff.mp h) (by decide)⟩

/-- A record that is to last 30 days and a second from November 2023 ended in January 1970. -/
theorem month_ends_in_1970 :
    calls (.set "k" [118] (.ofSecs 2592001)) =
        [[.text "set", .text "k", .text "0", .text "2592001", .text "1", .bytes [118]]] ∧
      endOf (.ofParts 1700000000 0) 2592001 = some (.ofParts 2592001 0) ∧
      ¬ Lasts (.ofParts 1700000000 0) (.ofSecs 2592001) (.ofParts 2592001 0) := by
  refine ⟨calls_set (by decide) [118] (.ofSecs 2592001), by decide, fun h => ?_⟩
  exact absurd h.1 (by decide)

end Memcached

namespace Redis

variable {ttl : Duration}

/-- The greatest expiry that a server takes, in milliseconds. -/
def maxExpiry : Nat := UInt64.size / 2 - 1

/-- A server reads the expiry as a signed number of 64 bits, and takes only positive ones. -/
def Accepts (millis : Nat) : Prop := 1 ≤ millis ∧ millis ≤ maxExpiry

instance : DecidablePred Accepts := fun _ => inferInstanceAs (Decidable (_ ∧ _))

theorem toMillis_mono {a b : Duration} (h : a.toNanos ≤ b.toNanos) : a.toMillis ≤ b.toMillis :=
  Nat.div_le_div_right h

theorem expiryMillis_pos (ttl : Duration) : 1 ≤ expiryMillis ttl := le_max_right _ _

/-- The milliseconds in a time to live are sent as they are, if there is one and they have 64 bits.
-/
theorem expiryMillis_of_lt (hpos : 1 ≤ ttl.toMillis) (hlt : ttl.toMillis < UInt64.size) :
    expiryMillis ttl = ttl.toMillis := by
  unfold expiryMillis
  omega

theorem expiryMillis_mono {a b : Duration} (h : a.toNanos ≤ b.toNanos) :
    expiryMillis a ≤ expiryMillis b :=
  max_le_max (min_le_min (toMillis_mono h) le_rfl) le_rfl

/-- The clamp to 64 bits cuts nothing that a server would take. -/
theorem expiryMillis_le_iff (ttl : Duration) :
    expiryMillis ttl ≤ maxExpiry ↔ ttl.toMillis ≤ maxExpiry := by
  have h64 : maxExpiry < UInt64.size - 1 := by decide
  have h1 : 1 ≤ maxExpiry := by decide
  unfold expiryMillis
  omega

/-- The number of milliseconds that a write carries never falls as the time to live grows. It is the
greatest whole number of them in the time to live if there is one and they have 64 bits, and a
server takes it exactly if they have 63. -/
theorem expiryMillis_accepted_iff (ttl : Duration) (key : String) (payload : Bytes) :
    call (.set key payload ttl) =
        [.text "PSETEX", .text key, .text (toString (expiryMillis ttl)), .bytes payload] ∧
      (Accepts (expiryMillis ttl) ↔ ttl.toMillis ≤ maxExpiry) ∧
      (1 ≤ ttl.toMillis → ttl.toMillis < UInt64.size →
        IsGreatest {n | n * 1000000 ≤ ttl.toNanos} (expiryMillis ttl)) ∧
      ∀ longer : Duration, ttl.toNanos ≤ longer.toNanos →
        expiryMillis ttl ≤ expiryMillis longer := by
  refine ⟨rfl, ?_, fun hpos hlt => ?_, fun longer h => expiryMillis_mono h⟩
  · -- the number is positive anyhow, so only the upper bound can fail
    calc Accepts (expiryMillis ttl)
        ↔ expiryMillis ttl ≤ maxExpiry := and_iff_right (expiryMillis_pos ttl)
      _ ↔ ttl.toMillis ≤ maxExpiry := expiryMillis_le_iff ttl
  · rw [expiryMillis_of_lt hpos hlt]
    constructor
    · exact Nat.div_mul_le_self _ _
    · intro n hn
      exact (Nat.le_div_iff_mul_le (by decide)).mpr hn

/-- The longest time to live that a server takes is sent as it is, and so is one of five minutes. -/
theorem expiryMillis_accepted_iff_longest :
    Accepts (expiryMillis ⟨9223372036854775, 807999999, by decide, by decide⟩) ∧
      IsGreatest {n | n * 1000000 ≤ (Duration.ofSecs 300).toNanos} (expiryMillis (.ofSecs 300)) ∧
      expiryMillis (.ofSecs 300) ≤
        expiryMillis ⟨9223372036854775, 807999999, by decide, by decide⟩ := by
  obtain ⟨-, haccepts, -, -⟩ :=
    expiryMillis_accepted_iff ⟨9223372036854775, 807999999, by decide, by decide⟩ "k" []
  obtain ⟨-, -, hgreatest, hmono⟩ := expiryMillis_accepted_iff (.ofSecs 300) "k" []
  exact ⟨haccepts.mpr (by decide), hgreatest (by decide) (by decide), hmono _ (by decide)⟩

/-- A number of seconds that a configuration takes for the time to live in the second tier, and of
whose writes a server refuses every one. -/
theorem configured_expiry_refused :
    ∃ c, (Config.load fun name =>
        if name = Setting.l2Ttl.name then some "9223372036854776" else none).2 = .ok c ∧
      c.l2Ttl.toMillis = 9223372036854776000 ∧ ¬ Accepts (expiryMillis c.l2Ttl) := by
  refine ⟨{ l2Ttl := .ofSecs 9223372036854776 }, ?_, ?_, ?_⟩
  · rfl
  · decide
  · decide

end Redis

end TwoTier
