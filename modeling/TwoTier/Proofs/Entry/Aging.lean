import TwoTier.Proofs.Entry

/-!
# Records as time goes by

What becomes of a record between its writing and its reading, for any two times of the wall clock:
before 1970 and past the last reading, forwards and backwards. A record is live up to and including
its deadline, and expired from then on (`decode_encode_eq`).

Of bytes that were never made as a record, `Ages` says what time does to them: they are malformed if
they are too short to have a deadline, at every reading or at none; what is stale at a reading is
stale at every later one; and the records that no time makes stale are those without a deadline, and
those whose deadline is the last reading there is (`forall_isStale_eq_false_iff`).
-/

namespace TwoTier

/-! ### Readings -/

namespace UnixTime

variable {t : UnixTime}

theorem reading_of_nonpos (h : t.nanos ≤ 0) : t.reading = 0 := by
  rw [reading, Int.toNat_of_nonpos h, Nat.zero_min]

theorem reading_of_ge (h : maxReading ≤ t.nanos) : t.reading = maxReading :=
  Nat.min_eq_right (by omega)

theorem reading_eq (h0 : 0 ≤ t.nanos) (h : t.nanos ≤ maxReading) : (t.reading : Int) = t.nanos := by
  rw [reading, Nat.min_eq_left (Int.toNat_le.mpr h), Int.toNat_of_nonneg h0]

theorem exists_reading_eq {n : Nat} (h : n ≤ maxReading) : ∃ t : UnixTime, t.reading = n :=
  ⟨⟨n⟩, Nat.min_eq_left h⟩

end UnixTime

namespace Entry

variable {now : Nat} {raw : Bytes}

/-! ### Bytes that may be a record -/

/-- Bytes are malformed if they are too short for a deadline, at whatever time. -/
theorem decode_eq_malformed_iff : decode now raw = .malformed ↔ raw.length < deadlineWidth := by
  unfold decode
  by_cases hlen : raw.length < deadlineWidth
  · rw [if_pos hlen]
    exact iff_of_true rfl hlen
  · rw [if_neg hlen]
    refine iff_of_false ?_ hlen
    dsimp only
    split <;> nofun

/-- Bytes that are long enough are expired exactly if they are stale. -/
theorem decode_eq_expired_iff (hlen : deadlineWidth ≤ raw.length) :
    decode now raw = .expired ↔ isStale now raw = true := by
  rw [isStale_iff_decode, decode_eq_malformed_iff]
  exact (or_iff_left (by omega)).symm

/-- No deadline is later than the last reading. -/
theorem deadlineOf_le (raw : Bytes) : deadlineOf raw ≤ maxReading := by
  have hlt := Bytes.ofLittleEndian_lt (raw.take deadlineWidth)
  -- a deadline has no more bytes than its width
  have hlen : (raw.take deadlineWidth).length ≤ deadlineWidth := List.length_take_le ..
  have hbound : Bytes.bound (raw.take deadlineWidth).length ≤ Bytes.bound deadlineWidth :=
    Nat.pow_le_pow_right (by decide) hlen
  exact Nat.le_of_lt_succ (Nat.lt_of_lt_of_le hlt hbound)

/-- What is stale stays so. -/
theorem isStale_mono {later : Nat} (h : now ≤ later) (hs : isStale now raw = true) :
    isStale later raw = true := by
  -- with a deadline, it has passed later too; without one, the bytes are malformed at all times
  by_cases hlen : deadlineWidth ≤ raw.length
  · rw [isStale_iff hlen] at hs ⊢
    exact ⟨hs.1, Nat.lt_of_lt_of_le hs.2 h⟩
  · exact isStale_iff_decode.mpr (.inr (decode_eq_malformed_iff.mpr (by omega)))

/-- **Records for all time** have no deadline, or the last reading as their deadline. -/
theorem forall_isStale_eq_false_iff (hlen : deadlineWidth ≤ raw.length) :
    (∀ t : UnixTime, isStale t.reading raw = false) ↔
      deadlineOf raw = 0 ∨ deadlineOf raw = maxReading := by
  simp only [← Bool.not_eq_true, isStale_iff hlen, not_and, Nat.not_lt]
  constructor
  · intro hall
    -- the last reading decides, as staleness only grows
    obtain ⟨t, ht⟩ := UnixTime.exists_reading_eq (Nat.le_refl maxReading)
    rcases Nat.eq_zero_or_pos (deadlineOf raw) with h0 | hpos
    · exact .inl h0
    · exact .inr (Nat.le_antisymm (deadlineOf_le raw) (ht ▸ hall t hpos))
  · rintro (h0 | hlast) t hpos
    · omega
    · exact hlast ▸ t.reading_le

/-- **What time does to bytes**, whether they were made as a record or not. -/
structure Ages (raw : Bytes) : Prop where
  /-- They are malformed exactly if they are too short for a deadline. -/
  malformed : ∀ now, decode now raw = .malformed ↔ raw.length < deadlineWidth
  /-- They are stale exactly if they have no live payload, … -/
  stale : ∀ now, isStale now raw = true ↔ ∀ p, decode now raw ≠ .live p
  /-- … and stay so. -/
  stays : ∀ now later, now ≤ later → isStale now raw = true → isStale later raw = true
  /-- A record is stale at no time exactly if it has no deadline, or the last reading as one. -/
  forever : deadlineWidth ≤ raw.length →
    ((∀ t : UnixTime, isStale t.reading raw = false) ↔
      deadlineOf raw = 0 ∨ deadlineOf raw = maxReading)

/-- All bytes age as they are said to. -/
theorem ages (raw : Bytes) : Ages raw where
  malformed _ := decode_eq_malformed_iff
  stale now := by
    rw [← Bool.not_eq_false, isStale_eq_false_iff, not_exists]
  stays _ _ h := isStale_mono h
  forever := forall_isStale_eq_false_iff

/-! ### Records that were made -/

/-- A record that was made is live up to and including its deadline, and expired after it. -/
theorem decode_encode_eq (now written : Nat) (p : Bytes) (ttl : Duration) :
    decode now (encode written p ttl) =
      if ttl.toNanos = 0 ∨ now ≤ min (written + ttl.toNanos) maxReading then .live p
      else .expired := by
  have hfresh : isStale now (encode written p ttl) = false ↔
      ttl.toNanos = 0 ∨ now ≤ min (written + ttl.toNanos) maxReading := by
    rw [isStale_encode_eq_false_iff, Duration.isZero_iff]
    -- without a time to live there is no deadline to pass
    rcases Nat.eq_zero_or_pos ttl.toNanos with h0 | hpos
    · simp only [h0, true_or]
    · rw [deadline_of_pos hpos]
  split
  · next hlive => exact decode_encode_eq_live_iff.mpr ⟨rfl, hfresh.mpr hlive⟩
  · next hlate =>
    -- a record always has its deadline, so it is expired and not malformed
    have hlen : deadlineWidth ≤ (encode written p ttl).length := by
      rw [length_encode]
      exact Nat.le_add_right ..
    rw [decode_eq_expired_iff hlen, ← Bool.not_eq_false, hfresh]
    exact hlate

/-- **The life of a record**, from its writing at one time to its reading at another. -/
structure Lasts (p : Bytes) (ttl : Duration) (written read : UnixTime) : Prop where
  /-- It gives its payload, unless it had a time to live and that is over, … -/
  decoded : decode read.reading (encode written.reading p ttl) =
    if ttl.toNanos = 0 ∨ read.reading ≤ min (written.reading + ttl.toNanos) maxReading then .live p
    else .expired
  /-- … it is never malformed, … -/
  wellFormed : decode read.reading (encode written.reading p ttl) ≠ .malformed
  /-- … and a time to live never makes the deadline that stands for none. -/
  deadline_ne_zero : 0 < ttl.toNanos → deadlineOf (encode written.reading p ttl) ≠ 0

/-- All records last as they are said to. -/
theorem lasts (p : Bytes) (ttl : Duration) (written read : UnixTime) :
    Lasts p ttl written read where
  decoded := decode_encode_eq ..
  wellFormed := by
    rw [decode_encode_eq]
    split <;> nofun
  deadline_ne_zero hpos := by
    rw [deadlineOf_encode]
    exact Nat.ne_of_gt (deadline_pos hpos)

/-- **Records as time goes by.** A time reads as its nanoseconds, clamped to the readings that there
are; a record that was made at one time and is read at another gives its payload as long as it was
made to last, whichever of the two times comes first; and any bytes at all age as `Ages` says. -/
theorem record_over_time :
    (∀ t : UnixTime, (t.nanos ≤ 0 → t.reading = 0) ∧
      (maxReading ≤ t.nanos → t.reading = maxReading) ∧
      (0 ≤ t.nanos → t.nanos ≤ maxReading → (t.reading : Int) = t.nanos)) ∧
    (∀ p ttl written read, Lasts p ttl written read) ∧
    ∀ raw, Ages raw :=
  ⟨fun _ => ⟨UnixTime.reading_of_nonpos, UnixTime.reading_of_ge, UnixTime.reading_eq⟩, lasts, ages⟩

/-- A record that is written a second before 1970, for a second, is live up to and including the
first second after it; and one that is written at the last reading stays. -/
theorem record_over_time_edges :
    let beforeEpoch : UnixTime := .ofParts (-1) 0
    let afterEnd : UnixTime := .ofParts 18446744074 0
    beforeEpoch.reading = 0 ∧ afterEnd.reading = maxReading ∧
      decode (UnixTime.ofParts 1 0).reading (encode beforeEpoch.reading [7] (.ofSecs 1)) =
        .live [7] ∧
      decode (UnixTime.ofParts 1 1).reading (encode beforeEpoch.reading [7] (.ofSecs 1)) =
        .expired ∧
      ∀ t : UnixTime, isStale t.reading (encode afterEnd.reading [7] (.ofSecs 1)) = false := by
  intro beforeEpoch afterEnd
  obtain ⟨hreading, hlasts, hages⟩ := record_over_time
  have hend : afterEnd.reading = maxReading := (hreading afterEnd).2.1 (by decide)
  refine ⟨(hreading beforeEpoch).1 (by decide), hend, ?_, ?_, ?_⟩
  · rw [(hlasts [7] (.ofSecs 1) beforeEpoch (.ofParts 1 0)).decoded, if_pos (by decide)]
  · rw [(hlasts [7] (.ofSecs 1) beforeEpoch (.ofParts 1 1)).decoded, if_neg (by decide)]
  · -- the deadline is cut off at the last reading, which nothing is later than
    refine ((hages _).forever (by decide)).mpr (.inr ?_)
    rw [deadlineOf_encode, hend]
    decide

end Entry

end TwoTier
