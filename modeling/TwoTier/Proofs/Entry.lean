import TwoTier.Entry

/-!
# Records, taken apart

A record is its deadline and its payload. `Entry.deadlineOf` and `Entry.payloadOf` are the two, and
`deadlineOf_encode` and `payloadOf_encode` say that they are what the record was made of. A record
is live up to and including its deadline (`decode_eq_live_iff`), which `encode` never makes zero for
a positive time to live (`deadline_pos`).
-/

namespace TwoTier.Entry

/-- The deadline in front of a record. -/
def deadlineOf (raw : Bytes) : Nat := Bytes.ofLittleEndian (raw.take deadlineWidth)

/-- The payload of a record. -/
def payloadOf (raw : Bytes) : Bytes := raw.drop deadlineWidth

variable {now : Nat} {ttl : Duration}

/-- The deadline for a positive time to live, which the last reading bounds. -/
theorem deadline_of_pos (h : 0 < ttl.toNanos) :
    deadline now ttl = min (now + ttl.toNanos) maxReading := by
  have hz : ttl.isZero = false := by
    cases hz : ttl.isZero with
    | true => exact absurd (Duration.isZero_iff.mp hz) (by omega)
    | false => rfl
  simp [deadline, hz]

/-- No deadline comes after the last reading, so eight bytes hold it. -/
theorem deadline_le : deadline now ttl ≤ maxReading := by
  unfold deadline
  split
  · exact Nat.zero_le _
  · exact Nat.min_le_right ..

/-- A positive time to live has a deadline, and not the zero that stands for none. -/
theorem deadline_pos (h : 0 < ttl.toNanos) : 0 < deadline now ttl := by
  rw [deadline_of_pos h]
  exact Nat.lt_min.mpr ⟨by omega, by decide⟩

/-- The deadline of a record is the one that it was made with, -/
@[simp] theorem deadlineOf_encode (now : Nat) (p : Bytes) (ttl : Duration) :
    deadlineOf (encode now p ttl) = deadline now ttl := by
  have hlt : deadline now ttl < Bytes.bound deadlineWidth :=
    Nat.lt_of_le_of_lt deadline_le (by decide)
  rw [deadlineOf, encode, List.take_left' (Bytes.length_littleEndian ..),
    Bytes.ofLittleEndian_littleEndian hlt]

/-- and so is its payload. -/
@[simp] theorem payloadOf_encode (now : Nat) (p : Bytes) (ttl : Duration) :
    payloadOf (encode now p ttl) = p := by
  rw [payloadOf, encode, List.drop_left' (Bytes.length_littleEndian ..)]

/-- A record is eight bytes longer than its payload. -/
theorem length_encode (now : Nat) (p : Bytes) (ttl : Duration) :
    (encode now p ttl).length = deadlineWidth + p.length := by
  simp [encode]

/-- **What is live**: a record that is long enough to have a deadline, and whose deadline is none or
has not passed. -/
theorem decode_eq_live_iff {raw p : Bytes} :
    decode now raw = .live p ↔
      deadlineWidth ≤ raw.length ∧ (deadlineOf raw = 0 ∨ now ≤ deadlineOf raw) ∧
        payloadOf raw = p := by
  unfold decode deadlineOf payloadOf
  -- too short for a deadline, it is never live
  by_cases hlen : raw.length < deadlineWidth
  · rw [if_pos hlen]
    simp only [reduceCtorEq, false_iff]
    exact fun h => absurd h.1 (by omega)
  · -- the record has a deadline, which is passed or not
    by_cases hd : 0 < Bytes.ofLittleEndian (raw.take deadlineWidth) ∧
        Bytes.ofLittleEndian (raw.take deadlineWidth) < now
    · rw [if_neg hlen, if_pos hd]
      simp only [reduceCtorEq, false_iff]
      rintro ⟨-, h0 | hle, -⟩ <;> omega
    · rw [if_neg hlen, if_neg hd]
      simp only [Decoded.live.injEq]
      constructor
      · intro hp
        exact ⟨by omega, by omega, hp⟩
      · exact fun h => h.2.2

/-- A record is live at the reading at which it is made. -/
theorem decode_encode (hnow : now ≤ maxReading) (p : Bytes) (ttl : Duration) :
    decode now (encode now p ttl) = .live p := by
  have hlen : deadlineWidth ≤ (encode now p ttl).length := by
    rw [length_encode]
    omega
  refine decode_eq_live_iff.mpr ⟨hlen, ?_, payloadOf_encode now p ttl⟩
  -- without a deadline, or with one that is not before now
  rw [deadlineOf_encode, deadline]
  split
  · exact .inl rfl
  · exact .inr (Nat.le_min.mpr ⟨by omega, hnow⟩)

/-- A deadline is never later than was asked. -/
theorem deadline_le_add (now : Nat) (h : 0 < ttl.toNanos) :
    deadline now ttl ≤ now + ttl.toNanos := by
  rw [deadline_of_pos h]
  exact Nat.min_le_left ..

/-- What is live was encoded, and its deadline has not passed. -/
theorem encode_live {written : Nat} {p q : Bytes} (h : 0 < ttl.toNanos)
    (hl : decode now (encode written p ttl) = .live q) : q = p ∧ now ≤ deadline written ttl := by
  obtain ⟨-, hd, hp⟩ := decode_eq_live_iff.mp hl
  rw [deadlineOf_encode] at hd
  rw [payloadOf_encode] at hp
  -- the deadline is not the zero that never passes
  have hpos : 0 < deadline written ttl := deadline_pos h
  exact ⟨hp.symm, by omega⟩

/-- To be stale is to be expired or to be malformed. -/
theorem isStale_iff_decode {raw : Bytes} :
    isStale now raw = true ↔ decode now raw = .expired ∨ decode now raw = .malformed := by
  unfold isStale
  cases decode now raw <;> simp

/-- A record that is long enough is stale when it has a deadline that has passed. -/
theorem isStale_iff {raw : Bytes} (hlen : deadlineWidth ≤ raw.length) :
    isStale now raw = true ↔ 0 < deadlineOf raw ∧ deadlineOf raw < now := by
  rw [← Bool.not_eq_false, isStale_eq_false_iff]
  simp only [decode_eq_live_iff, hlen, true_and, exists_and_left, exists_eq', and_true]
  omega

/-- A payload is found where there is a record in which it is live. -/
theorem lookup_eq_live_iff {raw? : Option Bytes} {p : Bytes} :
    lookup now raw? = .live p ↔ ∃ raw, raw? = some raw ∧ decode now raw = .live p := by
  cases raw? with
  | none => simp [lookup]
  | some raw =>
    simp only [lookup, Option.some.injEq, exists_eq_left']
    cases decode now raw <;> simp

/-- Something stale is found where there is a record that is. -/
theorem lookup_eq_stale_iff {raw? : Option Bytes} :
    lookup now raw? = .stale ↔ ∃ raw, raw? = some raw ∧ isStale now raw = true := by
  cases raw? with
  | none => simp [lookup]
  | some raw =>
    simp only [lookup, isStale, Option.some.injEq, exists_eq_left']
    cases decode now raw <;> simp

@[simp] theorem lookup_none (now : Nat) : lookup now none = .absent := rfl

/-- A reader finds a record stale, or with a live payload. -/
theorem lookup_some (now : Nat) (raw : Bytes) :
    (isStale now raw = true ∧ lookup now (some raw) = .stale) ∨
      isStale now raw = false ∧ ∃ p, lookup now (some raw) = .live p := by
  cases hs : isStale now raw with
  | true => exact .inl ⟨rfl, lookup_eq_stale_iff.mpr ⟨raw, rfl, hs⟩⟩
  | false =>
    obtain ⟨p, hp⟩ := isStale_eq_false_iff.mp hs
    exact .inr ⟨rfl, p, lookup_eq_live_iff.mpr ⟨raw, rfl, hp⟩⟩

/-- A record that was made for a payload is live for as long as was asked. -/
theorem isStale_encode_eq_false_iff {written : Nat} {p : Bytes} :
    isStale now (encode written p ttl) = false ↔
      ttl.isZero = true ∨ now ≤ deadline written ttl := by
  have hlen : deadlineWidth ≤ (encode written p ttl).length := by
    rw [length_encode]
    exact Nat.le_add_right ..
  rw [← Bool.not_eq_true, isStale_iff hlen, deadlineOf_encode]
  -- no deadline, or a positive one
  cases hz : ttl.isZero with
  | true => simp [deadline, hz]
  | false =>
    have hpos : 0 < deadline written ttl := by
      refine deadline_pos (Nat.pos_of_ne_zero fun h0 => ?_)
      rw [Duration.isZero_iff.mpr h0] at hz
      cases hz
    simp only [Bool.false_eq_true, false_or]
    omega

/-- What is live in a record is what it was made for. -/
theorem decode_encode_eq_live_iff {written : Nat} {p q : Bytes} :
    decode now (encode written p ttl) = .live q ↔
      p = q ∧ isStale now (encode written p ttl) = false := by
  constructor
  · intro h
    obtain ⟨-, -, hp⟩ := decode_eq_live_iff.mp h
    rw [payloadOf_encode] at hp
    exact ⟨hp, isStale_eq_false_iff.mpr ⟨q, h⟩⟩
  · rintro ⟨rfl, hfresh⟩
    obtain ⟨q, hq⟩ := isStale_eq_false_iff.mp hfresh
    obtain ⟨-, -, hp⟩ := decode_eq_live_iff.mp hq
    rw [payloadOf_encode] at hp
    rw [hq, hp]

theorem lookup_encode (hnow : now ≤ maxReading) (p : Bytes) (ttl : Duration) :
    lookup now (some (encode now p ttl)) = .live p :=
  lookup_eq_live_iff.mpr ⟨_, rfl, decode_encode hnow p ttl⟩

/-- A reader that finds nothing live in a record finds it stale. -/
theorem isStale_of_lookup {raw : Bytes} (h : (lookup now (some raw)).payload? = none) :
    isStale now raw = true := by
  simp only [lookup, isStale] at h ⊢
  cases hd : decode now raw with
  | live p =>
    rw [hd] at h
    cases h
  | expired | malformed => rfl

theorem Found.payload?_eq_some_iff {f : Found} {p : Bytes} :
    f.payload? = some p ↔ f = .live p := by
  cases f <;> simp [payload?]

end TwoTier.Entry
