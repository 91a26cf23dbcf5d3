import TwoTier.Bytes
import TwoTier.Clock

/-!
# Records with a deadline

A store in the process has no lifetime of its own for each key, so the deadline travels with the
payload: a **record** is eight bytes, the least significant first, that hold the clock reading up to
and including which the payload is live, and then the payload. A deadline of zero is none.

* `Entry.encode` makes the record of a payload, `Entry.decode` takes it apart again;
* a record is stale (`Entry.isStale`) when its deadline has passed, or when it is too short to have
  one;
* `Entry.lookup` says what a reader finds under a key.
-/

namespace TwoTier

namespace Entry

/-- The number of bytes of the deadline in front of the payload. -/
def deadlineWidth : Nat := 8

/-- The deadline of a record written at reading `now`: zero for a zero time to live, else the last
reading at which it is live. -/
def deadline (now : Nat) (ttl : Duration) : Nat :=
  if ttl.isZero then 0 else min (now + ttl.toNanos) maxReading

/-- The record of a payload written at reading `now`. -/
def encode (now : Nat) (payload : Bytes) (ttl : Duration) : Bytes :=
  Bytes.littleEndian deadlineWidth (deadline now ttl) ++ payload

/-- What a record is at some reading of the clock. -/
inductive Decoded where
  | live (payload : Bytes)
  | expired
  /-- The record is too short to have a deadline. -/
  | malformed
deriving DecidableEq, Repr

/-- Takes a record apart at reading `now`. -/
def decode (now : Nat) (raw : Bytes) : Decoded :=
  if raw.length < deadlineWidth then .malformed
  else
    -- a deadline of zero never passes
    let d := Bytes.ofLittleEndian (raw.take deadlineWidth)
    if 0 < d ∧ d < now then .expired else .live (raw.drop deadlineWidth)

/-- Whether a record has no live payload at reading `now`. -/
def isStale (now : Nat) (raw : Bytes) : Bool :=
  match decode now raw with
  | .live _ => false
  | .expired => true
  | .malformed => true

theorem isStale_eq_false_iff {now : Nat} {raw : Bytes} :
    isStale now raw = false ↔ ∃ payload, decode now raw = .live payload := by
  unfold isStale
  cases decode now raw <;> simp

/-- What a reader finds under a key. -/
inductive Found where
  | live (payload : Bytes)
  /-- There is a record, but it is stale. -/
  | stale
  /-- There is no record. -/
  | absent
deriving DecidableEq, Repr

/-- The payload that was found. -/
def Found.payload? : Found → Option Bytes
  | .live p => some p
  | .stale => none
  | .absent => none

/-- What a reader finds where there is the given record, or none. -/
def lookup (now : Nat) : Option Bytes → Found
  | none => .absent
  | some raw =>
    match decode now raw with
    | .live p => .live p
    | .expired => .stale
    | .malformed => .stale

end Entry

end TwoTier
