import TwoTier.Proofs.Session.Moves

/-!
# What the latest write has left

A write puts its payload into the tiers that it targets, with a deadline in each. With stores that
have no ceilings, and a clock that never goes back, only a later write or removal of its key takes
it away before that: a read drops nothing but what is stale, and a copy replaces nothing that is
live.

The invariant for this is `Lodged`, and every move keeps it (`Lodged.move`). It holds in any mode
and with any flags, and whatever the payload is.
-/

namespace TwoTier

open Deployment Manager

/-- The deadline of what a write has put into a tier. -/
def Write.deadline (m : Manager) (w : Write) (i : Tier) : Nat :=
  Entry.deadline w.now (m.ttl w.options i)

/-- The wall clock does not go back. -/
def Clock.Forward (c c' : Clock) : Prop := c.now ≤ c'.now

/-- **What the latest write has put into a tier is still there**, or a copy that is live for longer,
unless its deadline has passed. -/
def Lodged (m : Manager) (H : List Mark) (d : Deployment) : Prop :=
  ∀ k w, latest? k H = some w → ∀ i, (m.chosen w.options).contains i = true →
    (∃ raw, record? m i k d = some raw ∧ Entry.deadlineWidth ≤ raw.length ∧
      w.Encodes m (Entry.payloadOf raw) ∧ w.deadline m i ≤ Entry.deadlineOf raw) ∨
    w.deadline m i < d.clock.now

namespace Lodged

variable {m : Manager} {H M : List Mark} {d d' : Deployment} {k : String} {w : Write} {i : Tier}

theorem empty : Lodged m [] d := fun _ _ hw => by cases hw

/-- A stale record says that the deadline has passed. -/
theorem of_stale (hl : Lodged m H d) (hw : latest? k H = some w)
    (hi : (m.chosen w.options).contains i = true)
    (hstale : ∀ raw, record? m i k d = some raw → Entry.isStale d.clock.now raw = true) :
    w.deadline m i < d.clock.now := by
  rcases hl k w hw i hi with ⟨raw, hr, hlen, -, hle⟩ | hlt
  · obtain ⟨-, hlt⟩ := (Entry.isStale_iff hlen).mp (hstale raw hr)
    exact Nat.lt_of_le_of_lt hle hlt
  · exact hlt

/-- **Every move keeps what the latest write has put into a tier**, with hosts that have no
ceilings. -/
theorem move {Q : Write → Prop} (hh : Hosted Store.Plain m d) (hl : Lodged m H d)
    (h : Move m Q d M d') : Lodged m (M ++ H) d' := by
  intro k w hw i hi
  -- a read keeps what is live, a write or a removal is of the key or leaves it alone
  cases h with
  | read he =>
    rw [he.clock]
    rcases he.same_or_stale hh i k with hsame | hstale
    · rw [hsame]
      exact hl k w hw i hi
    · exact .inr (hl.of_stale hw hi hstale)
  | @write v p _ _ _ hv hnow he =>
    rw [he.clock, he.record]
    by_cases hk : v.key = k
    · -- the targeted tiers have what was just written
      rw [List.singleton_append, latest?_stored_self hk] at hw
      cases hw
      rw [if_pos ⟨hk.symm, hi⟩]
      refine .inl ⟨_, rfl, ?_, ?_, Nat.le_of_eq ?_⟩
      · rw [Entry.length_encode]
        exact Nat.le_add_right ..
      · rw [Entry.payloadOf_encode]
        exact hv
      · rw [Entry.deadlineOf_encode, Write.deadline, hnow]
    · rw [List.singleton_append, latest?_of_ne (x := .stored v) hk] at hw
      rw [if_neg fun h => hk h.1.symm]
      exact hl k w hw i hi
  | @remove key _ he =>
    rw [he.clock, he.record]
    by_cases hk : key = k
    · subst hk
      rw [List.singleton_append, latest?_deleted_self] at hw
      -- nothing was stored since the key was removed
      cases hw
    · rw [List.singleton_append, latest?_of_ne (x := .deleted key) hk] at hw
      rw [if_neg fun h => hk h.symm]
      exact hl k w hw i hi

theorem forward (hl : Lodged m H d) {c : Clock} (hle : d.clock.now ≤ c.now) :
    Lodged m H { d with clock := c } :=
  fun k w hw i hi => (hl k w hw i hi).imp id fun hlt => Nat.lt_of_lt_of_le hlt hle

/-- Until the deadline, the payload of the latest write is found in its tiers. -/
theorem found_live (hh : Hosted Store.Plain m d) (hl : Lodged m H d)
    (hw : latest? k H = some w) (hi : (m.chosen w.options).contains i = true)
    (hn : d.clock.now ≤ w.deadline m i) : ∃ p, w.Encodes m p ∧ found m i k d = .live p := by
  rcases hl k w hw i hi with ⟨raw, hr, hlen, hp, hle⟩ | hlt
  · -- the record outlives the deadline of the write
    refine ⟨_, hp, ?_⟩
    rw [found_of_plain hh, Entry.lookup_eq_live_iff]
    exact ⟨raw, hr, Entry.decode_eq_live_iff.mpr ⟨hlen, .inr (Nat.le_trans hn hle), rfl⟩⟩
  · omega

end Lodged

/-- A time to live that is not over has not reached the deadline. -/
theorem Write.le_deadline {m : Manager} (hm : m.Created) {w : Write} {i : Tier} {d : Deployment}
    (hn : d.clock.now ≤ w.now + (m.ttl w.options i).toNanos) : d.clock.now ≤ w.deadline m i := by
  rw [Write.deadline, Entry.deadline_of_pos (hm.ttl_pos ..)]
  exact Nat.le_min.mpr ⟨hn, UnixTime.reading_le _⟩

end TwoTier
