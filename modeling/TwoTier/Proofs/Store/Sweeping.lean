import TwoTier.Proofs.Store.History

/-!
# Sweeps

A sweep looks at every record of an unbounded store at once, where a read looks at one. Both judge a
record by the same reading of the clock, so a sweep only does at once what reads of all keys would
have done one by one: nobody who gives commands can tell at that reading whether the store was swept
(`replies_eq_of_sameFresh`).

* `Entry.fresh?` is what is left of the record of a key once a stale one is dropped. What a use does
  to a record, and what a read is told of it, depends on that alone (`onRecord_fresh?`,
  `lookup_fresh?`), as long as the clock reads the same.
* `Unbounded.Swept` says all that a sweep does, and `sweep_exact` that it does it, in any state of
  the store and at any reading.
-/

namespace TwoTier

/-! ### What is left of a record -/

namespace Entry

/-- The record of a key, unless it is stale at reading `now`. -/
def fresh? (now : Nat) (raw? : Option Bytes) : Option Bytes :=
  raw?.filter fun raw => !isStale now raw

section Fresh

variable {now : Nat} {raw? : Option Bytes} {raw : Bytes}

theorem fresh?_eq_some_iff :
    fresh? now raw? = some raw ↔ raw? = some raw ∧ ∃ p, decode now raw = .live p := by
  rw [fresh?, Option.filter_eq_some_iff, Bool.not_eq_true', isStale_eq_false_iff]

@[simp] theorem fresh?_fresh? : fresh? now (fresh? now raw?) = fresh? now raw? := by
  simp only [fresh?, Option.filter_filter, Bool.and_self]

/-- A reader is told the same of a record and of what is left of it. -/
theorem lookup_fresh? :
    (lookup now (fresh? now raw?)).payload? = (lookup now raw?).payload? := by
  rw [fresh?, Store.filter_isStale]
  -- a stale record is told as nothing, which is what is left of it
  by_cases hs : lookup now raw? = .stale
  · rw [if_pos hs, hs]
    rfl
  · rw [if_neg hs]

theorem fresh?_encode (hnow : now ≤ maxReading) (p : Bytes) (ttl : Duration) :
    fresh? now (some (encode now p ttl)) = some (encode now p ttl) :=
  fresh?_eq_some_iff.mpr ⟨rfl, p, decode_encode hnow p ttl⟩

end Fresh

end Entry

namespace Store

/-- Of the records that a use leaves, what is fresh comes from what was fresh before it. -/
theorem onRecord_fresh? (u : Use) (c : Clock) (k : String) (raw? : Option Bytes) :
    Entry.fresh? c.now (u.onRecord k c raw?) = u.onRecord k c (Entry.fresh? c.now raw?) := by
  cases hu : u.writes k with
  | false =>
    -- the use drops what is stale, which is what is compared, or does nothing
    rw [onRecord_of_unwritten hu, onRecord_of_unwritten hu]
    split <;> rfl
  | true =>
    rcases Use.of_writes hu with ⟨p, ttl, rfl⟩ | rfl
    · have hnow : c.now ≤ maxReading := c.wall.reading_le
      simp only [Use.onRecord, if_true, Entry.fresh?_encode hnow]
    · simp only [Use.onRecord, if_true]
      rfl

/-! ### Stores that differ in stale records alone -/

/-- Two stores have the same records, but for those that are stale at reading `now`. -/
def SameFresh (now : Nat) (s s' : Store) : Prop :=
  ∀ k, Entry.fresh? now (s.record? k) = Entry.fresh? now (s'.record? k)

section SameFresh

variable {s s' : Store} {c : Clock} {x : Command}

/-- A command does not make such stores differ otherwise, … -/
theorem SameFresh.serve (hs : s.Plain) (hs' : s'.Plain) (h : SameFresh c.now s s') :
    SameFresh c.now (s.serve c x).store (s'.serve c x).store := by
  intro k
  have hrec {t : Store} (ht : t.Plain) :
      (t.serve c x).store.record? k = (Use.command x).onRecord k c (t.record? k) :=
    ht.record?_use (u := .command x) nofun
  rw [hrec hs, hrec hs', onRecord_fresh?, onRecord_fresh?, h k]

/-- … and is answered the same by both. -/
theorem SameFresh.reply (hs : s.Plain) (hs' : s'.Plain) (h : SameFresh c.now s s') :
    (s.serve c x).reply = (s'.serve c x).reply := by
  -- only a read depends on the records, and it does not tell a stale one from none
  cases x with
  | get key =>
    rw [reply_serve_get hs.inProcess, reply_serve_get hs'.inProcess, hs.found, hs'.found,
      ← Entry.lookup_fresh?, h key, Entry.lookup_fresh?]
  | set key p ttl => rw [reply_serve_set hs.inProcess, reply_serve_set hs'.inProcess]
  | remove key => rw [reply_serve_remove hs.inProcess, reply_serve_remove hs'.inProcess]

/-- **Stale records make no difference** to commands given at the reading at which they are
stale. -/
theorem replies_eq_of_sameFresh (hs : s.Plain) (hs' : s'.Plain) {now : Nat}
    (h : SameFresh now s s') {H : History}
    (hH : ∀ x ∈ H, x.1.now = now ∧ ∃ q, x.2 = .command q) :
    s.replies H = s'.replies H ∧ SameFresh now (s.after H) (s'.after H) := by
  -- induction on the history, latest command first: the stores before it are alike
  induction H with
  | nil => exact ⟨rfl, h⟩
  | cons x H ih =>
    obtain ⟨⟨rfl, q, hq⟩, hrest⟩ := List.forall_mem_cons.mp hH
    obtain ⟨c, u⟩ := x
    obtain rfl : u = .command q := hq
    obtain ⟨hreplies, hafter⟩ := ih hrest
    have hreply : ((s.after H).serve c q).reply = ((s'.after H).serve c q).reply :=
      hafter.reply (hs.after H) (hs'.after H)
    refine ⟨?_, hafter.serve (hs.after H) (hs'.after H)⟩
    show (⟨.command q, ((s.after H).serve c q).reply⟩ : (u : Use) × u.Reply) :: s.replies H =
      ⟨.command q, ((s'.after H).serve c q).reply⟩ :: s'.replies H
    rw [hreply, hreplies]

end SameFresh

end Store

/-! ### What a sweep does -/

namespace Unbounded

/-- The number of records that are stale at reading `now`. -/
def staleCount (now : Nat) (s : Unbounded) : Nat :=
  s.records.entries.countP fun e => Entry.isStale now e.2

/-- **What a sweep does**: at reading `now` it makes `s'` of `s`, and counts `count` records. -/
structure Swept (now : Nat) (s s' : Unbounded) (count : Nat) : Prop where
  /-- The count is that of the stale records, … -/
  counted : count = s.staleCount now
  /-- … and the store has as many records less. -/
  shrunk : s'.records.size + count = s.records.size
  /-- What is left under a key was there before, to the byte, and has a live payload. -/
  kept : ∀ k raw, s'.records.find? k = some raw ↔
    s.records.find? k = some raw ∧ ∃ p, Entry.decode now raw = .live p
  /-- A second sweep finds nothing to drop. -/
  settled : s'.cleanup now = (0, s')
  hits : s'.hits = s.hits
  misses : s'.misses = s.misses
  sets : s'.sets = s.sets
  /-- Commands at the same reading are answered as if the store had not been swept. -/
  unseen : ∀ H : History, (∀ x ∈ H, x.1.now = now ∧ ∃ q, x.2 = .command q) →
    (Store.unbounded s').replies H = (Store.unbounded s).replies H

section Swept

variable (s : Unbounded) (now : Nat)

/-- A sweep leaves of every key what is left once stale records are dropped. -/
theorem find?_cleanup (k : String) :
    (s.cleanup now).2.records.find? k = Entry.fresh? now (s.records.find? k) :=
  TextMap.find?_filter ..

/-- Every record is kept or counted. -/
theorem size_cleanup_add : (s.cleanup now).2.records.size + s.staleCount now = s.records.size := by
  -- the records that are left are those that are not stale
  have hkept : (s.cleanup now).2.records.size =
      s.records.entries.countP fun e => !Entry.isStale now e.2 :=
    List.countP_eq_length_filter.symm
  have hall := s.records.entries.length_eq_countP_add_countP fun e => Entry.isStale now e.2
  rw [hkept, staleCount, TextMap.size, hall, Nat.add_comm]
  simp only [Bool.not_eq_true, Bool.decide_eq_false]

/-- A sweep counts the stale records. -/
theorem cleanup_fst : (s.cleanup now).1 = s.staleCount now := by
  have hsize := s.size_cleanup_add now
  show s.records.size - (s.cleanup now).2.records.size = s.staleCount now
  omega

/-- A store without a stale record is left as it is. -/
theorem cleanup_of_fresh (h : ∀ e ∈ s.records.entries, Entry.isStale now e.2 = false) :
    s.cleanup now = (0, s) := by
  have hkeep : s.records.entries.filter (fun e => !Entry.isStale now e.2) = s.records.entries := by
    refine List.filter_eq_self.mpr fun e he => ?_
    rw [h e he]
    rfl
  have hnone : s.staleCount now = 0 := by
    refine List.countP_eq_zero.mpr fun e he => ?_
    rw [h e he]
    exact Bool.false_ne_true
  refine Prod.ext ((s.cleanup_fst now).trans hnone) ?_
  simp only [cleanup, TextMap.filter, hkeep]

/-- A sweep does all that it should. -/
theorem swept : Swept now s (s.cleanup now).2 (s.cleanup now).1 where
  counted := s.cleanup_fst now
  shrunk := by
    rw [cleanup_fst]
    exact s.size_cleanup_add now
  kept k raw := by
    rw [find?_cleanup, Entry.fresh?_eq_some_iff]
  settled := by
    -- what is left has nothing stale in it
    refine cleanup_of_fresh _ now fun e he => ?_
    exact Bool.not_eq_true' _ ▸ (List.mem_filter.mp he).2
  hits := rfl
  misses := rfl
  sets := rfl
  unseen H hH := by
    let t : Store := .unbounded (s.cleanup now).2
    have hs : (Store.unbounded s).Plain := trivial
    have ht : t.Plain := trivial
    have hsame : Store.SameFresh now t (.unbounded s) := by
      intro k
      show Entry.fresh? now ((s.cleanup now).2.records.find? k) =
        Entry.fresh? now (s.records.find? k)
      rw [find?_cleanup, Entry.fresh?_fresh?]
    exact (Store.replies_eq_of_sameFresh ht hs hsame hH).1

end Swept

end Unbounded

/-- **A sweep drops exactly the stale records.** In any state of an unbounded store and at any
clock, a sweep counts the records that are stale at that reading and drops these, leaves the others
as they are, and changes no counter; another one finds nothing more, and no command that is given at
that reading is answered differently for it. -/
theorem Store.sweep_exact (s : Unbounded) (c : Clock) :
    ∃ s', ((Store.unbounded s).cleanup c).store = .unbounded s' ∧
      s.Swept c.now s' ((Store.unbounded s).cleanup c).reply :=
  ⟨_, rfl, s.swept c.now⟩

/-- Of a record too short to be one, one whose deadline has passed, one at its deadline and one
without any, a sweep drops the first two. -/
example :
    let written (secs : UInt64) : Bytes := Entry.encode 0 [1] (.ofSecs secs)
    let records : TextMap Bytes := .ofList
      [("short", [1]), ("past", written 1), ("due", written 2), ("always", written 0)]
    let (count, s) := Unbounded.cleanup (2 * nanosPerSec) { records := records }
    count = 2 ∧ s.records.keys = ["always", "due"] := by
  decide

end TwoTier
