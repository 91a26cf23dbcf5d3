import TwoTier.Entry
import TwoTier.TextMap

/-!
# The store with ceilings

A store in the process with ceilings on the lifetime of all its records, on top of the deadline that
each has: a record is **held** for less than `lifetime` after it was written, and, if there is a
ceiling on idleness, for less than that after it was last used. Writing it, a read that finds it
held and a look at it by `Ceiling.contains` are uses. The ceilings run on the uptime, the deadlines
on the wall clock. Ceilings end with the uptimes that the store can tell apart: from `lastUptime`
on, after more than five centuries, it holds no record, however new.

The operations below are those of a store that has room for its records, and none of them looks at
the capacity. What such a store gives up when it has no room left, or does not take up, is a matter
of its policy; it is kept apart, as `Store.lose` in `Proofs.Store.Losses`.

A record that is no longer held is a plain miss; one that is held but stale is dropped by the read
that finds it, and counted as expired as well as missed. Counters are modulo `2 ^ 64`.
-/

namespace TwoTier

namespace Ceiling

/-- What a store with ceilings is opened with. -/
structure Limits where
  /-- How many records there is room for. It is shown when the store is opened. -/
  capacity : Nat := 10000
  /-- For how long a record is held after it was written. -/
  lifetime : Duration := .ofSecs 10800
  /-- For how long a record is held after it was last used. -/
  idle : Option Duration := none
deriving DecidableEq

/-- A record, with the uptimes of its writing and its last use. -/
structure Timed where
  raw : Bytes
  written : Nat
  used : Nat
deriving DecidableEq

end Ceiling

/-- The state of a store with ceilings. -/
structure Ceiling where
  limits : Ceiling.Limits := {}
  records : TextMap Ceiling.Timed := .empty
  hits : UInt64 := 0
  misses : UInt64 := 0
  sets : UInt64 := 0
  expired : UInt64 := 0
deriving DecidableEq

namespace Ceiling

/-- The name of the store. -/
def name : String := "Moka"

/-- The last uptime in nanoseconds that the store tells from later ones, and so the last one at
which a ceiling can end. -/
def lastUptime : Nat := UInt64.size - 2

/-- The uptime at which a span that began at `start` ends. -/
def spanEnd (start : Nat) (d : Duration) : Nat := min (start + d.toNanos) lastUptime

/-- Whether a record is held at an uptime. -/
def Timed.isHeld (l : Limits) (uptime : Nat) (r : Timed) : Bool :=
  decide (uptime < spanEnd r.written l.lifetime) &&
    match l.idle with
    -- without an idle span only the lifetime ends a record
    | none => true
    | some d => decide (uptime < spanEnd r.used d)

/-- The record under a key, if it is held. -/
def held? (c : Clock) (key : String) (s : Ceiling) : Option Timed :=
  (s.records.find? key).filter (Timed.isHeld s.limits c.uptime)

/-- Marks the record under a key as used now. -/
def use (c : Clock) (key : String) (r : Timed) (s : Ceiling) : Ceiling :=
  { s with records := s.records.insert key { r with used := c.uptime } }

/-- Drops the record under a key if it is held and stale. -/
def purgeStale (c : Clock) (key : String) (s : Ceiling) : Ceiling :=
  match s.held? c key with
  | some r => if Entry.isStale c.now r.raw then { s with records := s.records.erase key } else s
  | none => s

/-- What is found under a key; a stale record is dropped. -/
def get (c : Clock) (key : String) (s : Ceiling) : Entry.Found × Ceiling :=
  match s.held? c key with
  | none => (.absent, { s with misses := s.misses + 1 })
  | some r =>
    -- being found held is a use, even if the record then turns out to be stale
    let s := s.use c key r
    match Entry.lookup c.now (some r.raw) with
    | .live p => (.live p, { s with hits := s.hits + 1 })
    | _ =>
      let s := s.purgeStale c key
      (.stale, { s with misses := s.misses + 1, expired := s.expired + 1 })

/-- Writes a payload under a key. -/
def set (c : Clock) (key : String) (payload : Bytes) (ttl : Duration) (s : Ceiling) : Ceiling :=
  { s with
    -- the write counts as a use, so both spans start anew
    records := s.records.insert key ⟨Entry.encode c.now payload ttl, c.uptime, c.uptime⟩
    sets := s.sets + 1 }

/-- Removes the record under a key. -/
def remove (key : String) (s : Ceiling) : Ceiling :=
  { s with records := s.records.erase key }

/-- Whether a record is held under a key, stale or not; if so, it is used. -/
def contains (c : Clock) (key : String) (s : Ceiling) : Bool × Ceiling :=
  match s.held? c key with
  | some r => (true, s.use c key r)
  | none => (false, s)

end Ceiling

end TwoTier
