import TwoTier.Entry
import TwoTier.TextMap

/-!
# The unbounded store

A store in the process that keeps every record until it is removed, or found stale: on a read of its
key (`Unbounded.get`), or by a sweep of all records (`Unbounded.cleanup`). It counts its hits,
misses and writes modulo `2 ^ 64`.
-/

namespace TwoTier

/-- The state of an unbounded store. -/
structure Unbounded where
  records : TextMap Bytes := .empty
  hits : UInt64 := 0
  misses : UInt64 := 0
  sets : UInt64 := 0
deriving DecidableEq

namespace Unbounded

/-- The name of the store. -/
def name : String := "DashMap"

/-- Drops the record under a key if it is stale at reading `now`. -/
def purgeStale (now : Nat) (key : String) (s : Unbounded) : Unbounded :=
  match s.records.find? key with
  | some raw => if Entry.isStale now raw then { s with records := s.records.erase key } else s
  | none => s

/-- What is found under a key at reading `now`; a stale record is dropped. -/
def get (now : Nat) (key : String) (s : Unbounded) : Entry.Found × Unbounded :=
  match Entry.lookup now (s.records.find? key) with
  | .live p => (.live p, { s with hits := s.hits + 1 })
  | .absent => (.absent, { s with misses := s.misses + 1 })
  | .stale =>
    let s' := s.purgeStale now key
    (.stale, { s' with misses := s'.misses + 1 })

/-- Writes a payload under a key at reading `now`. -/
def set (now : Nat) (key : String) (payload : Bytes) (ttl : Duration) (s : Unbounded) : Unbounded :=
  { s with records := s.records.insert key (Entry.encode now payload ttl), sets := s.sets + 1 }

/-- Removes the record under a key. -/
def remove (key : String) (s : Unbounded) : Unbounded :=
  { s with records := s.records.erase key }

/-- Drops every record that is stale at reading `now`, and counts them. -/
def cleanup (now : Nat) (s : Unbounded) : Nat × Unbounded :=
  let kept := s.records.filter fun _ raw => !Entry.isStale now raw
  (s.records.size - kept.size, { s with records := kept })

/-- Whether there is a record under a key, stale or not. -/
def contains (key : String) (s : Unbounded) : Bool := s.records.contains key

end Unbounded

end TwoTier
