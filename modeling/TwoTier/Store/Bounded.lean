import TwoTier.Entry
import TwoTier.TextMap

/-!
# The bounded store

A store in the process with room for a given number of records. As long as there is room it keeps
every record until it is removed, or found stale on a read of its key. It counts its hits and misses
modulo `2 ^ 64`.

The operations below are those of a store that has room, and none of them looks at the capacity.
When there is no room left, a write makes the store give up records, its own not excepted; which
ones is a matter of its policy and no part of its contract. `Store.lose`, in `Proofs.Store.Losses`,
stands for whatever is given up, and whenever.
-/

namespace TwoTier

/-- The state of a bounded store. -/
structure Bounded where
  /-- How many records there is room for. It is shown when the store is opened. -/
  capacity : Nat
  records : TextMap Bytes := .empty
  hits : UInt64 := 0
  misses : UInt64 := 0
deriving DecidableEq

namespace Bounded

/-- The name of the store. -/
def name : String := "QuickCache"

/-- Drops the record under a key if it is stale at reading `now`. -/
def purgeStale (now : Nat) (key : String) (s : Bounded) : Bounded :=
  match s.records.find? key with
  | some raw => if Entry.isStale now raw then { s with records := s.records.erase key } else s
  | none => s

/-- What is found under a key at reading `now`; a stale record is dropped. -/
def get (now : Nat) (key : String) (s : Bounded) : Entry.Found × Bounded :=
  match Entry.lookup now (s.records.find? key) with
  | .live p => (.live p, { s with hits := s.hits + 1 })
  | .absent => (.absent, { s with misses := s.misses + 1 })
  | .stale =>
    let s' := s.purgeStale now key
    (.stale, { s' with misses := s'.misses + 1 })

/-- Writes a payload under a key at reading `now`. -/
def set (now : Nat) (key : String) (payload : Bytes) (ttl : Duration) (s : Bounded) : Bounded :=
  { s with records := s.records.insert key (Entry.encode now payload ttl) }

/-- Removes the record under a key. -/
def remove (key : String) (s : Bounded) : Bounded :=
  { s with records := s.records.erase key }

end Bounded

end TwoTier
