import TwoTier.Probe
import TwoTier.Store.Bounded
import TwoTier.Store.Ceiling
import TwoTier.Store.Memcached
import TwoTier.Store.Recording
import TwoTier.Store.Redis
import TwoTier.Store.Unbounded

/-!
# Stores

`Store` is a store of any kind. `Store.serve` gives it a command, and `Store.checkHealth` asks for
its health; both say what the store answers, what becomes of it, what it reports, and which calls
reached it, if it is of a kind that shows them. `Store.contains` and `Store.cleanup` go past the
commands to the records of a store in the process.

The stores with a capacity are here as they are while they have room. That they may give up records
at any other time is left out of the commands, and put in beside them where it matters.
-/

namespace TwoTier

/-- A store of any kind. -/
inductive Store where
  | recording (s : Recording)
  | unbounded (s : Unbounded)
  | bounded (s : Bounded)
  | ceiling (s : Ceiling)
  | redis (s : Redis)
  | memcached (s : Memcached)
deriving DecidableEq

/-- What comes of asking a store: an answer, the store after it, and what can be seen of it. -/
structure Served (α : Type) where
  reply : α
  store : Store
  events : List Event := []
  calls : List Call := []

namespace Store

/-- The name of a store. -/
def name : Store → String
  | .recording s => s.name
  | .unbounded _ => Unbounded.name
  | .bounded _ => Bounded.name
  | .ceiling _ => Ceiling.name
  | .redis _ => Redis.name
  | .memcached _ => Memcached.name

/-- Whether a store answers only after other work had its turn. -/
def answersLater : Store → Bool
  | .redis _ => true
  | _ => false

/-- The test key of a store's probes. -/
def probeKey : Store → String
  | .recording _ => ""
  | .unbounded _ => "health_check_dashmap"
  | .bounded _ => "health_check_quickcache"
  | .ceiling _ => "health_check_moka"
  | .redis _ => "health_check_redis"
  | .memcached _ => "health_check_memcached"

/-! ### Commands -/

/-- The report of a read that dropped a stale record. -/
def purgeEvents (store key : String) : Entry.Found → List Event
  | .stale => [.purged store key]
  | _ => []

/-- Gives a store a command. -/
def serve (clock : Clock) : (c : Command) → Store → Served c.Reply
  | c, .recording s =>
    let (reply, s') := s.serve c
    { reply := reply, store := .recording s', calls := [Recording.call c] }
  -- this store drops a stale record without a word
  | .get key, .unbounded s =>
    let (found, s') := s.get clock.now key
    { reply := .ok found.payload?, store := .unbounded s' }
  | .set key payload ttl, .unbounded s =>
    { reply := .ok (), store := .unbounded (s.set clock.now key payload ttl)
      events := [.stored Unbounded.name key ttl] }
  | .remove key, .unbounded s => { reply := .ok (), store := .unbounded (s.remove key) }
  | .get key, .bounded s =>
    let (found, s') := s.get clock.now key
    { reply := .ok found.payload?, store := .bounded s'
      events := purgeEvents Bounded.name key found }
  | .set key payload ttl, .bounded s =>
    { reply := .ok (), store := .bounded (s.set clock.now key payload ttl)
      events := [.stored Bounded.name key ttl] }
  | .remove key, .bounded s => { reply := .ok (), store := .bounded (s.remove key) }
  | .get key, .ceiling s =>
    let (found, s') := s.get clock key
    { reply := .ok found.payload?, store := .ceiling s'
      events := purgeEvents Ceiling.name key found }
  | .set key payload ttl, .ceiling s =>
    { reply := .ok (), store := .ceiling (s.set clock key payload ttl)
      events := [.stored Ceiling.name key ttl] }
  | .remove key, .ceiling s => { reply := .ok (), store := .ceiling (s.remove key) }
  | c, .redis s =>
    let (reply, s', events) := s.serve c
    { reply := reply, store := .redis s', events := events, calls := [Redis.call c] }
  | c, .memcached s =>
    let (reply, s', events) := s.serve c
    { reply := reply, store := .memcached s', events := events, calls := Memcached.calls c }

/-! ### Health -/

/-- A store and what was seen of it so far. -/
structure Watched where
  store : Store
  events : List Event := []
  calls : List Call := []

/-- Runs scripts on one store, and watches it. -/
def watch (clock : Clock) : Handler Unit Watched where
  serve _ c w :=
    let r := w.store.serve clock c
    (r.reply, ⟨r.store, w.events ++ r.events, w.calls ++ r.calls⟩)
  healthy _ w := (true, w)
  note e w := { w with events := w.events ++ [e] }
  compute w := w

/-- Asks a store whether it is healthy: a recording store says what it was told to, any other is
probed. -/
def checkHealth (clock : Clock) : Store → Served Bool
  | .recording s =>
    { reply := s.healthy, store := .recording s, calls := [[.text "health"]] }
  | s =>
    -- the probe runs on the store as any script would, so its commands are seen as well
    let (reply, w) := (Probe.script s.probeKey).run (watch clock) ⟨s, [], []⟩
    { reply := reply, store := w.store, events := w.events, calls := w.calls }

/-! ### Records in the process -/

/-- Whether a store in the process has a record under a key, stale or not; any other does not tell.
-/
def contains (clock : Clock) (key : String) : Store → Served Bool
  | .unbounded s => { reply := s.contains key, store := .unbounded s }
  | .ceiling s =>
    let (found, s') := s.contains clock key
    { reply := found, store := .ceiling s' }
  | s => { reply := false, store := s }

/-- Drops the stale records of an unbounded store, and counts them; any other has no sweep. -/
def cleanup (clock : Clock) : Store → Served Nat
  | .unbounded s =>
    let (count, s') := s.cleanup clock.now
    { reply := count, store := .unbounded s'
      events := if 0 < count then [.swept Unbounded.name count] else [] }
  | s => { reply := 0, store := s }

end Store

end TwoTier
