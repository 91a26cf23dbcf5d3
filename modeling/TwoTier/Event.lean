import TwoTier.Policy
import TwoTier.Duration

/-!
# Events

What a cache and its stores report while they work. An event has a level, a message and named
fields, in which everything is text.
-/

namespace TwoTier

/-- How much attention an event asks for. -/
inductive Level where
  | debug
  | info
  | warn
deriving DecidableEq, Repr

/-- What a cache or a store reports. -/
inductive Event where
  /-- A cache is being put together. -/
  | building (l1 l2 : String) (mode : Mode)
  /-- A cache was built. -/
  | built (mode : Mode) (l1 l2 codec : String) (overrides : Bool)
  /-- A cache was built whose mode does not use one of its tiers. -/
  | tierUnused (mode : Mode) (ignored : Tier)
  | hit (key : String) (tier : Tier)
  | miss (key : String) (tier : Tier)
  /-- No tier that was read has the key, and `l2` was not. -/
  | missWithoutL2 (key : String)
  /-- No tier has the key. -/
  | missEverywhere (key : String)
  | written (key : String) (tier : Tier) (ttl : Duration) (size : Nat)
  /-- One of two writes failed. -/
  | partlyWritten (key error : String)
  | removed (key : String) (tier : Tier)
  | removalFailed (key : String) (tier : Tier) (error : String)
  /-- An `l2` hit was copied into `l1`. -/
  | warmed (key : String) (ttl : Duration)
  | warmupFailed (key error : String)
  | computing (key : String)
  /-- A computed value could not be stored. -/
  | notStored (key error : String)
  | unhealthy (tier : Tier) (store : String)
  /-- A store keeps a payload for a time to live. -/
  | stored (store key : String) (ttl : Duration)
  /-- A store keeps a payload for a number of seconds. -/
  | storedForSecs (store key : String) (secs : Nat)
  /-- A store dropped a stale record on reading it. -/
  | purged (store key : String)
  /-- A store dropped its stale records. -/
  | swept (store : String) (count : Nat)
  /-- A store with a common ceiling on lifetimes was opened. -/
  | ceilingOpened (capacity : Nat) (lifetime : Duration)
  /-- A store with a bounded number of records was opened. -/
  | boundedOpened (capacity : Nat)
  | redisConnecting (url : String)
  | redisConnected (url : String)
  | redisRead (key : String) (found : Bool)
  | memcachedConnecting (url : String)
  | memcachedConnected (url : String) (servers : Nat)
  | systemStarting
  | systemStarted
  | systemHealthy
  | systemUnhealthy

namespace Event

/-- The level of an event. -/
def level : Event → Level
  | .built .. | .ceilingOpened .. | .boundedOpened _ | .redisConnecting _ | .redisConnected _
  | .memcachedConnecting _ | .memcachedConnected .. | .systemStarting | .systemStarted
  | .systemHealthy => .info
  | .tierUnused .. | .partlyWritten .. | .removalFailed .. | .warmupFailed .. | .notStored ..
  | .unhealthy .. | .systemUnhealthy => .warn
  | _ => .debug

/-- The message of an event. -/
def message : Event → String
  | .building .. => "Building Cache Manager"
  | .built .. => "Cache Manager initialized"
  | .tierUnused .. =>
    "Both tiers configured but mode uses one; " ++
      "the other is only reachable through overrides and delete"
  | .hit .. => "[GET] hit"
  | .miss .. => "[GET] miss"
  | .missWithoutL2 _ => "[GET] overall miss (L2 not checked)"
  | .missEverywhere _ => "[GET] overall miss"
  | .written .. => "[SET] written"
  | .partlyWritten .. => "[SET] partial failure, value kept in the other tier"
  | .removed .. => "[DELETE] removed"
  | .removalFailed .. => "[DELETE] failed, continuing with remaining tiers"
  | .warmed .. => "Warmed L1 from L2 hit"
  | .warmupFailed .. => "L1 warmup failed (continuing)"
  | .computing _ => "Computing fresh value after cache miss"
  | .notStored .. => "Failed to cache computed value"
  | .unhealthy .. => "Cache tier health check failed"
  | .stored store .. => "[" ++ store ++ "] Cached key with TTL"
  | .storedForSecs store .. => "[" ++ store ++ "] Cached key with TTL"
  | .purged store _ => "[" ++ store ++ "] Purged stale entry"
  | .swept store _ => "[" ++ store ++ "] Cleaned up expired entries"
  | .ceilingOpened .. => "Moka Cache initialized with per-key TTL support"
  | .boundedOpened _ => "Initializing QuickCache"
  | .redisConnecting _ => "Initializing Redis Cache with ConnectionManager"
  | .redisConnected _ => "Redis Cache connected successfully (ConnectionManager enabled)"
  | .redisRead .. => "[Redis] GET"
  | .memcachedConnecting _ => "Initializing Memcached Cache"
  | .memcachedConnected .. => "Memcached Cache connected successfully"
  | .systemStarting => "Initializing Tiered Cache System"
  | .systemStarted => "Tiered Cache System initialized successfully"
  | .systemHealthy => "Tiered Cache health check passed"
  | .systemUnhealthy => "Tiered Cache health check - partial failure"

/-- The fields of an event. -/
def fields : Event → List (String × String)
  | .building l1 l2 mode => [("l1", l1), ("l2", l2), ("mode", mode.name)]
  | .built mode l1 l2 codec overrides =>
    [("mode", mode.name), ("l1", l1), ("l2", l2), ("codec", codec),
      ("overrides_allowed", toString overrides)]
  | .tierUnused mode ignored => [("mode", mode.name), ("ignored", ignored.name)]
  | .hit key tier => [("key", key), ("tier", tier.name)]
  | .miss key tier => [("key", key), ("tier", tier.name)]
  | .missWithoutL2 key => [("key", key)]
  | .missEverywhere key => [("key", key)]
  | .written key tier ttl size =>
    [("key", key), ("tier", tier.name), ("ttl_ms", toString ttl.toMillis), ("size", toString size)]
  | .partlyWritten key error => [("key", key), ("error", error)]
  | .removed key tier => [("key", key), ("tier", tier.name)]
  | .removalFailed key tier error => [("key", key), ("tier", tier.name), ("error", error)]
  | .warmed key ttl => [("key", key), ("ttl_ms", toString ttl.toMillis)]
  | .warmupFailed key error => [("key", key), ("error", error)]
  | .computing key => [("key", key)]
  | .notStored key error => [("key", key), ("error", error)]
  | .unhealthy tier store => [("tier", tier.name), ("backend", store)]
  | .stored _ key ttl => [("key", key), ("ttl_ms", toString ttl.toMillis)]
  | .storedForSecs _ key secs => [("key", key), ("ttl_secs", toString secs)]
  | .purged _ key => [("key", key)]
  | .swept _ count => [("count", toString count)]
  | .ceilingOpened capacity lifetime =>
    [("capacity", toString capacity), ("ttl_ceiling_secs", toString lifetime.secs)]
  | .boundedOpened capacity => [("capacity", toString capacity)]
  | .redisConnecting url => [("redis_url", url)]
  | .redisConnected url => [("redis_url", url)]
  | .redisRead key found => [("key", key), ("hit", toString found)]
  | .memcachedConnecting url => [("url", url)]
  | .memcachedConnected url servers => [("url", url), ("server_count", toString servers)]
  | .systemStarting => []
  | .systemStarted => []
  | .systemHealthy => []
  | .systemUnhealthy => []

end Event

end TwoTier
