import TwoTier.Options

/-!
# Configuration

The configuration of a cache is its mode and three times to live: for copies of `l2` hits into `l1`,
and for each tier where a call gives none. A configuration may hold zeros; a cache works with the
`normalized` one, in which each zero is the default of five minutes.
-/

namespace TwoTier

open Text (Outline)

/-- The mode and the times to live of a cache. -/
structure Config where
  mode : Mode := .bothLevels
  /-- For copies of `l2` hits into `l1`. -/
  warmupTtl : Duration := defaultTtl
  /-- For `l1`, where a call gives none. -/
  l1Ttl : Duration := defaultTtl
  /-- For `l2`, where a call gives none. -/
  l2Ttl : Duration := defaultTtl
deriving DecidableEq

namespace Config

instance : Inhabited Config := ⟨{}⟩

/-- The default configuration in a given mode. -/
def ofMode (m : Mode) : Config := { mode := m }

/-- The configuration with the default for every time to live that is zero. -/
def normalized (c : Config) : Config where
  mode := c.mode
  warmupTtl := .positiveOr (some c.warmupTtl) defaultTtl
  l1Ttl := .positiveOr (some c.l1Ttl) defaultTtl
  l2Ttl := .positiveOr (some c.l2Ttl) defaultTtl

/-- The configuration as an outline. -/
def outline (c : Config) : Outline :=
  .record "CacheManagerConfig"
    [("mode", .atom c.mode.name), ("warmup_ttl", c.warmupTtl.outline),
      ("l1_default_ttl", c.l1Ttl.outline), ("l2_default_ttl", c.l2Ttl.outline)]

end Config

end TwoTier
