import TwoTier.Duration
import TwoTier.Policy

/-!
# Strategies and options of a call

A **strategy** names a time to live by what the data is. The **options** of a call hold its flags
for the two tiers and its times to live for them, each of which may be left open; `Options.ttls`
fills in what a `set` leaves open, or sets to zero, from the defaults of the cache.
-/

namespace TwoTier

open Text (Outline)

/-- The time to live where none is given: five minutes. -/
def defaultTtl : Duration := .ofSecs 300

/-- A time to live that is positive, else the fallback. -/
def Duration.positiveOr (ttl : Option Duration) (fallback : Duration) : Duration :=
  match ttl with
  | some d => if d.isZero then fallback else d
  | none => fallback

/-- A span of time as an outline. -/
def Duration.outline (d : Duration) : Outline := .atom d.text

/-! ### Strategies -/

/-- A time to live, by what the data is. -/
inductive Strategy where
  | realTime
  | shortTerm
  | mediumTerm
  | longTerm
  | custom (ttl : Duration)
  | default
deriving DecidableEq

namespace Strategy

/-- The time to live that a strategy stands for. -/
def ttl : Strategy → Duration
  | .realTime => .ofSecs 10
  | .shortTerm => defaultTtl
  | .mediumTerm => .ofSecs 3600
  | .longTerm => .ofSecs 10800
  | .custom d => d
  | .default => defaultTtl

/-- The strategy as an outline. -/
def outline : Strategy → Outline
  | .realTime => .atom "RealTime"
  | .shortTerm => .atom "ShortTerm"
  | .mediumTerm => .atom "MediumTerm"
  | .longTerm => .atom "LongTerm"
  | .custom d => .call "Custom" [d.outline]
  | .default => .atom "Default"

end Strategy

/-! ### Options -/

/-- What a call says about the tiers. A flag that is open leaves the choice to the mode; a time to
live that is open, or zero, is the default of the cache. -/
structure Options where
  targetL1 : Option Bool := none
  targetL2 : Option Bool := none
  l1Ttl : Option Duration := none
  l2Ttl : Option Duration := none
deriving DecidableEq

namespace Options

instance : Inhabited Options := ⟨{}⟩

/-- The options with the strategy's time to live for both tiers. -/
def withStrategy (o : Options) (s : Strategy) : Options :=
  { o with l1Ttl := some s.ttl, l2Ttl := some s.ttl }

/-- The options that say nothing but the strategy's time to live. -/
def ofStrategy (s : Strategy) : Options := withStrategy {} s

/-- Whether a call has a flag for either tier. -/
def hasOverride (o : Options) : Bool := o.targetL1.isSome || o.targetL2.isSome

/-- The times to live for the two tiers, given the defaults of the cache. -/
def ttls (o : Options) (l1Default l2Default : Duration) : Duration × Duration :=
  (.positiveOr o.l1Ttl l1Default, .positiveOr o.l2Ttl l2Default)

/-- The options as an outline. -/
def outline (o : Options) : Outline :=
  .record "CacheOptions"
    [("target_l1", .option .bool o.targetL1), ("target_l2", .option .bool o.targetL2),
      ("l1_ttl", .option Duration.outline o.l1Ttl), ("l2_ttl", .option Duration.outline o.l2Ttl)]

end Options

end TwoTier
