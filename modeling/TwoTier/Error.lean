import TwoTier.Codec
import TwoTier.Policy

/-!
# Errors of calls

What a call on a cache can fail with. A **misuse** is the caller's mistake, known before any store
is asked; the others carry the failure of a store, of the codec or of the caller's own function.
-/

namespace TwoTier

/-- What a tier was asked to do. -/
inductive Operation where
  | get
  | set
  | delete
deriving DecidableEq, Repr

/-- The name of an operation. -/
def Operation.name : Operation → String
  | .get => "get"
  | .set => "set"
  | .delete => "delete"

/-- What a call fails with. -/
inductive CacheError where
  | emptyKey
  /-- The call has a flag for a tier, and the cache has only one. -/
  | overrideNotAllowed
  /-- Mode and flags leave no tier. -/
  | noTarget (op : Operation)
  /-- The call targets a tier that the cache does not have. -/
  | tierNotConfigured (tier : Tier)
  /-- A store failed. -/
  | tier (tier : Tier) (op : Operation) (source : Failure)
  /-- Both stores failed to write. -/
  | bothTiersFailed (l1 l2 : CacheError)
  /-- The value could not be encoded. -/
  | serialization (codec : String) (source : CodecFailure)
  /-- A payload could not be decoded. -/
  | deserialization (codec : String) (source : CodecFailure)
  /-- The caller's function failed. -/
  | compute (source : Failure)
deriving DecidableEq, Repr

namespace CacheError

/-- The text of an error. -/
def message : CacheError → String
  | .emptyKey => "cache key must not be empty"
  | .overrideNotAllowed =>
    "tier overrides not allowed: " ++
      "both L1 and L2 must be configured to use target_l1/target_l2 options"
  | .noTarget op => op.name ++ " requires at least one cache tier to be targeted"
  | .tierNotConfigured t =>
    t.name ++ " target requested but " ++ t.name ++ " cache not configured"
  | .tier t op source => t.name ++ " " ++ op.name ++ " failed: " ++ source.text
  | .bothTiersFailed l1 l2 =>
    "both cache tiers failed: L1=" ++ l1.message ++ ", L2=" ++ l2.message
  | .serialization codec source =>
    "failed to serialize value with " ++ codec ++ ": " ++ source.failure.text
  | .deserialization codec source =>
    "failed to deserialize cached value with " ++ codec ++ ": " ++ source.failure.text
  | .compute source => "compute function failed: " ++ source.text

/-- The text of an error, without that of its source where the source is a payload's. -/
def heading : CacheError → String
  | .deserialization codec _ => "failed to deserialize cached value with " ++ codec ++ ": "
  | e => e.message

/-- Whether an error is the caller's mistake rather than a failure. -/
def isMisuse : CacheError → Bool
  | .emptyKey => true
  | .overrideNotAllowed => true
  | .noTarget _ => true
  | .tierNotConfigured _ => true
  | _ => false

/-- Whether an error carries a failure that led to it. -/
def hasSource : CacheError → Bool
  | .tier .. => true
  | .serialization .. => true
  | .deserialization .. => true
  | .compute _ => true
  | _ => false

end CacheError

end TwoTier
