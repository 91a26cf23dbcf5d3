import TwoTier.Codec
import TwoTier.Config.Error
import TwoTier.Error
import TwoTier.Event

/-!
# Managers

A **manager** is a cache of one or two tiers: which stores fill them, the codec of its payloads, and
its configuration. It never changes; what a call does is a script over its tiers (see
`TwoTier.Manager.Calls`).

`Manager.create` is the only way to a manager that is promised to work: with one tier the mode must
be the one that uses it alone, with two any mode will do, and every time to live is positive.
-/

namespace TwoTier

open Text (Outline)

/-- What a manager knows about a store. -/
structure StoreRef where
  /-- Which store it is. -/
  id : String
  /-- The name of the store in messages. -/
  name : String
  /-- Whether the store answers only after other work had its turn. -/
  answersLater : Bool := false
deriving DecidableEq, Repr

/-- A cache of one or two tiers. -/
structure Manager where
  l1 : Option StoreRef
  l2 : Option StoreRef
  codec : Codec
  mode : Mode
  /-- For copies of `l2` hits into `l1`. -/
  warmupTtl : Duration
  /-- For `l1`, where a call gives none. -/
  l1Ttl : Duration
  /-- For `l2`, where a call gives none. -/
  l2Ttl : Duration

namespace Manager

/-! ### Creation -/

/-- Whether the tiers that there are, and the mode, go together. -/
def checkTiers (mode : Mode) (l1 l2 : Bool) : Except ConfigError Unit :=
  match l1, l2 with
  -- any mode will do, and calls may have flags
  | true, true => .ok ()
  | true, false =>
    if mode = .l1Only then .ok () else .error (.modeMismatch .l1 mode .l1Only)
  | false, true =>
    if mode = .l2Only then .ok () else .error (.modeMismatch .l2 mode .l2Only)
  | false, false =>
    match mode with
    | .bothLevels => .error (.missingTier mode .l1)
    | .l1Only => .error (.missingTier mode .l1)
    | .l2Only => .error (.missingTier mode .l2)

/-- The tier that a mode leaves unused where there are both. -/
def unusedTier? (mode : Mode) (l1 l2 : Bool) : Option Tier :=
  match mode with
  | .bothLevels => none
  | .l1Only => if l2 then some .l2 else none
  | .l2Only => if l1 then some .l1 else none

/-- The name of the store in a tier. -/
def storeName (s : Option StoreRef) : String := (s.map StoreRef.name).getD "none"

/-- Checks what a manager is to be made of, and makes it. Also gives what was reported. -/
def create (l1 l2 : Option StoreRef) (codec : Option Codec) (config : Config) :
    Except ConfigError Manager × List Event :=
  match codec with
  -- the codec is missed before the tiers are looked at
  | none => (.error .missingCodec, [])
  | some codec =>
    -- a zero time to live may come from any document or setting; here it ends
    let c := config.normalized
    match checkTiers c.mode l1.isSome l2.isSome with
    | .error e => (.error e, [])
    | .ok () =>
      let unused := (unusedTier? c.mode l1.isSome l2.isSome).toList.map (.tierUnused c.mode)
      let built := Event.built c.mode (storeName l1) (storeName l2) codec.name
        (l1.isSome && l2.isSome)
      (.ok ⟨l1, l2, codec, c.mode, c.warmupTtl, c.l1Ttl, c.l2Ttl⟩, unused ++ [built])

/-! ### Properties -/

/-- The store in a tier. -/
def slot (m : Manager) : Tier → Option StoreRef
  | .l1 => m.l1
  | .l2 => m.l2

/-- Whether there is a store in a tier. -/
def hasTier (m : Manager) (t : Tier) : Bool := (m.slot t).isSome

/-- The tiers that there are, in the order in which they are read. -/
def tiers (m : Manager) : List Tier := Tier.all.filter m.hasTier

/-- Whether calls may have flags for the tiers: only if there are both. -/
def overridesAllowed (m : Manager) : Bool := m.l1.isSome && m.l2.isSome

/-- The manager as an outline. -/
def outline (m : Manager) : Outline :=
  let store (s : StoreRef) : Outline := .atom (Text.quoted s.name)
  .record "CacheManager"
    [("l1", .option store m.l1), ("l2", .option store m.l2), ("codec", .atom m.codec.label),
      ("mode", .atom m.mode.name), ("overrides_allowed", .bool m.overridesAllowed),
      ("warmup_ttl", m.warmupTtl.outline), ("l1_default_ttl", m.l1Ttl.outline),
      ("l2_default_ttl", m.l2Ttl.outline)]

end Manager

end TwoTier
