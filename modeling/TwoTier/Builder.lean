import TwoTier.Manager

/-!
# Builders

A builder gathers what a manager is made of: it starts without tiers, with JSON text as its codec
and the default configuration, and each step sets one thing. Nothing is checked before
`Builder.build`.
-/

namespace TwoTier

/-- What a manager is to be made of. -/
structure Builder where
  l1 : Option StoreRef := none
  l2 : Option StoreRef := none
  codec : Option Codec := some Codec.jsonText
  config : Config := {}

namespace Builder

/-- A step of a builder. -/
inductive Step where
  | l1 (s : StoreRef)
  | l2 (s : StoreRef)
  | codec (c : Codec)
  /-- Replaces the whole configuration. -/
  | config (c : Config)
  | mode (m : Mode)
  | warmupTtl (d : Duration)
  | l1Ttl (d : Duration)
  | l2Ttl (d : Duration)

/-- The builder after a step. -/
def apply (b : Builder) : Step → Builder
  | .l1 s => { b with l1 := some s }
  | .l2 s => { b with l2 := some s }
  | .codec c => { b with codec := some c }
  | .config c => { b with config := c }
  | .mode m => { b with config := { b.config with mode := m } }
  | .warmupTtl d => { b with config := { b.config with warmupTtl := d } }
  | .l1Ttl d => { b with config := { b.config with l1Ttl := d } }
  | .l2Ttl d => { b with config := { b.config with l2Ttl := d } }

/-- The builder after some steps from the start. -/
def ofSteps (steps : List Step) : Builder := steps.foldl apply {}

/-- Checks what was gathered, and makes the manager. Also gives what was reported. -/
def build (b : Builder) : Except ConfigError Manager × List Event :=
  let building := Event.building (Manager.storeName b.l1) (Manager.storeName b.l2) b.config.mode
  let (r, events) := Manager.create b.l1 b.l2 b.codec b.config
  (r, building :: events)

end Builder

end TwoTier
