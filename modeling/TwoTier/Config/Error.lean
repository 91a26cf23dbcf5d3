import TwoTier.Config
import TwoTier.Text.Quoted

/-!
# Errors of configuration

Why a cache cannot be built from what it was given.
-/

namespace TwoTier

open Text (Outline)

/-- Why a cache cannot be built. -/
inductive ConfigError where
  /-- No encoding was given. -/
  | missingCodec
  /-- The mode needs a tier that was not given. -/
  | missingTier (mode : Mode) (tier : Tier)
  /-- Only one tier was given, and the mode is not the one that uses it alone. -/
  | modeMismatch (configured : Tier) (mode expected : Mode)
  /-- The text of a setting cannot be read. -/
  | invalidSetting (name value reason : String)
deriving DecidableEq, Repr

namespace ConfigError

/-- The text of an error. -/
def message : ConfigError → String
  | .missingCodec => "serializer is required"
  | .missingTier mode tier =>
    mode.name ++ " requires the " ++ tier.name ++ " cache to be configured"
  | .modeMismatch configured mode expected =>
    "only " ++ configured.name ++ " configured but mode is " ++ mode.name ++ "; set mode to " ++
      expected.name ++ " or configure both tiers"
  | .invalidSetting name value reason =>
    "invalid value " ++ Text.quoted value ++ " for " ++ name ++ ": " ++ reason

/-- The error as an outline. -/
def outline : ConfigError → Outline
  | .missingCodec => .atom "MissingCodec"
  | .missingTier mode tier =>
    .record "MissingTier" [("mode", .atom mode.name), ("tier", .atom tier.name)]
  | .modeMismatch configured mode expected =>
    .record "ModeMismatch"
      [("configured", .atom configured.name), ("mode", .atom mode.name),
        ("expected", .atom expected.name)]
  | .invalidSetting name value reason =>
    .record "InvalidEnv"
      [("var", .atom (Text.quoted name)), ("value", .atom (Text.quoted value)),
        ("reason", .atom (Text.quoted reason))]

end ConfigError

end TwoTier
