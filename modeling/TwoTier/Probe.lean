import TwoTier.Script

/-!
# Probes

A store shows that it is healthy by a round trip: a marker is written under a test key, read back,
and removed again. The store is healthy if the read gives exactly the marker; how the removal goes
does not matter.
-/

namespace TwoTier

namespace Probe

/-- What is written under the test key. -/
def marker : Bytes := Bytes.ofText "health_check_value"

/-- For how long it is written. -/
def ttl : Duration := .ofSecs 10

/-- The round trip under a test key. -/
def script (key : String) : Script Unit Bool :=
  .ask () (.set key marker ttl) fun
    | .error _ => .done false
    | .ok () => .ask () (.get key) fun
      | .ok (some b) => .ask () (.remove key) fun _ => .done (b == marker)
      | .ok none => .done false
      | .error _ => .done false

end Probe

end TwoTier
