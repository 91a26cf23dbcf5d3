import TwoTier.Config.Settings
import TwoTier.Deployment

/-!
# The standard cache

The usual cache: a store with ceilings in the process, a store on a Redis server, JSON text for
payloads, and a configuration from the environment. The connection to the server is made before the
configuration is read.
-/

namespace TwoTier

namespace Standard

/-- Why the standard cache cannot be set up. -/
inductive Error where
  /-- The server refuses, or cannot be reached. -/
  | store (failure : Failure)
  /-- The configuration is not valid. -/
  | config (error : ConfigError)

/-- The name of the store in the process. -/
def l1Name : String := "l1"

/-- The name of the store on the server. -/
def l2Name : String := "l2"

/-- Opens the store in the process, and makes a manager of it and of the store on the server. -/
def assemble (config : Config) (d : Deployment) : Except ConfigError Manager × Deployment :=
  let d := (d.openStore l1Name (.ceiling {})).2
  let created :=
    Manager.create (d.storeRef? l1Name) (d.storeRef? l2Name) (some Codec.jsonText) config
  let d := d.notes created.2
  match created.1 with
  | .ok m => (.ok m, d.note .systemStarted)
  | .error e => (.error e, d)

/-- Sets up the standard cache on the server given by `redis`, with the configuration in an
environment. -/
def start (redis : Store.Spec) (environment : String → Option Bytes) (d : Deployment) :
    Except Error Manager × Deployment :=
  -- the server first: its failure hides that of the configuration
  match d.openStore l2Name redis with
  | (.error f, d) => (.error (.store f), d)
  | (.ok (), d) =>
    let d := d.note .systemStarting
    match Config.ofEnvironment environment with
    | .error e => (.error (.config e), d)
    | .ok config =>
      let (r, d) := assemble config d
      (r.mapError .config, d)

/-- Asks every tier of a standard cache whether it is healthy, and reports what comes of it. -/
def checkHealth (m : Manager) : Script Tier Bool := do
  let healthy ← m.checkHealth
  Script.event (if healthy then .systemHealthy else .systemUnhealthy)
  pure healthy

end Standard

end TwoTier
