import TwoTier.Manager.Calls
import TwoTier.Store.Opening
import TwoTier.Store.Rig

/-!
# Deployments

A **deployment** is the stores that caches are set up on, by their names, and the clock they run
on, with a record of what was reported, which calls reached a store that shows them, and how often
the callers' own functions ran.

* `Deployment.serve` and `Deployment.checkHealth` ask one store, and leave every other as it is
  (`Deployment.store?_serve_of_ne`);
* `Deployment.handler` answers the scripts of a manager by the stores behind its tiers, which may be
  one and the same, and `Deployment.run` runs such a script;
* `Deployment.openStores` opens stores one after the other, and stops with the first that fails.
-/

namespace TwoTier

/-- Named stores, their clock, and what was seen of them. -/
structure Deployment where
  clock : Clock
  stores : TextMap Store := .empty
  /-- What was reported, the first first. -/
  events : List Event := []
  /-- The calls that reached a store, with the name of the store, the first first. -/
  calls : List (String × Call) := []
  /-- How often a caller's function ran. -/
  computed : Nat := 0

namespace Deployment

variable {α β : Type}

/-- The store of a name. -/
def store? (id : String) (d : Deployment) : Option Store := d.stores.find? id

/-! ### Asking one store -/

/-- The answer of a store, and the deployment in which the store has given it. -/
def absorb (id : String) (r : Served α) (d : Deployment) : α × Deployment :=
  (r.reply,
    { d with
      stores := d.stores.insert id r.store
      events := d.events ++ r.events
      calls := d.calls ++ r.calls.map fun c => (id, c) })

/-- Asks the store of a name; where there is none, `missing` is the answer. -/
def consult (id : String) (missing : α) (f : Store → Served α) (d : Deployment) : α × Deployment :=
  match d.store? id with
  | some s => d.absorb id (f s)
  | none => (missing, d)

/-- The failure of a command to a store that there is not. -/
def noStore : Failure := { text := "no such store" }

/-- The reply to a command where there is no store. -/
def missingReply : (c : Command) → c.Reply
  | .get _ => .error noStore
  | .set .. => .error noStore
  | .remove _ => .error noStore

/-- Gives a command to the store of a name. -/
def serve (id : String) (c : Command) (d : Deployment) : c.Reply × Deployment :=
  d.consult id (missingReply c) (Store.serve d.clock c)

/-- Asks the store of a name whether it is healthy. -/
def checkHealth (id : String) (d : Deployment) : Bool × Deployment :=
  d.consult id false (Store.checkHealth d.clock)

/-- Whether the store of a name has a record under a key. -/
def contains (id key : String) (d : Deployment) : Bool × Deployment :=
  d.consult id false (Store.contains d.clock key)

/-- Sweeps the store of a name. -/
def cleanup (id : String) (d : Deployment) : Nat × Deployment :=
  d.consult id 0 (Store.cleanup d.clock)

/-- Makes a change to the store of a name that no command makes. -/
def rig (id : String) (g : Store.Rig) (d : Deployment) : Deployment :=
  match d.store? id with
  | some s => { d with stores := d.stores.insert id (s.rig g) }
  | none => d

/-- Reports an event. -/
def note (e : Event) (d : Deployment) : Deployment := { d with events := d.events ++ [e] }

/-- Reports some events. -/
def notes (es : List Event) (d : Deployment) : Deployment := { d with events := d.events ++ es }

theorem store?_consult_of_ne {id id' : String} (missing : α) (f : Store → Served α) (d : Deployment)
    (h : id' ≠ id) : (d.consult id missing f).2.store? id' = d.store? id' := by
  unfold consult
  split
  · simp [absorb, store?, TextMap.find?_insert, h]
  · rfl

theorem store?_serve_of_ne {id id' : String} (c : Command) (d : Deployment) (h : id' ≠ id) :
    (d.serve id c).2.store? id' = d.store? id' :=
  store?_consult_of_ne _ _ d h

/-! ### Running the scripts of a manager -/

/-- Answers the scripts of a manager by the stores behind its tiers. -/
def handler (m : Manager) : Handler Tier Deployment where
  serve t c d :=
    match m.slot t with
    | some s => d.serve s.id c
    | none => (missingReply c, d)
  healthy t d :=
    match m.slot t with
    | some s => d.checkHealth s.id
    | none => (false, d)
  note := note
  compute d := { d with computed := d.computed + 1 }

/-- Runs a script of a manager. -/
def run (m : Manager) (s : Script Tier α) (d : Deployment) : α × Deployment := s.run (handler m) d

/-- Runs two scripts of a manager on one thread. -/
def runBoth (m : Manager) (s : Script Tier α) (t : Script Tier β) (d : Deployment) :
    (α × β) × Deployment :=
  s.runBoth (handler m) t d

/-! ### Opening stores -/

/-- Opens a store under a name. -/
def openStore (id : String) (spec : Store.Spec) (d : Deployment) :
    Except Failure Unit × Deployment :=
  -- what was seen counts even if the opening fails
  let o := spec.opening
  let d := { d with
    events := d.events ++ o.events
    calls := d.calls ++ o.calls.map fun c => (id, c) }
  match o.result with
  | .ok s => (.ok (), { d with stores := d.stores.insert id s })
  | .error f => (.error f, d)

/-- Opens stores under their names in order; the first that fails ends it, and is named. -/
def openStores :
    List (String × Store.Spec) → Deployment → Except (String × Failure) Unit × Deployment
  | [], d => (.ok (), d)
  | (id, spec) :: rest, d =>
    match d.openStore id spec with
    | (.ok (), d) => openStores rest d
    | (.error f, d) => (.error (id, f), d)

/-- What a manager knows about the store of a name. -/
def storeRef? (id : String) (d : Deployment) : Option StoreRef :=
  (d.store? id).map fun s => ⟨id, s.name, s.answersLater⟩

/-! ### Moving the clock -/

/-- The deployment some time later. -/
def advance (span : Duration) (d : Deployment) : Deployment :=
  { d with clock := d.clock.advance span }

/-- The deployment with its wall clock set. -/
def setWall (t : UnixTime) (d : Deployment) : Deployment := { d with clock := d.clock.setWall t }

end Deployment

end TwoTier
