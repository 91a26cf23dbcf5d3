import TwoTier.Manager
import TwoTier.Script

/-!
# Calls on a manager

The five calls on a manager, as scripts over its tiers:

* `Manager.get` reads `l1`, then `l2`, and copies an `l2` hit into `l1`; a failure of a tier ends
  the call, a failure to copy does not;
* `Manager.set` writes every targeted tier, whatever becomes of the other, and fails only if all of
  them fail;
* `Manager.delete` removes from every tier that there is, whatever the mode, and fails with the
  first failure;
* `Manager.getOrCompute` reads, and on a miss runs the caller's function and stores its value; a
  failure to store does not fail the call;
* `Manager.checkHealth` asks every tier that there is.

A call that is misused ends before any store is asked.
-/

namespace TwoTier.Manager

variable {α : Type}

/-- The result of a call. -/
abbrev Result (α : Type) : Type := Except CacheError α

/-! ### What a call targets -/

/-- Checks the key of a call and whether it may have the flags that it has. -/
def check (m : Manager) (key : String) (o : Options) : Result Unit :=
  if key.isEmpty then .error .emptyKey
  else if o.hasOverride && !m.overridesAllowed then .error .overrideNotAllowed
  else .ok ()

/-- The first tier of a list that there is not. -/
def missing? (m : Manager) (ts : List Tier) : Option Tier := ts.find? fun t => !m.hasTier t

/-- The tiers that a call targets: at least one, and all of them there. -/
def targets (m : Manager) (o : Options) (op : Operation) : Result Targets :=
  let t := m.mode.resolve o.targetL1 o.targetL2
  if t.isEmpty then .error (.noTarget op)
  else match m.missing? t.toList with
    | some tier => .error (.tierNotConfigured tier)
    | none => .ok t

/-- Checks a call, and gives the tiers that it targets. -/
def plan (m : Manager) (key : String) (o : Options) (op : Operation) : Result Targets :=
  match m.check key o with
  | .error e => .error e
  | .ok () => m.targets o op

/-! ### Reading -/

/-- The value of a payload. -/
def decode (m : Manager) (s : Shape α) (payload : Bytes) : Result α :=
  match m.codec.deserialize s payload with
  | .ok a => .ok a
  | .error f => .error (.deserialization m.codec.name f)

/-- What a tier has under a key. -/
def readTier (key : String) (t : Tier) : Script Tier (Result (Option Bytes)) := do
  match ← Script.command t (.get key) with
  | .ok found => pure (.ok found)
  | .error f => pure (.error (.tier t .get f))

/-- Copies an `l2` payload into `l1`; whether that fails does not matter. -/
def warm (m : Manager) (key : String) (payload : Bytes) : Script Tier Unit := do
  match ← Script.command Tier.l1 (.set key payload m.warmupTtl) with
  | .ok () => Script.event (.warmed key m.warmupTtl)
  | .error f => Script.event (.warmupFailed key f.text)

/-- The part of a read that asks `l2`. -/
def getFromL2 (m : Manager) (s : Shape α) (key : String) (o : Options) (t : Targets) :
    Script Tier (Result (Option α)) := do
  match ← readTier key .l2 with
  | .error e => pure (.error e)
  | .ok none => do
    Script.event (.missEverywhere key)
    pure (.ok none)
  | .ok (some payload) =>
    match m.decode s payload with
    | .error e => pure (.error e)
    | .ok a => do
      -- a payload that does not decode is neither reported as a hit nor copied
      Script.event (.hit key .l2)
      if m.mode.warms t o.targetL1 && m.hasTier .l1 then m.warm key payload
      pure (.ok (some a))

/-- The part of a read after `l1` has missed, or was not asked. -/
def getBeyondL1 (m : Manager) (s : Shape α) (key : String) (o : Options) (t : Targets) :
    Script Tier (Result (Option α)) :=
  if t.l2 then m.getFromL2 s key o t
  else do
    Script.event (.missWithoutL2 key)
    pure (.ok none)

/-- Reads the value under a key. -/
def get (m : Manager) (s : Shape α) (key : String) (o : Options) :
    Script Tier (Result (Option α)) :=
  match m.plan key o .get with
  | .error e => pure (.error e)
  | .ok t =>
    if t.l1 then do
      match ← readTier key .l1 with
      | .error e => pure (.error e)
      | .ok (some payload) => do
        Script.event (.hit key .l1)
        pure ((m.decode s payload).map some)
      | .ok none => do
        Script.event (.miss key .l1)
        m.getBeyondL1 s key o t
    else m.getBeyondL1 s key o t

/-! ### Writing -/

/-- Writes a payload to one tier. -/
def write (m : Manager) (t : Tier) (key : String) (payload : Bytes) (ttl : Duration) :
    Script Tier (Result Unit) :=
  if m.hasTier t then do
    match ← Script.command t (.set key payload ttl) with
    | .ok () => do
      Script.event (.written key t ttl payload.length)
      pure (.ok ())
    | .error f => pure (.error (.tier t .set f))
  else pure (.error (.tierNotConfigured t))

/-- Writes a payload to one tier, if it is targeted. -/
def writeIf (m : Manager) (targeted : Bool) (t : Tier) (key : String) (payload : Bytes)
    (ttl : Duration) : Script Tier (Option (Result Unit)) :=
  if targeted then some <$> m.write t key payload ttl else pure none

/-- The result of a write to one or two tiers. -/
def aggregate (key : String) :
    Option (Result Unit) → Option (Result Unit) → Script Tier (Result Unit)
  | some (.error e1), some (.error e2) => pure (.error (.bothTiersFailed e1 e2))
  | some (.error e), some (.ok ()) => do
    Script.event (.partlyWritten key e.message)
    pure (.ok ())
  | some (.ok ()), some (.error e) => do
    Script.event (.partlyWritten key e.message)
    pure (.ok ())
  | some (.ok ()), some (.ok ()) => pure (.ok ())
  | some r, none => pure r
  | none, some r => pure r
  | none, none => pure (.error (.noTarget .set))

/-- Which of two writes that run together is carried out first. -/
inductive WriteOrder where
  | l1First
  | l2First
deriving DecidableEq, Repr

/-- The writes run together from `l1` on; that of `l2` is carried out first if only `l1` answers
later. -/
def writeOrder (m : Manager) : WriteOrder :=
  let later (s : Option StoreRef) : Bool := (s.map StoreRef.answersLater).getD false
  if later m.l1 && !later m.l2 then .l2First else .l1First

/-- Writes a payload to the targeted tiers, in the given order. -/
def writeTargets (m : Manager) (order : WriteOrder) (t : Targets) (key : String) (payload : Bytes)
    (ttls : Duration × Duration) : Script Tier (Result Unit) :=
  match order with
  | .l1First => do
    let r1 ← m.writeIf t.l1 .l1 key payload ttls.1
    let r2 ← m.writeIf t.l2 .l2 key payload ttls.2
    aggregate key r1 r2
  | .l2First => do
    let r2 ← m.writeIf t.l2 .l2 key payload ttls.2
    let r1 ← m.writeIf t.l1 .l1 key payload ttls.1
    aggregate key r1 r2

/-- Writes a value under a key, where the two writes are carried out in the given order. -/
def setInOrder (m : Manager) (order : WriteOrder) (s : Shape α) (key : String) (a : α)
    (o : Options) : Script Tier (Result Unit) :=
  match m.check key o with
  | .error e => pure (.error e)
  | .ok () =>
    match m.codec.serialize s a with
    | .error f => pure (.error (.serialization m.codec.name f))
    | .ok payload =>
      match m.targets o .set with
      | .error e => pure (.error e)
      | .ok t => m.writeTargets order t key payload (o.ttls m.l1Ttl m.l2Ttl)

/-- Writes a value under a key. -/
def set (m : Manager) (s : Shape α) (key : String) (a : α) (o : Options) :
    Script Tier (Result Unit) :=
  m.setInOrder m.writeOrder s key a o

/-! ### Removing -/

/-- Removes a key from the given tiers, for the first failure. -/
def removeFrom (key : String) : List Tier → Script Tier (Option CacheError)
  | [] => pure none
  | t :: ts => do
    match ← Script.command t (.remove key) with
    | .ok () => do
      Script.event (.removed key t)
      removeFrom key ts
    | .error f => do
      -- the tiers after it are still tried, but this failure is the first
      Script.event (.removalFailed key t f.text)
      let _ ← removeFrom key ts
      pure (some (.tier t .delete f))

/-- Removes a key. -/
def delete (m : Manager) (key : String) : Script Tier (Result Unit) :=
  if key.isEmpty then pure (.error .emptyKey)
  else do
    match ← removeFrom key m.tiers with
    | none => pure (.ok ())
    | some e => pure (.error e)

/-! ### Reading through -/

/-- Reads the value under a key, or runs the caller's function, whose outcome is given, and
stores what it yields. -/
def getOrCompute (m : Manager) (s : Shape α) (key : String) (o : Options)
    (outcome : Except Failure α) : Script Tier (Result α) := do
  match ← m.get s key o with
  | .error e => pure (.error e)
  | .ok (some a) => pure (.ok a)
  | .ok none => do
    Script.event (.computing key)
    Script.computed
    match outcome with
    | .error f => pure (.error (.compute f))
    | .ok a => do
      match ← m.set s key a o with
      | .ok () => pure (.ok a)
      | .error e => do
        Script.event (.notStored key e.message)
        pure (.ok a)

/-! ### Health -/

/-- Asks the given tiers whether they are healthy, and reports those that are not. -/
def checkTiersHealth (m : Manager) : List Tier → Script Tier Bool
  | [] => pure true
  | t :: ts => do
    if ← Script.healthy t then m.checkTiersHealth ts
    else do
      -- the tiers after it are still asked
      Script.event (.unhealthy t (storeName (m.slot t)))
      let _ ← m.checkTiersHealth ts
      pure false

/-- Whether every tier that there is is healthy. -/
def checkHealth (m : Manager) : Script Tier Bool := m.checkTiersHealth m.tiers

end TwoTier.Manager
