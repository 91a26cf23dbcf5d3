import TwoTier.Proofs.Manager.Created

/-!
# What calls are made of

A call is put together from commands to stores and from events, and reading through also from the
caller's function. So a property of scripts that is kept by putting scripts together
(`Script.Closed`) holds of a call as soon as it holds of the commands that the call may give. These
are about the key of the call, and go to the tiers that mode and flags choose for it (`closed_get`,
`closed_set`, `closed_getOrCompute`), or, for a removal, to the tiers that there are
(`closed_delete`).
-/

namespace TwoTier

/-- **A class of scripts that is kept by putting scripts together**, and that events are in. -/
structure Script.Closed {ι : Type} (C : (α : Type) → Script ι α → Prop) : Prop where
  pure : ∀ {α : Type} (a : α), C α (Pure.pure a)
  event : ∀ e, C Unit (Script.event e)
  bind : ∀ {α β : Type} {s : Script ι α} {f : α → Script ι β},
    C α s → (∀ a, C β (f a)) → C β (s >>= f)

/-- What is made of a result is made without asking, so it stays in the class. -/
theorem Script.Closed.map {ι : Type} {C : (α : Type) → Script ι α → Prop} (hC : Script.Closed C)
    {α β : Type} {s : Script ι α} (hs : C α s) (f : α → β) : C β (f <$> s) :=
  hC.bind hs fun a => hC.pure (f a)

namespace Manager

variable {α : Type} {m : Manager} {key : String} {o : Options} {t : Targets}
  {C : (α : Type) → Script Tier α → Prop}

section Parts

variable (hC : Script.Closed C)
include hC

/-! ### Reading -/

/-- Reading one tier gives one command; what the tier answers is only told apart. -/
theorem closed_readTier {i : Tier} (hc : C _ (Script.command i (.get key))) :
    C _ (readTier key i) := by
  refine hC.bind hc fun r => ?_
  cases r with
  | error f | ok found => exact hC.pure _

/-- A copy into the first tier is one write. Its outcome is reported and goes no further. -/
theorem closed_warm {p : Bytes} (hc : C _ (Script.command .l1 (.set key p m.warmupTtl))) :
    C _ (m.warm key p) := by
  refine hC.bind hc fun r => ?_
  cases r with
  | error f | ok u => exact hC.event _

/-- A read from the second tier on. Only a hit there that is decoded may write, and only to the
first tier. -/
theorem closed_getBeyondL1
    (hcmd : ∀ i, t.contains i = true → ∀ c : Command, c.key = key → C _ (Script.command i c))
    (s : Shape α) : C _ (m.getBeyondL1 s key o t) := by
  unfold getBeyondL1
  split
  · next hl2 =>
    refine hC.bind (closed_readTier hC (hcmd .l2 hl2 _ rfl)) fun r => ?_
    -- the tier fails, has nothing, or has a payload
    rcases r with e | (_ | p)
    · exact hC.pure _
    · exact hC.bind (hC.event _) fun _ => hC.pure _
    · dsimp only
      cases m.decode s p with
      | error e => exact hC.pure _
      | ok a =>
        refine hC.bind (hC.event _) fun _ => ?_
        split
        · next hw =>
          -- what is copied is copied under the key that was read, and `l1` is targeted
          have hl1 : t.l1 = true := l1_of_warms hw
          exact hC.bind (closed_warm hC (hcmd .l1 hl1 _ rfl)) fun _ => hC.pure _
        · exact hC.pure _
  · exact hC.bind (hC.event _) fun _ => hC.pure _

/-! ### Writing -/

/-- A write to one tier, which is refused before the tier is asked if the tier is absent. -/
theorem closed_write {i : Tier} {p : Bytes} {ttl : Duration}
    (hc : C _ (Script.command i (.set key p ttl))) : C _ (m.write i key p ttl) := by
  unfold write
  -- a tier that is absent is not asked
  split
  · refine hC.bind hc fun r => ?_
    cases r with
    | error f => exact hC.pure _
    | ok u => exact hC.bind (hC.event _) fun _ => hC.pure _
  · exact hC.pure _

/-- A write to a tier that may not be targeted: then there is no command to ask about. -/
theorem closed_writeIf {targeted : Bool} {i : Tier} {p : Bytes} {ttl : Duration}
    (hc : targeted = true → C _ (Script.command i (.set key p ttl))) :
    C _ (m.writeIf targeted i key p ttl) := by
  cases targeted with
  | false => exact hC.pure _
  | true => exact hC.map (closed_write hC (hc rfl)) some

/-- What a call makes of the outcomes of its writes: a result, or an event and a result. -/
theorem closed_aggregate (r1 r2 : Option (Result Unit)) : C _ (aggregate key r1 r2) := by
  -- no store is asked any more, whatever the outcomes are
  rcases r1 with _ | (e1 | u1) <;> rcases r2 with _ | (e2 | u2) <;>
    first | exact hC.pure _ | exact hC.bind (hC.event _) fun _ => hC.pure _

/-- Writes to the tiers that are targeted, in either order: the class is asked of the commands
alone, so the order does not matter to it. -/
theorem closed_writeTargets {p : Bytes} {ttls : Duration × Duration}
    (hcmd : ∀ i, t.contains i = true → ∀ ttl, C _ (Script.command i (.set key p ttl)))
    (order : WriteOrder) : C _ (m.writeTargets order t key p ttls) := by
  have h1 : C _ (m.writeIf t.l1 .l1 key p ttls.1) := closed_writeIf hC fun h => hcmd .l1 h _
  have h2 : C _ (m.writeIf t.l2 .l2 key p ttls.2) := closed_writeIf hC fun h => hcmd .l2 h _
  cases order with
  | l1First =>
    exact hC.bind h1 fun r1 => hC.bind h2 fun r2 => closed_aggregate hC r1 r2
  | l2First =>
    exact hC.bind h2 fun r2 => hC.bind h1 fun r1 => closed_aggregate hC r1 r2

/-! ### Calls -/

section Calls

variable
  (hcmd : ∀ i, (m.chosen o).contains i = true → ∀ c : Command, c.key = key →
    C _ (Script.command i c))
include hcmd

/-- **A read** gives commands under its key to the tiers that it plans. -/
theorem closed_get (s : Shape α) : C _ (m.get s key o) := by
  unfold get
  -- a refused plan asks nothing
  cases hp : m.plan key o .get with
  | error e => exact hC.pure _
  | ok t =>
    obtain rfl := (of_targets (targets_of_plan hp)).1
    dsimp only
    split
    · next hl1 =>
      refine hC.bind (closed_readTier hC (hcmd .l1 hl1 _ rfl)) fun r => ?_
      -- only a miss in the first tier leads beyond it
      rcases r with e | (_ | p)
      · exact hC.pure _
      · exact hC.bind (hC.event _) fun _ => closed_getBeyondL1 hC hcmd s
      · exact hC.bind (hC.event _) fun _ => hC.pure _
    · exact closed_getBeyondL1 hC hcmd s

/-- **A write** gives commands under its key to the tiers that it plans, once the checks and the
codec are passed. -/
theorem closed_set (s : Shape α) (a : α) : C _ (m.set s key a o) := by
  unfold set setInOrder
  -- each check that refuses ends the call before any command
  cases m.check key o with
  | error e => exact hC.pure _
  | ok u =>
    dsimp only
    cases m.codec.serialize s a with
    | error f => exact hC.pure _
    | ok p =>
      dsimp only
      cases ht : m.targets o .set with
      | error e => exact hC.pure _
      | ok t =>
        obtain rfl := (of_targets ht).1
        exact closed_writeTargets hC (fun i hi ttl => hcmd i hi _ rfl) _

/-- Reading through is a read, the caller's function, and a write under the same options. -/
theorem closed_getOrCompute (hcompute : C _ Script.computed) (s : Shape α)
    (outcome : Except Failure α) : C _ (m.getOrCompute s key o outcome) := by
  refine hC.bind (closed_get hC hcmd s) fun r => ?_
  -- only a miss comes to the caller's function, and only what it returns is written
  rcases r with e | (_ | a)
  · exact hC.pure _
  · refine hC.bind (hC.event _) fun _ => hC.bind hcompute fun _ => ?_
    cases outcome with
    | error f => exact hC.pure _
    | ok a =>
      refine hC.bind (closed_set hC hcmd s a) fun r => ?_
      cases r with
      | ok u => exact hC.pure _
      | error e => exact hC.bind (hC.event _) fun _ => hC.pure _
  · exact hC.pure _

end Calls

/-! ### Removing -/

/-- Removing from some tiers goes on after a failure: each is asked once. -/
theorem closed_removeFrom {ts : List Tier}
    (hcmd : ∀ i ∈ ts, C _ (Script.command i (.remove key))) : C _ (removeFrom key ts) := by
  -- along the tiers that are still to be asked
  induction ts with
  | nil => exact hC.pure _
  | cons i ts ih =>
    obtain ⟨hi, hts⟩ := List.forall_mem_cons.mp hcmd
    refine hC.bind hi fun r => ?_
    cases r with
    | ok u => exact hC.bind (hC.event _) fun _ => ih hts
    | error f => exact hC.bind (hC.event _) fun _ => hC.bind (ih hts) fun _ => hC.pure _

/-- **A removal** gives a command to each tier that there is. -/
theorem closed_delete (hcmd : ∀ i ∈ m.tiers, C _ (Script.command i (.remove key))) :
    C _ (m.delete key) := by
  unfold delete
  split
  · exact hC.pure _
  · refine hC.bind (closed_removeFrom hC hcmd) fun r => ?_
    cases r with
    | none | some e => exact hC.pure _

end Parts

end Manager

end TwoTier
