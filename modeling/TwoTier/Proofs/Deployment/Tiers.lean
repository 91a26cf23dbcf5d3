import TwoTier.Deployment
import TwoTier.Proofs.Script.Trace

/-!
# The stores behind the tiers

A deployment as a manager sees it: `Deployment.behind` is the store behind a tier. A command to a
tier is answered by that store, and moves it alone (`reply_serve`, `behind_serve_self`,
`behind_serve_of_ne`), provided that the manager has two stores for two tiers (`Manager.Distinct`).
So the tiers of a deployment are apart (`handler_apart`).
-/

namespace TwoTier

/-- Two tiers have two stores. -/
def Manager.Distinct (m : Manager) : Prop :=
  ∀ r1 r2, m.l1 = some r1 → m.l2 = some r2 → r1.id ≠ r2.id

/-- Two tiers have two names for their stores. -/
theorem Manager.Distinct.id_ne {m : Manager} (hd : m.Distinct) {i j : Tier} (hij : j ≠ i)
    {r r' : StoreRef} (hr : m.slot i = some r) (hr' : m.slot j = some r') : r'.id ≠ r.id := by
  cases i <;> cases j
  · exact absurd rfl hij
  · exact (hd r r' hr hr').symm
  · exact hd r' r hr' hr
  · exact absurd rfl hij

namespace Deployment

variable {α : Type}

/-- The store behind a tier. -/
def behind (m : Manager) (i : Tier) (d : Deployment) : Option Store :=
  (m.slot i).bind fun r => d.store? r.id

section Serve

variable {m : Manager} {i j : Tier} {d : Deployment} {s : Store}

/-- No store turns the clock, … -/
@[simp] theorem clock_consult (id : String) (missing : α) (f : Store → Served α) :
    (d.consult id missing f).2.clock = d.clock := by
  unfold consult
  split <;> rfl

/-- … and so no command does. -/
@[simp] theorem clock_serve (c : Command) : ((handler m).serve i c d).2.clock = d.clock := by
  simp only [handler]
  split
  · exact clock_consult ..
  · rfl

/-- A tier without a store does nothing. -/
theorem serve_of_none (hs : behind m i d = none) (c : Command) :
    (handler m).serve i c d = (missingReply c, d) := by
  cases hr : m.slot i with
  | none => simp [handler, hr]
  | some r =>
    have hnone : d.store? r.id = none := by simpa [behind, hr] using hs
    simp [handler, hr, serve, consult, hnone]

/-- A command to a tier goes to the store behind it, and the deployment takes up what comes. -/
theorem serve_eq_absorb (hs : behind m i d = some s) (c : Command) :
    ∃ r, m.slot i = some r ∧ (handler m).serve i c d = d.absorb r.id (s.serve d.clock c) := by
  obtain ⟨r, hr, hsome⟩ := Option.bind_eq_some_iff.mp hs
  exact ⟨r, hr, by simp [handler, hr, serve, consult, hsome]⟩

/-- The reply to a command is that of the store behind the tier, … -/
theorem reply_serve (hs : behind m i d = some s) (c : Command) :
    ((handler m).serve i c d).1 = (s.serve d.clock c).reply := by
  obtain ⟨r, -, hserve⟩ := serve_eq_absorb hs c
  rw [hserve]
  rfl

/-- … which is afterwards as the command leaves it. -/
theorem behind_serve_self (hs : behind m i d = some s) (c : Command) :
    behind m i ((handler m).serve i c d).2 = some (s.serve d.clock c).store := by
  obtain ⟨r, hr, hserve⟩ := serve_eq_absorb hs c
  rw [hserve]
  simp [behind, hr, absorb, store?]

/-- A command to one tier leaves the store behind the other as it is. -/
theorem behind_serve_of_ne (hd : m.Distinct) (hij : j ≠ i) (c : Command) :
    behind m j ((handler m).serve i c d).2 = behind m j d := by
  -- a tier without a store moves nothing
  cases hr : m.slot i with
  | none => simp [handler, hr]
  | some r =>
    cases hr' : m.slot j with
    | none => simp [behind, hr']
    | some r' =>
      simp only [behind, handler, hr, hr', Option.bind_some]
      exact store?_serve_of_ne c d (hd.id_ne hij hr hr')

/-- **The tiers of a deployment are apart**, if they have two stores. -/
theorem handler_apart (hd : m.Distinct) :
    (handler m).Apart fun i d => (d.clock, behind m i d) where
  reply i c d d' h := by
    -- the reply is made of the store and the clock, or is the one of a tier without a store
    obtain ⟨hclock, hbehind⟩ := Prod.mk.inj h
    cases hs : behind m i d with
    | none => rw [serve_of_none hs, serve_of_none (hbehind ▸ hs)]
    | some s => rw [reply_serve hs, reply_serve (hbehind ▸ hs), hclock]
  self i c d d' h := by
    obtain ⟨hclock, hbehind⟩ := Prod.mk.inj h
    cases hs : behind m i d with
    | none => rw [serve_of_none hs, serve_of_none (hbehind ▸ hs), hclock, hbehind]
    | some s =>
      rw [clock_serve, clock_serve, behind_serve_self hs, behind_serve_self (hbehind ▸ hs), hclock]
  other i i' c d hne := by rw [clock_serve, behind_serve_of_ne hd hne]
  note i e d := rfl

end Serve

end Deployment

end TwoTier
