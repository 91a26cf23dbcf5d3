import TwoTier.Proofs.Probe.Verdict

/-!
# Deployments that can come about

What a manager may find behind its tiers: stores in the process that were opened empty, and whatever
has been done since by anybody who knows them, with the clock set at will in between
(`Deployment.Reachable`).

The one fact about such deployments that is not true of all is that no record was last used at an
uptime that is yet to come. It is the invariant `Store.Timely` of each store: every use leaves the
records it touches with the present uptime, and the uptime does not go back
(`Reachable.timely`).
-/

namespace TwoTier

/-! ### Stores -/

namespace Store

/-- **A store is timely at an uptime**: it is in the process, and none of its records was used later
than that. -/
def Timely (uptime : Nat) : Store → Prop
  | .ceiling s => ∀ k r, s.records.find? k = some r → r.used ≤ uptime
  | .unbounded _ => True
  | .bounded _ => True
  | _ => False

section Timely

variable {s : Store} {c : Clock} {uptime : Nat}

/-- A timely store is in the process, … -/
theorem Timely.inProcess (hs : s.Timely uptime) : s.InProcess := by
  cases s with
  | unbounded s | bounded s | ceiling s => trivial
  | recording s | redis s | memcached s => exact hs.elim

/-- … and one without ceilings is timely in any case. -/
theorem Plain.timely (hs : s.Plain) (uptime : Nat) : s.Timely uptime := by
  cases s with
  | unbounded s | bounded s => trivial
  | recording s | ceiling s | redis s | memcached s => exact hs.elim

/-- An empty store is timely from the start. -/
theorem InProcess.timely_of_empty (hs : s.InProcess) (he : s.Empty) (uptime : Nat) :
    s.Timely uptime := by
  cases s with
  | unbounded s | bounded s => trivial
  | recording s | redis s | memcached s => exact hs.elim
  | ceiling s =>
    intro k r hr
    -- there is no record at all
    have hnone : (s.records.find? k).map Ceiling.Timed.raw = none := he k
    rw [hr] at hnone
    cases hnone

/-- What was not used later than now was not used later than any later time. -/
theorem Timely.mono {later : Nat} (hle : uptime ≤ later) (hs : s.Timely uptime) :
    s.Timely later := by
  cases s with
  | unbounded s | bounded s => trivial
  | recording s | redis s | memcached s => exact hs.elim
  | ceiling s => exact fun k r hr => Nat.le_trans (hs k r hr) hle

/-- A record after a use was there before it, or was used by it. -/
theorem used_of_onTimed {l : Ceiling.Limits} {k : String} {u : Use} {r? : Option Ceiling.Timed}
    {r : Ceiling.Timed} (h : u.onTimed l k c r? = some r) : r? = some r ∨ r.used = c.uptime := by
  -- a read that keeps the record has left it alone, or has used it
  have hget (h : Ceiling.Timed.afterGet l c r? = some r) : r? = some r ∨ r.used = c.uptime := by
    unfold Ceiling.Timed.afterGet at h
    split at h
    · exact .inl h
    · split at h
      · cases h
      · obtain rfl := Option.some.inj h
        exact .inr rfl
  have hcontains (h : Ceiling.Timed.afterContains l c r? = some r) :
      r? = some r ∨ r.used = c.uptime := by
    unfold Ceiling.Timed.afterContains at h
    split at h
    · exact .inl h
    · obtain rfl := Option.some.inj h
      exact .inr rfl
  -- the other uses write the record, drop it, or do not touch it
  unfold Use.onTimed at h
  split at h
  · split at h
    · obtain rfl := Option.some.inj h
      exact .inr rfl
    · exact .inl h
  · split at h
    · cases h
    · exact .inl h
  · split at h
    · exact hget h
    · exact .inl h
  · split at h
    · exact hcontains h
    · exact .inl h
  · exact .inl h

/-- **A use leaves a store timely** at the uptime at which it is made. -/
theorem Timely.use {u : Use} (hs : s.Timely c.uptime) : (s.use c u).2.Timely c.uptime := by
  rcases hs.inProcess.plain_or_ceiling with hplain | ⟨s, rfl⟩
  · exact hplain.use.timely c.uptime
  · obtain ⟨s', hs', -, hrecords⟩ := s.exists_use c u
    rw [hs']
    intro k r hr
    rw [hrecords k] at hr
    rcases used_of_onTimed hr with hold | hnow
    · exact hs k r hold
    · exact Nat.le_of_eq hnow

/-- So does an examination of its health. -/
theorem Timely.checkHealth (hs : s.Timely c.uptime) : (s.checkHealth c).store.Timely c.uptime := by
  obtain ⟨-, hstore⟩ := checkHealth_of_inProcess hs.inProcess c
  rw [hstore]
  -- a probe is a script of commands, each of which is a use
  exact (Probe.asks s.probeKey).run_keeps (I := fun w : Watched => w.store.Timely c.uptime)
    (fun {_ x _} _ hw => hw.use (u := .command x)) (fun _ {_} h => h) (fun {_} h => h) hs

end Timely

end Store

/-! ### Deployments -/

namespace Deployment

/-- **What can come about** behind the tiers of a manager. -/
inductive Reachable (m : Manager) : Deployment → Prop
  /-- The stores are in the process, and have nothing in them yet. -/
  | fresh {d : Deployment} (hh : Hosted (fun s => s.InProcess ∧ s.Empty) m d) : Reachable m d
  /-- Somebody runs a script, be it a call on this manager or on another, commands to single stores,
  or examinations of their health. -/
  | run {β : Type} {d : Deployment} (m' : Manager) (x : Script Tier β) (h : Reachable m d) :
    Reachable m (d.run m' x).2
  /-- Somebody looks whether a store has a record, … -/
  | contains {d : Deployment} (id key : String) (h : Reachable m d) :
    Reachable m (d.contains id key).2
  /-- … or has it swept. -/
  | cleanup {d : Deployment} (id : String) (h : Reachable m d) : Reachable m (d.cleanup id).2
  /-- The clock is set; its uptime does not go back. -/
  | turn {d : Deployment} (c : Clock) (hup : d.clock.uptime ≤ c.uptime) (h : Reachable m d) :
    Reachable m { d with clock := c }

section Reachable

variable {m : Manager} {d : Deployment}

/-- No command leads out of the timely stores. -/
theorem Hosted.timely_serve (hh : Hosted (Store.Timely d.clock.uptime) m d) {m' : Manager}
    {i : Tier} {x : Command} {y : x.Reply × Deployment} (hx : (handler m').serve i x d = y) :
    Hosted (Store.Timely y.2.clock.uptime) m y.2 := by
  subst hx
  rw [clock_serve]
  exact hh.serve_at (fun s hs => hs.use (u := .command x)) m' i

/-- **The stores of a deployment that has come about are timely.** -/
theorem Reachable.timely (h : Reachable m d) : Hosted (Store.Timely d.clock.uptime) m d := by
  -- on how the deployment has come about
  induction h with
  | fresh hh => exact hh.imp fun s hs => hs.1.timely_of_empty hs.2 _
  | @run β d m' x _ ih =>
    rw [clock_run]
    exact ih.run_at (fun x s hs => hs.use (u := .command x)) (fun s hs => hs.checkHealth) m' x
  | @contains d id key _ ih =>
    rw [show (d.contains id key).2.clock = d.clock from clock_consult ..]
    exact ih.consult _ _ fun s hs => hs.use (u := .contains key)
  | @cleanup d id _ ih =>
    rw [show (d.cleanup id).2.clock = d.clock from clock_consult ..]
    exact ih.consult _ _ fun s hs => hs.use (u := .sweep)
  | turn c hup _ ih => exact ih.imp fun s hs => hs.mono hup

end Reachable

end Deployment

end TwoTier
