import TwoTier.Proofs.Manager.Created
import TwoTier.Proofs.Manager.Removing
import TwoTier.Proofs.Probe.Verdict

/-!
# Health

The health of a cache is that of its tiers, and the health of a tier that of its store. A cache asks
each of its tiers once and in order, also those that come after one that is not healthy
(`Checkup`): what it says can only be less than what each of them says. With what probes are known
to do, this gives `health_checks`.

An examination can find a store wanting though nothing has failed: one that gives up the marker for
want of room before it is read, and one with ceilings, which at the end of the uptimes that it can
tell apart keeps no record any more, and says so.
-/

namespace TwoTier.Manager

/-- **What a cache asks of the tiers `ts`**, and what it concludes. -/
structure Checkup (ts : List Tier) (asked : List (Exchange Tier)) (healthy : Bool) : Prop where
  /-- It asks each of the tiers, in order, … -/
  tiers : asked.map Exchange.store = ts
  /-- … and nothing but whether it is healthy. -/
  questions : ∀ x ∈ asked, ∃ t b, x = .health t b
  /-- All must be. -/
  healthy_iff : healthy = true ↔ ∀ t b, .health t b ∈ asked → b = true

/-- With no tier to ask, all are healthy. -/
theorem Checkup.nil : Checkup [] [] true where
  tiers := rfl
  questions := nofun
  healthy_iff := iff_of_true rfl nofun

/-- One answer more. -/
theorem Checkup.cons {ts : List Tier} {asked : List (Exchange Tier)} {healthy : Bool}
    (hc : Checkup ts asked healthy) (t : Tier) (b : Bool) :
    Checkup (t :: ts) (.health t b :: asked) (b && healthy) where
  tiers := congrArg (List.cons t) hc.tiers
  questions := List.forall_mem_cons.mpr ⟨⟨t, b, rfl⟩, hc.questions⟩
  healthy_iff := by
    rw [Bool.and_eq_true, hc.healthy_iff]
    constructor
    · rintro ⟨rfl, hrest⟩ t' b' hx
      -- the answer just now, or one of the rest
      rcases List.mem_cons.mp hx with hx | hx
      · exact (Exchange.health.inj hx).2
      · exact hrest t' b' hx
    · intro hall
      exact ⟨hall t b List.mem_cons_self, fun t' b' hx => hall t' b' (List.mem_cons_of_mem _ hx)⟩

section Checkup

variable {σ : Type} (h : Handler Tier σ) (m : Manager)

/-- Tier after tier, whatever the one before said. -/
theorem checkup_of_tiers (ts : List Tier) (st : σ) :
    Checkup ts ((m.checkTiersHealth ts).trace h st) ((m.checkTiersHealth ts).run h st).1 := by
  induction ts generalizing st with
  | nil => exact .nil
  | cons t ts ih =>
    unfold checkTiersHealth
    rw [Script.trace_bind, Script.run_bind, Script.run_healthy, Script.trace_healthy]
    -- the answer does not decide whether the next tier is asked
    cases hb : (h.healthy t st).1 with
    | true => exact (ih (h.healthy t st).2).cons t true
    | false =>
      -- the report goes to the handler too, and the rest is run in the state after it
      let st' := h.note (.unhealthy t (storeName (m.slot t))) (h.healthy t st).2
      have hrest := (ih st').cons t false
      simp only [Bool.false_eq_true, if_false, Script.trace_bind, Script.run_bind,
        Script.trace_event, Script.run_event, Script.trace_pure, Script.run_pure, List.append_nil,
        List.nil_append]
      exact hrest

theorem checkup (st : σ) :
    Checkup m.tiers (m.checkHealth.trace h st) (m.checkHealth.run h st).1 :=
  checkup_of_tiers h m m.tiers st

end Checkup

/-- **Examinations of health.** A store in the process is healthy exactly if it keeps what it is
given and does not give up the marker before that is read. Its examination leaves no record under
the key of its probe, and those of all other keys as they are, but for what the store gives up
meanwhile for want of room; a store that has room gives up nothing, and is examined by
`checkHealth`. A probe of any store finds it healthy exactly if the write succeeds and the read
gives the marker back, removes exactly if the read gives anything, and does not care for the answer.
A cache asks all tiers that it has, and is healthy if all of them are. -/
theorem health_checks {s : Store} (hs : s.InProcess) :
    (∀ c losses, Store.Examined c losses s (s.examine c losses)) ∧
    (∀ c, s.checkHealth c = s.examine c []) ∧
    (∀ {σ : Type} (h : Handler Unit σ) key st,
      Probe.Verdict key ((Probe.script key).trace h st) ((Probe.script key).run h st).1) ∧
    ∀ {σ : Type} (h : Handler Tier σ) (m : Manager) st,
      Checkup m.tiers (m.checkHealth.trace h st) (m.checkHealth.run h st).1 ∧
        m.tiers.Nodup ∧ ∀ t, t ∈ m.tiers ↔ m.hasTier t = true := by
  refine ⟨Store.examined hs, fun c => (Store.examine_nil hs c).symm,
    fun h key st => Probe.verdict h key st, fun h m st => ?_⟩
  refine ⟨checkup h m st, ?_, fun t => mem_tiers⟩
  -- the tiers of a cache are taken from a list of different ones
  exact List.Pairwise.filter _ (by decide)

/-- A store with ceilings that has a record of a user's, and one under the key of its probe. -/
def inUse : Ceiling where
  limits := { idle := some (.ofSecs 1) }
  records :=
    let used : Ceiling.Timed := ⟨Entry.encode 0 [1] (.ofSecs 60), 0, 0⟩
    .ofList [("health_check_moka", ⟨[7], 0, 0⟩), ("k", used)]

/-- Before 1970 it is healthy, and has the user's record and no other afterwards; a store that has
no room for the marker is not; a cache whose first tier is not healthy asks the second. -/
theorem health_checks_inUse :
    let c : Clock := ⟨.ofParts (-1) 0, 0⟩
    let s : Store := .ceiling inUse
    let r := s.checkHealth c
    let full : Store := .bounded { capacity := 0 }
    let m := sample .bothLevels
    let stores : TextMap Store :=
      .ofList [("near", .recording { name := "Near", healthy := false }), ("far", .unbounded {})]
    let d : Deployment := { clock := c, stores := stores }
    let asked := m.checkHealth.trace (Deployment.handler m) d
    s.InProcess ∧ r.reply = true ∧ r.store.record? "k" = some (Entry.encode 0 [1] (.ofSecs 60)) ∧
      r.store.record? "health_check_moka" = none ∧
      full.InProcess ∧ (full.examine c [fun _ => false]).reply = false ∧
      asked.map Exchange.store = [.l1, .l2] ∧ (d.run m m.checkHealth).1 = false := by
  intro c s r full m stores d asked
  have hs : s.InProcess := trivial
  have hfull : full.InProcess := trivial
  have hroom : s.Keeping c := ⟨by decide, by decide, fun d hd => by cases hd; decide⟩
  obtain ⟨hstore, hplain, -, htiers⟩ := health_checks hs
  have hex : Store.Examined c [] s r := by
    rw [show r = s.examine c [] from hplain c]
    exact hstore c []
  obtain ⟨hcheck, -, -⟩ := htiers (Deployment.handler m) m d
  refine ⟨hs, hex.healthy_iff.mpr ⟨hroom, nofun⟩, ?_, hex.absent hroom, hfull, ?_,
    hcheck.tiers.trans rfl, ?_⟩
  · have hagree : r.store.AgreeOn "k" s := hex.unnoticed "k" (by decide) nofun
    exact hagree.record?_eq.trans (by decide)
  · obtain ⟨hlosing, -⟩ := health_checks hfull
    -- it would have to keep the marker that it gives up
    refine Bool.eq_false_iff.mpr fun h => ?_
    obtain ⟨-, hkept⟩ := (hlosing c [fun _ => false]).healthy_iff.mp h
    exact absurd (hkept _ rfl) Bool.false_ne_true
  · refine Bool.eq_false_iff.mpr fun h => ?_
    exact absurd (hcheck.healthy_iff.mp h .l1 false List.mem_cons_self) Bool.false_ne_true

/-- **At the end of its uptimes** a store with ceilings keeps nothing that it is given, though its
ceilings are positive, and is not healthy. -/
theorem unhealthy_at_lastUptime :
    let c : Clock := ⟨.ofParts 31700000000 0, 30000000000 * nanosPerSec⟩
    let s : Ceiling := {}
    0 < s.limits.lifetime.toNanos ∧ s.limits.idle = none ∧
      ((Store.ceiling s).checkHealth c).reply = false := by
  decide

end TwoTier.Manager
