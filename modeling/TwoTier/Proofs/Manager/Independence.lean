import TwoTier.Proofs.Deployment.Agreement
import TwoTier.Proofs.Manager.Parts
import TwoTier.Proofs.Runs
import TwoTier.Proofs.Session.Moves

/-!
# Keys do not matter to each other

A call asks the stores about its own key only (`asks_script`). So with hosts in the process, the
calls on other keys can be left out of a session without anybody noticing who looks at one key:
`Step.concerns` says which steps stay, `Manager.outcomes` what comes of the calls of a session, and
`key_independence` that the two sessions have the same outcomes on the key, and end with the same
records under it.
-/

namespace TwoTier

namespace Manager

variable {α : Type}

/-! ### What a call asks about -/

section Asks

/-- The commands about a key. -/
abbrev About (key : String) : Tier → Command → Prop := fun _ c => c.key = key

theorem asks_closed (P : Tier → Command → Prop) :
    Script.Closed fun _ (s : Script Tier _) => s.Asks P :=
  ⟨.pure, .event, .bind⟩

/-- **A call asks about its own key only**, whatever the stores answer. -/
theorem asks_script (m : Manager) (r : Request) : (r.script m).Asks (About r.key) := by
  have hC := asks_closed (About r.key)
  cases r with
  | get s key o => exact closed_get hC (fun i _ c hc => .command hc) s
  | set s key a o => exact closed_set hC (fun i _ c hc => .command hc) s a
  | getOrCompute s key o outcome =>
    exact closed_getOrCompute hC (fun i _ c hc => .command hc) .computed s outcome
  | delete key => exact closed_delete hC fun i _ => .command rfl

end Asks

end Manager

/-! ### Sessions with calls left out -/

/-- Whether a step stays when the calls on other keys are left out. -/
def Step.concerns (k : String) : Step → Bool
  | .request r => r.key == k
  | .clock _ => true

/-- What came of a call. -/
structure Outcome : Type 1 where
  answered : Answered
  /-- How often the caller's function ran. -/
  computed : Nat

namespace Manager

open Deployment

/-- What comes of a call, and the deployment after it. -/
def outcome (m : Manager) (r : Request) (d : Deployment) : Outcome × Deployment :=
  let a := m.answer (handler m) r d
  (⟨a.1, a.2.computed - d.computed⟩, a.2)

/-- What comes of the calls of a session, and the deployment after it. -/
def outcomes (m : Manager) : List Step → Deployment → List Outcome × Deployment
  | [], d => ([], d)
  | .clock c :: steps, d => m.outcomes steps { d with clock := c }
  | .request r :: steps, d =>
    let a := m.outcome r d
    let rest := m.outcomes steps a.2
    (a.1 :: rest.1, rest.2)

section Runs

variable {m : Manager} {d d' : Deployment} {r : Request} {k : String}

/-- A call on a key comes out the same where there is agreement on it. -/
theorem outcome_of_agreeOn (h : AgreeOn m k d d') (hk : r.key = k) :
    (m.outcome r d).1 = (m.outcome r d').1 ∧ AgreeOn m k (m.outcome r d).2 (m.outcome r d').2 := by
  have hasks : (r.script m).Asks (About k) := hk ▸ asks_script m r
  obtain ⟨hreply, htrace, hend, hcount⟩ := hasks.run_alike
    (alike_of_agreeOn m k d.computed d'.computed) ⟨h, Nat.add_comm ..⟩
  -- the counts may differ, but they grow alike
  have hcomputed : ((r.script m).run (handler m) d).2.computed - d.computed =
      ((r.script m).run (handler m) d').2.computed - d'.computed := by omega
  refine ⟨?_, hend⟩
  simp only [outcome, answer, hreply, htrace, hcomputed]

theorem outcome_other (h : AgreeOn m k d d') (hk : r.key ≠ k) :
    AgreeOn m k (m.outcome r d).2 d' :=
  h.run_other (asks_script m r) hk

/-- With or without the calls on other keys, those on a key come out the same. -/
theorem outcomes_filter (steps : List Step) (h : AgreeOn m k d d') :
    (m.outcomes steps d).1.filter (·.answered.request.key == k) =
        (m.outcomes (steps.filter (Step.concerns k)) d').1 ∧
      AgreeOn m k (m.outcomes steps d).2
        (m.outcomes (steps.filter (Step.concerns k)) d').2 := by
  -- on the steps, in the two deployments that agree on the key
  induction steps generalizing d d' with
  | nil => exact ⟨rfl, h⟩
  | cons x steps ih =>
    cases x with
    | clock c => exact ih (h.setClock c)
    | request r =>
      have hrequest : (m.outcome r d).1.answered.request = r := rfl
      by_cases hk : r.key = k
      · -- the call is in both sessions
        have hstays : Step.concerns k (.request r) = true := beq_iff_eq.mpr hk
        obtain ⟨hout, hafter⟩ := outcome_of_agreeOn h hk
        obtain ⟨hrest, hend⟩ := ih hafter
        rw [List.filter_cons_of_pos hstays]
        refine ⟨?_, hend⟩
        show List.filter _ ((m.outcome r d).1 :: (m.outcomes steps (m.outcome r d).2).1) =
          (m.outcome r d').1 :: (m.outcomes (steps.filter (Step.concerns k)) (m.outcome r d').2).1
        rw [List.filter_cons_of_pos (by rw [hrequest]; exact hstays), hout, hrest]
      · -- the call is in the first session only
        have hleft : ¬Step.concerns k (.request r) = true := fun h => hk (beq_iff_eq.mp h)
        obtain ⟨hrest, hend⟩ := ih (outcome_other h hk)
        rw [List.filter_cons_of_neg hleft]
        refine ⟨?_, hend⟩
        show List.filter _ ((m.outcome r d).1 :: (m.outcomes steps (m.outcome r d).2).1) = _
        rw [List.filter_cons_of_neg (by rw [hrequest]; exact hleft), hrest]

/-- A session leaves the stores in the process. -/
theorem hosted_outcomes (hh : Hosted Store.InProcess m d) (steps : List Step) :
    Hosted Store.InProcess m (m.outcomes steps d).2 := by
  induction steps generalizing d with
  | nil => exact hh
  | cons x steps ih =>
    cases x with
    | clock c => exact ih (d := { d with clock := c }) hh
    | request r => exact ih (hh.run Store.closed_inProcess (r.script m))

/-- **Keys are independent.** Leaving out all calls on other keys, but setting the clock as before,
changes nothing for the calls on a key: what they return, what they ask the stores and are told, and
whether they run the caller's function; and the record of the key is the same in the end, in either
tier. For a call leaves the records of all other keys as they are, whatever comes of it; only a
store that has no room left gives up one key for another. -/
theorem key_independence (hh : Hosted Store.InProcess m d) (steps : List Step) (k : String) :
    (m.outcomes steps d).1.filter (·.answered.request.key == k) =
        (m.outcomes (steps.filter (Step.concerns k)) d).1 ∧
      (∀ i, record? m i k (m.outcomes steps d).2 =
        record? m i k (m.outcomes (steps.filter (Step.concerns k)) d).2) ∧
      ∀ (r : Request) i k', k' ≠ r.key →
        record? m i k' (r.after m (m.outcomes steps d).2) =
          record? m i k' (m.outcomes steps d).2 := by
  obtain ⟨hsame, hend⟩ := outcomes_filter steps (AgreeOn.refl hh k)
  refine ⟨hsame, hend.record?_eq, fun r i k' hk => ?_⟩
  -- one call on another key leaves agreement with what was before it
  have hrefl : AgreeOn m k' (m.outcomes steps d).2 (m.outcomes steps d).2 :=
    .refl (hosted_outcomes hh steps) k'
  exact (hrefl.run_other (asks_script m r) hk.symm).record?_eq i

end Runs

/-- Calls on two keys by turns. -/
def twoKeys : List Step :=
  [.request (.set .bool "k" true {}), .request (.getOrCompute .bool "other" {} (.ok false)),
    .clock ⟨⟨1⟩, 1⟩, .request (.delete "other"), .request (.getOrCompute .bool "k" {} (.ok false))]

/-- Without the calls on the other key, the value that was written is found just the same. -/
theorem key_independence_twoKeys :
    let m := sample .bothLevels
    let alone : List Step := [.request (.set .bool "k" true {}), .clock ⟨⟨1⟩, 1⟩,
      .request (.getOrCompute .bool "k" {} (.ok false))]
    Hosted Store.InProcess m twoFresh ∧
      (m.outcomes twoKeys twoFresh).1.filter (·.answered.request.key == "k") =
        (m.outcomes alone twoFresh).1 ∧
      (m.outcomes twoKeys twoFresh).1.map Outcome.computed = [0, 1, 0, 0] ∧
      record? m .l1 "k" (m.outcomes twoKeys twoFresh).2 =
        record? m .l1 "k" (m.outcomes alone twoFresh).2 ∧
      record? m .l1 "k" (m.outcomes alone twoFresh).2 ≠ none := by
  intro m alone
  have hh : Hosted Store.InProcess m twoFresh :=
    (twoFresh_hosted .bothLevels).imp fun _ hs => hs.inProcess
  obtain ⟨hsame, hend, -⟩ := key_independence hh twoKeys "k"
  exact ⟨hh, hsame, by decide +kernel, hend .l1, by decide +kernel⟩

end Manager

end TwoTier
