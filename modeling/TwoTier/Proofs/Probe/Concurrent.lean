import Mathlib.Data.List.Induction
import TwoTier.Proofs.Script.Interleaving
import TwoTier.Proofs.Store.Mapping

/-!
# Probes at the same time

All probes of a store use one test key. So if several run at the same time, one may remove what
another has written and is about to read, which then takes the store for unhealthy, though nothing
has failed. This is all that can go wrong: on a store that is a map (`Handler.Maps`), a probe says
that the store is unhealthy if and only if another one has so **disturbed** it
(`Probe.interleaved`). In any interleaving at least one probe says that the store is healthy, and
once all have finished the test key is gone.

The proof follows the probes turn by turn: `Probe.Phase` is how far one of them has come, and
`Probe.Contents` what all of them together have made of the test key. No turn leads out of these,
be it a step of a probe (`Probing.step`) or a command of somebody else (`Probing.other`).
-/

namespace TwoTier

namespace Probe

/-! ### The steps of a probe -/

/-- What is left of a probe that has read `b`. -/
def removing (key : String) (b : Bytes) : Script Unit Bool :=
  .ask () (.remove key) fun _ => .done (b == marker)

/-- What is left of a probe after its write. -/
def reading (key : String) : Script Unit Bool :=
  .ask () (.get key) fun
    | .ok (some b) => removing key b
    | .ok none => .done false
    | .error _ => .done false

/-- What a probe is seen to do first. -/
def written (key : String) : Exchange Unit := .write () key marker ttl (.ok ())

section Interleaved

variable {ν σ : Type} {key : String} {p q : ν} {x : Option ν × Exchange Unit}
  {past : List (Option ν × Exchange Unit)}

/-! ### Disturbance -/

/-- The last change of the test key is its removal by the probe `q`. -/
def RemovedBy (key : String) (q : ν) (past : List (Option ν × Exchange Unit)) : Prop :=
  ∃ newer r older, past = newer ++ (some q, .removal () key r) :: older ∧
    ∀ x ∈ newer, x.2.writes key = false

/-- **A probe is disturbed**: when it reads the test key, which it has written, another probe has
removed that, and nobody has written it again. -/
def Disturbed (key : String) (p : ν) (past : List (Option ν × Exchange Unit)) : Prop :=
  ∃ newer r older, past = newer ++ (some p, .read () key r) :: older ∧
    (some p, written key) ∈ older ∧ ∃ q, q ≠ p ∧ RemovedBy key q older

theorem RemovedBy.mem (h : RemovedBy key q past) : ∃ r, (some q, .removal () key r) ∈ past := by
  obtain ⟨newer, r, older, rfl, -⟩ := h
  exact ⟨r, List.mem_append_right _ List.mem_cons_self⟩

/-- What writes nothing under the test key leaves the last change of it as it was. -/
theorem RemovedBy.cons (h : RemovedBy key q past) (hx : x.2.writes key = false) :
    RemovedBy key q (x :: past) := by
  obtain ⟨newer, r, older, rfl, hnewer⟩ := h
  exact ⟨x :: newer, r, older, rfl, List.forall_mem_cons.mpr ⟨hx, hnewer⟩⟩

/-- If the newest exchange is no removal, the last change of the test key came before it. -/
theorem RemovedBy.of_cons (h : RemovedBy key q (x :: past))
    (hx : ∀ q r, x ≠ (some q, .removal () key r)) :
    x.2.writes key = false ∧ RemovedBy key q past := by
  obtain ⟨newer, r, older, hpast, hnewer⟩ := h
  -- the removal is the newest exchange, which is excluded, or an older one
  rcases List.cons_eq_append_iff.mp hpast with ⟨-, hhead⟩ | ⟨newer', rfl, rfl⟩
  · exact absurd (List.cons.inj hhead).1.symm (hx q r)
  · obtain ⟨hx', hnewer'⟩ := List.forall_mem_cons.mp hnewer
    exact ⟨hx', newer', r, older, rfl, hnewer'⟩

/-- Before anything has happened no probe is disturbed. -/
theorem disturbed_nil : ¬ Disturbed key p [] := by
  rintro ⟨newer, r, older, hpast, -⟩
  cases newer <;> cases hpast

/-- Only its own read can show a probe to be disturbed. -/
theorem disturbed_cons_iff (hx : ∀ r, x ≠ (some p, .read () key r)) :
    Disturbed key p (x :: past) ↔ Disturbed key p past := by
  constructor
  · rintro ⟨newer, r, older, hpast, h⟩
    rcases List.cons_eq_append_iff.mp hpast with ⟨-, hhead⟩ | ⟨newer', rfl, rfl⟩
    · exact absurd (List.cons.inj hhead).1.symm (hx r)
    · exact ⟨newer', r, older, rfl, h⟩
  · rintro ⟨newer, r, older, rfl, h⟩
    exact ⟨x :: newer, r, older, rfl, h⟩

/-- A probe is disturbed by its own read, if it is the one of an undisturbed probe that finds the
removal by another. -/
theorem disturbed_cons_read_iff {r : Except Failure (Option Bytes)} (h : ¬ Disturbed key p past) :
    Disturbed key p ((some p, .read () key r) :: past) ↔
      (some p, written key) ∈ past ∧ ∃ q, q ≠ p ∧ RemovedBy key q past := by
  constructor
  · rintro ⟨newer, r', older, hpast, hdist⟩
    -- this read shows the disturbance, or an older one did, and the probe was undisturbed till now
    rcases List.cons_eq_append_iff.mp hpast with ⟨-, hhead⟩ | ⟨newer', -, rfl⟩
    · rw [(List.cons.inj hhead).2] at hdist
      exact hdist
    · exact absurd ⟨newer', r', older, rfl, hdist⟩ h
  · exact fun hdist => ⟨[], r, past, rfl, hdist⟩

/-! ### Phases -/

/-- **How far a probe has come** in some steps: what is left of it, and what it went through. -/
inductive Phase (key : String) (p : ν) (past : List (Option ν × Exchange Unit)) :
    Nat → Script Unit Bool → Prop
  | fresh (h : ¬ Disturbed key p past) : Phase key p past 0 (script key)
  | wrote (hw : (some p, written key) ∈ past) (h : ¬ Disturbed key p past) :
    Phase key p past 1 (reading key)
  | found (h : ¬ Disturbed key p past) : Phase key p past 2 (removing key marker)
  | finished {n : Nat} (hn : n ≠ 0) {b : Bool} (h : b = true ↔ ¬ Disturbed key p past) :
    Phase key p past n (.done b)

/-- What others do changes nothing about how far a probe has come. -/
theorem Phase.cons {n : Nat} {s : Script Unit Bool} (hs : Phase key p past n s)
    (hx : ∀ r, x ≠ (some p, .read () key r)) : Phase key p (x :: past) n s := by
  cases hs with
  | fresh h => exact .fresh ((disturbed_cons_iff hx).not.mpr h)
  | wrote hw h => exact .wrote (List.mem_cons_of_mem _ hw) ((disturbed_cons_iff hx).not.mpr h)
  | found h => exact .found ((disturbed_cons_iff hx).not.mpr h)
  | finished hn h => exact .finished hn (h.trans (disturbed_cons_iff hx).not.symm)

/-- A probe that has finished has given its verdict by whether it was disturbed. -/
theorem Phase.of_done {n : Nat} {b : Bool} (hs : Phase key p past n (.done b)) :
    b = true ↔ ¬ Disturbed key p past := by
  cases hs with
  | finished hn h => exact h

/-- A probe that has made no step has all of its script before it. -/
theorem Phase.eq_script {s : Script Unit Bool} (hs : Phase key p past 0 s) : s = script key := by
  cases hs with
  | fresh h => rfl
  | finished hn h => exact absurd rfl hn

/-- A probe takes three steps. -/
theorem Phase.eq_done {n : Nat} {s : Script Unit Bool} (hs : Phase key p past n s) (hn : 3 ≤ n) :
    ∃ b, s = .done b := by
  cases hs with
  | fresh h | wrote hw h | found h => omega
  | @finished _ _ b h => exact ⟨b, rfl⟩

/-- **What the probes have made of the test key**: it holds the marker for a probe that is yet to
remove it, or some probe has removed it. -/
inductive Contents (key : String) (held : Option Bytes) (P : Pool ν Unit Bool σ) : Prop
  | untouched (hscripts : ∀ p, P.scripts p = script key)
  | kept (hheld : held = some marker) (hpast : ∀ q, ¬ RemovedBy key q P.past) (p : ν)
    (hp : P.scripts p = reading key ∨ P.scripts p = removing key marker)
  | gone (hheld : held = none) (q : ν) (hq : RemovedBy key q P.past)

variable [DecidableEq ν] {h : Handler Unit σ} {I : σ → Prop} {held : σ → Option Bytes}
  {turns : List (Pool.Turn ν Unit)} {P : Pool ν Unit Bool σ}

/-- **Probes underway**: where all of them are after some turns. -/
structure Probing (I : σ → Prop) (key : String) (held : σ → Option Bytes)
    (turns : List (Pool.Turn ν Unit)) (P : Pool ν Unit Bool σ) : Prop where
  state : I P.state
  phase : ∀ p, Phase key p P.past (turns.count (.step p)) (P.scripts p)
  contents : Contents key (held P.state) P
  /-- Whoever has removed the test key has found the store healthy. -/
  removed : ∀ q r, (some q, .removal () key r) ∈ P.past → P.scripts q = .done true

theorem count_step_concat {t : Pool.Turn ν Unit} (ht : t ≠ .step p) :
    (turns ++ [t]).count (.step p) = turns.count (.step p) := by
  rw [List.count_append, List.count_singleton, if_neg (by simpa using ht), Nat.add_zero]

/-- A probe has come further, and the others are where they were. -/
theorem Probing.advance (hP : Probing I key held turns P) {p : ν} {x : Exchange Unit}
    {s : Script Unit Bool} {st : σ} (hlive : P.scripts p ≠ .done true) (hst : I st)
    (hphase : Phase key p ((some p, x) :: P.past) (turns.count (.step p) + 1) s)
    (hcontents : Contents key (held st) (P.advance p x s st))
    (hremoval : ∀ r, x = .removal () key r → s = .done true) :
    Probing I key held (turns ++ [.step p]) (P.advance p x s st) where
  state := hst
  phase p' := by
    -- the probe that moved is in its new phase; to all others this is an exchange of somebody else
    by_cases hp : p' = p
    · subst hp
      simpa using hphase
    · rw [Pool.advance_scripts_of_ne _ _ _ _ _ hp, count_step_concat (by simp [Ne.symm hp])]
      refine (hP.phase p').cons fun r hr => hp ?_
      exact (Option.some.inj (Prod.mk.inj hr).1).symm
  contents := hcontents
  removed q r hr := by
    -- a removal just now was the last step of this probe; an older one is by a probe that has
    -- finished
    rcases List.mem_cons.mp hr with hnew | hold
    · obtain ⟨hq, hx⟩ := Prod.mk.inj hnew
      rw [Option.some.inj hq, Pool.advance_scripts_self]
      exact hremoval r hx.symm
    · have hq := hP.removed q r hold
      have hne : q ≠ p := by
        rintro rfl
        exact hlive hq
      rw [Pool.advance_scripts_of_ne _ _ _ _ _ hne]
      exact hq

/-- A turn of a probe that has finished. -/
theorem Probing.rest (hP : Probing I key held turns P) {b : Bool}
    (hs : P.scripts p = .done b) :
    Probing I key held (turns ++ [.step p]) (P.turn h (.step p)) := by
  rw [Pool.turn_done hs]
  refine ⟨hP.state, fun p' => ?_, hP.contents, hP.removed⟩
  have hphase := hP.phase p'
  -- a finished probe only counts one more step, and the others see nothing
  by_cases hp : p' = p
  · subst hp
    rw [hs] at hphase ⊢
    exact .finished (by simp) hphase.of_done
  · rw [count_step_concat (by simp [Ne.symm hp])]
    exact hphase

section Step

variable (hmap : h.Maps I key held) (hP : Probing I key held turns P)
include hmap hP

/-- The step that writes the marker. -/
theorem Probing.write (hs : P.scripts p = script key) (hn : turns.count (.step p) = 0)
    (hd : ¬ Disturbed key p P.past) :
    Probing I key held (turns ++ [.step p]) (P.turn h (.step p)) := by
  rw [Pool.turn_ask hs, hmap.write _ _ _ hP.state]
  refine hP.advance (by rw [hs]; nofun) (hmap.serve _ _ hP.state) ?_ ?_ nofun
  · rw [hn]
    exact .wrote List.mem_cons_self ((disturbed_cons_iff (by nofun)).not.mpr hd)
  · -- a write is the newest exchange, so no removal is the last change of the test key
    refine .kept (hmap.held_write _ _ _ hP.state) (fun q hq => ?_) p (.inl ?_)
    · have hwrites := (hq.of_cons nofun).1
      simp [Exchange.of, Exchange.writes] at hwrites
    · exact Pool.advance_scripts_self ..

/-- The step that reads it, which is still there or was removed by another probe. -/
theorem Probing.read (hs : P.scripts p = reading key) (hn : turns.count (.step p) = 1)
    (hw : (some p, written key) ∈ P.past) (hd : ¬ Disturbed key p P.past) :
    Probing I key held (turns ++ [.step p]) (P.turn h (.step p)) := by
  rw [Pool.turn_ask hs, hmap.read _ hP.state]
  have hst := hmap.serve (.get key) _ hP.state
  have hheld := hmap.held_read _ hP.state
  -- what it finds depends on what all the probes have made of the test key
  cases hP.contents with
  | untouched hscripts =>
    -- this probe has written, so the test key is not as it was before all of them
    have hfresh := hs.symm.trans (hscripts p)
    cases hfresh
  | kept hkept hpast =>
    rw [hkept]
    refine hP.advance (by rw [hs]; nofun) hst ?_ ?_ nofun
    · rw [hn]
      -- the marker is there, so nobody has removed it and this read shows no disturbance
      refine .found fun hdist => ?_
      obtain ⟨-, q, -, hq⟩ := (disturbed_cons_read_iff hd).mp hdist
      exact hpast q hq
    · refine .kept (hheld.trans hkept) (fun q hq => ?_) p (.inr ?_)
      · exact hpast q (hq.of_cons nofun).2
      · exact Pool.advance_scripts_self ..
  | gone hgone q hq =>
    -- whoever has removed it has finished, and this probe has not
    have hne : q ≠ p := by
      rintro rfl
      obtain ⟨r, hr⟩ := hq.mem
      have hdone := hs.symm.trans (hP.removed q r hr)
      cases hdone
    rw [hgone]
    refine hP.advance (by rw [hs]; nofun) hst ?_ ?_ nofun
    · refine .finished (Nat.succ_ne_zero _) (iff_of_false nofun (not_not.mpr ?_))
      exact (disturbed_cons_read_iff hd).mpr ⟨hw, q, hne, hq⟩
    · exact .gone (hheld.trans hgone) q (hq.cons rfl)

/-- The step that removes it. -/
theorem Probing.remove (hs : P.scripts p = removing key marker) (hd : ¬ Disturbed key p P.past) :
    Probing I key held (turns ++ [.step p]) (P.turn h (.step p)) := by
  rw [Pool.turn_ask hs, hmap.remove _ hP.state, beq_self_eq_true]
  refine hP.advance (by rw [hs]; nofun) (hmap.serve _ _ hP.state) ?_ ?_ fun _ _ => rfl
  · -- the probe ends here, undisturbed, as a removal cannot disturb the one that makes it
    refine .finished (Nat.succ_ne_zero _) (iff_of_true rfl ?_)
    exact (disturbed_cons_iff (by nofun)).not.mpr hd
  · exact .gone (hmap.held_remove _ hP.state) p ⟨[], _, P.past, rfl, nofun⟩

/-- **No step of a probe leads out of the phases.** -/
theorem Probing.step (p : ν) :
    Probing I key held (turns ++ [.step p]) (P.turn h (.step p)) := by
  have hphase := hP.phase p
  generalize hs : P.scripts p = s at hphase
  generalize hn : turns.count (.step p) = n at hphase
  -- the phase says which command the probe gives
  cases hphase with
  | fresh hd => exact hP.write hmap hs hn hd
  | wrote hw hd => exact hP.read hmap hs hn hw hd
  | found hd => exact hP.remove hmap hs hd
  | finished hn' hd => exact hP.rest hs

end Step

/-- **Nor does a command of somebody else**, on another key. -/
theorem Probing.other (hmap : h.Maps I key held) (hP : Probing I key held turns P) {c : Command}
    (hc : c.key ≠ key) :
    Probing I key held (turns ++ [.other () c]) (P.turn h (.other () c)) where
  state := hmap.serve c _ hP.state
  phase p := by
    rw [count_step_concat (by nofun)]
    exact (hP.phase p).cons nofun
  contents := by
    have hheld := hmap.others c _ hP.state hc
    -- the command has another key, so it writes nothing under the test key
    have hwrites : (Exchange.of () c (h.serve () c P.state).1).writes key = false := by
      cases c with
      | get | remove => rfl
      | set k p ttl => exact beq_false_of_ne hc
    -- the test key holds what it held, and no removal is added
    cases hP.contents with
    | untouched hscripts => exact .untouched hscripts
    | kept hkept hpast p hp =>
      exact .kept (hheld.trans hkept) (fun q hq => hpast q (hq.of_cons nofun).2) p hp
    | gone hgone q hq => exact .gone (hheld.trans hgone) q (hq.cons hwrites)
  removed q r hr := by
    rcases List.mem_cons.mp hr with hnew | hold
    · cases (Prod.mk.inj hnew).1
    · exact hP.removed q r hold

/-- Where the probes are before the first turn. -/
theorem Probing.start {st : σ} (hst : I st) :
    Probing I key held [] (⟨fun _ : ν => script key, st, []⟩ : Pool ν Unit Bool σ) where
  state := hst
  phase _ := .fresh disturbed_nil
  contents := .untouched fun _ => rfl
  removed _ _ hr := by cases hr

/-- By induction on the turns, all probes are always in some phase, and the test key is accounted
for. -/
theorem Probing.run (hmap : h.Maps I key held) {st : σ} (hst : I st)
    (turns : List (Pool.Turn ν Unit)) (hothers : ∀ c, .other () c ∈ turns → c.key ≠ key) :
    Probing I key held turns (Pool.run h turns ⟨fun _ => script key, st, []⟩) := by
  -- from the last turn on, as a run takes its turns in order
  induction turns using List.reverseRecOn with
  | nil => exact .start hst
  | append_singleton turns t ih =>
    have hP := ih fun c hc => hothers c (List.mem_append_left _ hc)
    rw [Pool.run_concat]
    cases t with
    | step p => exact hP.step hmap p
    | other i c => exact hP.other hmap (hothers c (List.mem_append_right _ List.mem_cons_self))

/-! ### Verdicts -/

/-- **What comes of probes at the same time**, after some turns: where `P` is then the pool, and
`held` is what is under the test key. -/
structure Verdicts (key : String) (held : Option Bytes) (turns : List (Pool.Turn ν Unit))
    (P : Pool ν Unit Bool σ) : Prop where
  /-- A probe says that the store is healthy, unless another one has disturbed it. -/
  answer : ∀ p b, P.scripts p = .done b → (b = true ↔ ¬ Disturbed key p P.past)
  /-- A probe says something after three steps at most, … -/
  finishes : ∀ p, 3 ≤ turns.count (.step p) → ∃ b, P.scripts p = .done b
  /-- … and if any has, some probe has found the store healthy. -/
  healthy : ∀ p b, P.scripts p = .done b → ∃ q, P.scripts q = .done true
  /-- Once all probes that have begun have finished, the test key is gone. -/
  absent : (∃ p, .step p ∈ turns) → (∀ p, .step p ∈ turns → ∃ b, P.scripts p = .done b) →
    held = none

theorem Probing.verdicts (hP : Probing I key held turns P) :
    Verdicts key (held P.state) turns P where
  answer p b hb := by
    have hphase := hP.phase p
    rw [hb] at hphase
    exact hphase.of_done
  finishes p hn := (hP.phase p).eq_done hn
  healthy p b hb := by
    have hphase := hP.phase p
    rw [hb] at hphase
    by_cases hd : Disturbed key p P.past
    · -- the probe that has disturbed this one
      obtain ⟨newer, r, older, hpast, -, q, -, hq⟩ := hd
      obtain ⟨r', hr'⟩ := hq.mem
      refine ⟨q, hP.removed q r' ?_⟩
      rw [hpast]
      exact List.mem_append_right _ (List.mem_cons_of_mem _ hr')
    · exact ⟨p, by rw [hb, hphase.of_done.mpr hd]⟩
  absent hsome hall := by
    -- the test key can only be there for a probe that has begun and not finished
    cases hP.contents with
    | untouched hscripts =>
      obtain ⟨p, hp⟩ := hsome
      obtain ⟨b, hb⟩ := hall p hp
      cases (hscripts p).symm.trans hb
    | kept hkept hpast p hp =>
      -- a probe that holds the marker has left its first phase, so it has had a turn
      have hbegun : .step p ∈ turns := by
        by_contra hnot
        have hphase := hP.phase p
        rw [List.count_eq_zero_of_not_mem hnot] at hphase
        rcases hp with hp | hp <;> cases hp.symm.trans hphase.eq_script
      obtain ⟨b, hb⟩ := hall p hbegun
      rcases hp with hp | hp <;> cases hp.symm.trans hb
    | gone hgone => exact hgone

/-- **A probe that has the store to itself** finds it healthy. -/
theorem run_script_eq_true (hmap : h.Maps I key held) {st : σ} (hst : I st) :
    ((script key).run h st).1 = true := by
  -- the one probe of a pool, which has all turns
  have hP := Probing.run hmap hst (.replicate 3 (.step ())) fun c hc => by simp at hc
  obtain ⟨b, hb⟩ := hP.verdicts.finishes () (by simp)
  obtain ⟨⟨⟩, hq⟩ := hP.verdicts.healthy () b hb
  have hrun := Pool.run_replicate h (⟨fun _ => script key, st, []⟩ : Pool Unit Unit Bool σ) () 3
  rw [hq] at hrun
  exact congrArg Prod.fst hrun.symm

/-- **Probes at the same time** disturb each other in one way only: this is what comes of the probes
of a store that is a map, whatever is on it, in every interleaving of them with each other and with
commands on other keys. -/
theorem interleaved {h : Handler Unit σ} {I : σ → Prop} {held : σ → Option Bytes}
    (hmap : h.Maps I key held) (turns : List (Pool.Turn ν Unit))
    (hothers : ∀ c, .other () c ∈ turns → c.key ≠ key) (st : σ) (hst : I st) :
    Verdicts key (held (Pool.run h turns ⟨fun _ => script key, st, []⟩).state) turns
      (Pool.run h turns ⟨fun _ => script key, st, []⟩) :=
  (Probing.run hmap hst turns hothers).verdicts

end Interleaved

/-! ### A sample -/

/-- The beginning of 1970. -/
def epoch : Clock := ⟨⟨0⟩, 0⟩

/-- A whole probe between the write and the read of another, and a write of another key. -/
def oneInAnother : List (Pool.Turn (Fin 2) Unit) :=
  [.step 1, .step 0, .other () (.set "k" [] ttl), .step 0, .step 0, .step 1]

/-- Two probes of a store that have these turns. -/
def nested (s : Store) : Pool (Fin 2) Unit Bool Store.Watched :=
  Pool.run (Store.watch epoch) oneInAnother ⟨fun _ => script s.probeKey, ⟨s, [], []⟩, []⟩

/-- A Redis store without faults, and nothing on its server. -/
def blankRedis : Store := .redis ⟨{}⟩

/-- The probe within the other one disturbs it, and both leave nothing behind; alone with the store,
each finds it healthy. -/
theorem interleaved_nested :
    (Store.watch epoch).Maps (fun w => w.store.Mapping epoch blankRedis.probeKey)
        blankRedis.probeKey (fun w => w.store.held epoch blankRedis.probeKey) ∧
      blankRedis.Mapping epoch blankRedis.probeKey ∧
      (∀ c, .other () c ∈ oneInAnother → c.key ≠ blankRedis.probeKey) ∧
      ¬ Disturbed blankRedis.probeKey 0 (nested blankRedis).past ∧
      Disturbed blankRedis.probeKey 1 (nested blankRedis).past ∧
      (nested blankRedis).state.store.held epoch blankRedis.probeKey = none ∧
      ((script blankRedis.probeKey).run (Store.watch epoch) ⟨blankRedis, [], []⟩).1 = true := by
  have hmap := Store.watch_maps epoch blankRedis.probeKey
  have hs : blankRedis.Mapping epoch blankRedis.probeKey :=
    ⟨⟨rfl, rfl⟩, ⟨rfl, rfl⟩, fun _ _ => rfl, rfl⟩
  have hothers (c : Command) (hc : .other () c ∈ oneInAnother) : c.key ≠ blankRedis.probeKey := by
    simp only [oneInAnother, List.mem_cons, reduceCtorEq, Pool.Turn.other.injEq, true_and,
      false_or, or_false, List.not_mem_nil] at hc
    subst hc
    decide
  have hV := interleaved hmap oneInAnother hothers ⟨blankRedis, [], []⟩ hs
  have hfirst : (nested blankRedis).scripts 0 = .done true := rfl
  have hsecond : (nested blankRedis).scripts 1 = .done false := rfl
  refine ⟨hmap, hs, hothers, (hV.answer 0 true hfirst).mp rfl, ?_, hV.absent ⟨0, by decide⟩ ?_,
    run_script_eq_true hmap hs⟩
  · by_contra hnot
    cases (hV.answer 1 false hsecond).mpr hnot
  · intro p _
    match p with
    | 0 => exact ⟨true, hfirst⟩
    | 1 => exact ⟨false, hsecond⟩

/-- So a probe may find a store unhealthy that is a map, fails nothing, and answers another probe as
it should. -/
theorem nested_unhealthy :
    (Store.unbounded {}).Mapping epoch "health_check_dashmap" ∧
      (nested (.unbounded {})).scripts 0 = .done true ∧
      (nested (.unbounded {})).scripts 1 = .done false :=
  ⟨⟨trivial, ⟨trivial, trivial⟩, fun _ _ => trivial, trivial⟩, rfl, rfl⟩

end Probe

end TwoTier
