import TwoTier.Proofs.Manager.Lifetimes
import TwoTier.Proofs.Manager.Parts
import TwoTier.Proofs.Script.Within

/-!
# Tiers that a mode leaves out

A cache of two tiers may be in a mode that uses one of them only. As long as no call has a flag for
a tier, all calls but removals then keep to that one (`within_script`), and a removal, which goes to
both, does the same to it whatever becomes of the other (`view_delete`). So the other tier cannot be
seen: two runs that share the tier of the mode, and differ in anything else, return the same and
leave the tier the same.

`isolation` says so for runs of any length. With flags a call may reach the other tier, but still
nothing is copied: what a cache in such a mode writes are values of its callers.
-/

namespace TwoTier

/-- A removal. -/
def Request.isDelete : Request → Bool
  | .delete _ => true
  | _ => false

/-- What a call returned, unless it is a removal. -/
def Answered.unlessDelete (a : Answered) : Option ((r : Request) × r.Reply) :=
  if a.request.isDelete then none else some ⟨a.request, a.reply⟩

namespace Manager

variable {σ σ' κ ρ α : Type}

/-! ### Scripts of a mode for one tier -/

section Within

variable {m : Manager} {i : Tier}

theorem within_closed (i : Tier) : Script.Closed fun _ (s : Script Tier _) => s.Within i :=
  ⟨.pure, .event, .bind⟩

/-- A call without flags chooses the tier of the mode only. -/
theorem eq_of_contains_chosen {o : Options} (hmode : m.mode = .only i)
    (ho : o.hasOverride = false) {j : Tier} (hj : (m.chosen o).contains j = true) : j = i := by
  rw [chosen_eq_targets ho, hmode] at hj
  cases i <;> cases j <;> first | rfl | cases hj

/-- **All calls but removals keep to the tier of the mode**, if they have no flags. -/
theorem within_script (hmode : m.mode = .only i) {r : Request} (hr : r.isDelete = false)
    (hflags : r.options.hasOverride = false) : (r.script m).Within i := by
  have hC := within_closed i
  -- the commands of the call go to tiers that it chooses
  have hcmd (j : Tier) (hj : (m.chosen r.options).contains j = true) (c : Command)
      (_ : c.key = r.key) : (Script.command j c).Within i := by
    obtain rfl := eq_of_contains_chosen hmode hflags hj
    exact .command j c
  cases r with
  | get s key o => exact closed_get hC hcmd s
  | set s key a o => exact closed_set hC hcmd s a
  | getOrCompute s key o outcome => exact closed_getOrCompute hC hcmd .computed s outcome
  | delete key => cases hr

end Within

/-! ### Two runs -/

section Runs

variable {m : Manager} {i : Tier} {h : Handler Tier σ} {h' : Handler Tier σ'} {view : σ → ρ}
  {view' : σ' → ρ} {st : σ} {st' : σ'}

/-- Removals do the same to a tier that is shared, whatever other tiers answer. -/
theorem view_removeFrom (hsh : h.Share h' i view view') (key : String) (ts : List Tier)
    (hst : view st = view' st') :
    view ((removeFrom key ts).run h st).2 = view' ((removeFrom key ts).run h' st').2 := by
  induction ts generalizing st st' with
  | nil => exact hst
  | cons t ts ih =>
    -- the first removal may be reported differently, which does not show
    have hfirst (e e' : Event) : view (h.note e (h.serve t (.remove key) st).2) =
        view' (h'.note e' (h'.serve t (.remove key) st').2) := by
      rw [hsh.note, hsh.note']
      by_cases ht : t = i
      · subst ht
        exact hsh.self _ st st' hst
      · rw [hsh.other t _ st ht, hsh.other' t _ st' ht, hst]
    rw [run_removeFrom_cons_snd, run_removeFrom_cons_snd]
    exact ih (hfirst _ _)

/-- A removal does the same to the shared tier. -/
theorem view_delete (hsh : h.Share h' i view view') (key : String) (hst : view st = view' st') :
    view ((m.delete key).run h st).2 = view' ((m.delete key).run h' st').2 := by
  by_cases hk : key = ""
  · subst hk
    exact hst
  · rw [run_delete_snd h m hk, run_delete_snd h' m hk]
    exact view_removeFrom hsh key m.tiers hst

variable {r : Request} (hmode : m.mode = .only i) (hflags : r.options.hasOverride = false)
include hmode hflags

/-- One call, in two runs that share the tier of the mode. -/
theorem answer_eq (hsh : h.Share h' i view view') (hst : view st = view' st') :
    (m.answer h r st).1.unlessDelete = (m.answer h' r st').1.unlessDelete ∧
      view (m.answer h r st).2 = view' (m.answer h' r st').2 := by
  -- a removal goes to both tiers, any other call to that of the mode
  cases hr : r.isDelete with
  | true =>
    cases r with
    | delete key => exact ⟨rfl, view_delete hsh key hst⟩
    | get | set | getOrCompute => cases hr
  | false =>
    obtain ⟨hreply, hview⟩ := (within_script hmode hr hflags).run_eq hsh hst
    refine ⟨?_, hview⟩
    simp only [answer, Answered.unlessDelete, hr, hreply]

/-- One call neither reads nor writes the other tier. -/
theorem store_eq_of_mem_trace : ∀ x ∈ (m.answer h r st).1.trace,
    x.isRead = true ∨ x.isWrite = true → x.store = i := by
  intro x hx hkind
  cases hr : r.isDelete with
  | true =>
    cases r with
    | delete key =>
      -- a removal neither reads nor writes
      obtain ⟨j, removed, rfl⟩ := delete_only h key m st x hx
      rcases hkind with hkind | hkind <;> cases hkind
    | get | set | getOrCompute => cases hr
  | false => exact (within_script hmode hr hflags).store_eq h st x hx

end Runs

section Isolation

variable {m : Manager} {i : Tier} {h : Handler Tier σ} {h' : Handler Tier σ'} {view : σ → ρ}
  {view' : σ' → ρ} {turn : κ → σ → σ} {turn' : κ → σ' → σ'}

/-- Runs that share the tier of the mode return the same, and leave it the same. -/
theorem answers_eq (hmode : m.mode = .only i) (hsh : h.Share h' i view view')
    (hturn : ∀ k st st', view st = view' st' → view (turn k st) = view' (turn' k st'))
    {steps : List (κ × Request)} (hflags : ∀ x ∈ steps, x.2.options.hasOverride = false) {st : σ}
    {st' : σ'} (hst : view st = view' st') :
    (m.answers h turn steps st).1.filterMap Answered.unlessDelete =
        (m.answers h' turn' steps st').1.filterMap Answered.unlessDelete ∧
      view (m.answers h turn steps st).2 = view' (m.answers h' turn' steps st').2 := by
  induction steps generalizing st st' with
  | nil => exact ⟨rfl, hst⟩
  | cons x steps ih =>
    obtain ⟨k, r⟩ := x
    obtain ⟨hr, hflags⟩ := List.forall_mem_cons.mp hflags
    -- the first call leaves the shared tier the same, and the others go on from there
    obtain ⟨hreply, hview⟩ := answer_eq hmode hr hsh (hturn k st st' hst)
    obtain ⟨hrest, hend⟩ := ih hflags hview
    refine ⟨?_, hend⟩
    simp only [answers, List.filterMap_cons, hreply, hrest]

/-- In a mode for one tier, what a call writes is its own value, after it has found nothing. -/
theorem of_mem_trace_write (hm : m.Created) (hmode : m.mode = .only i) {r : Request} {st : σ}
    {j : Tier} {k : String} {p : Bytes} {ttl : Duration} {reply : Except Failure Unit}
    (hx : .write j k p ttl reply ∈ (m.answer h r st).1.trace) :
    (∃ v, r.value? = some v ∧ m.codec.serialize v.shape v.value = .ok p) ∧
      ∀ l q, .read l r.key (.ok (some q)) ∉ (m.answer h r st).1.trace := by
  cases writes hm hx with
  | store hv hs _ hmiss => exact ⟨⟨_, hv, hs⟩, hmiss⟩
  | copy _ hboth =>
    -- only the mode of both tiers copies
    rw [hmode] at hboth
    cases i <;> cases hboth

/-- **Isolation.** In a mode that uses one tier only, calls without flags neither read nor write the
other; two runs that share the tier of the mode, and whose other tiers hold and do what they like,
return the same from all calls but removals, and leave the tier the same in the end. And with
flags or without, nothing is ever copied: what a call writes is its own value, and a call that has
found something writes nothing. -/
theorem isolation (hm : m.Created) (hmode : m.mode = .only i) (hsh : h.Share h' i view view')
    (hturn : ∀ k st st', view st = view' st' → view (turn k st) = view' (turn' k st'))
    (steps : List (κ × Request)) (st : σ) :
    ((∀ x ∈ steps, x.2.options.hasOverride = false) →
      (∀ a ∈ (m.answers h turn steps st).1, ∀ x ∈ a.trace,
        x.isRead = true ∨ x.isWrite = true → x.store = i) ∧
      ∀ st', view st = view' st' →
        (m.answers h turn steps st).1.filterMap Answered.unlessDelete =
            (m.answers h' turn' steps st').1.filterMap Answered.unlessDelete ∧
          view (m.answers h turn steps st).2 = view' (m.answers h' turn' steps st').2) ∧
    ∀ a ∈ (m.answers h turn steps st).1, ∀ j k p ttl reply, .write j k p ttl reply ∈ a.trace →
      (∃ v, a.request.value? = some v ∧ m.codec.serialize v.shape v.value = .ok p) ∧
        ∀ l q, .read l a.request.key (.ok (some q)) ∉ a.trace := by
  refine ⟨fun hflags => ⟨fun a ha => ?_, fun st' => answers_eq hmode hsh hturn hflags⟩, ?_⟩
  · -- each call of a run is a call from some state, with the options of its step
    obtain ⟨st', ha'⟩ := exists_of_mem_answers ha
    obtain ⟨k, hk⟩ := exists_mem_of_mem_answers ha
    have hr : a.request.options.hasOverride = false := hflags _ hk
    rw [ha']
    exact store_eq_of_mem_trace hmode hr
  · intro a ha j k p ttl reply hx
    obtain ⟨st', ha'⟩ := exists_of_mem_answers ha
    rw [ha'] at hx ⊢
    exact of_mem_trace_write hm hmode hx

end Isolation

end Manager

/-- A deployment shares every tier with any other of the same clock and the same store in it. -/
theorem Deployment.handler_share {m : Manager} (hd : m.Distinct) (i : Tier) :
    (handler m).Share (handler m) i (fun d => (d.clock, behind m i d))
      (fun d => (d.clock, behind m i d)) :=
  (handler_apart hd).share i fun _ => rfl

namespace Manager

/-- An empty store in the process, and any store beyond it. -/
def nearAnd (far : Store) : Deployment where
  clock := ⟨⟨0⟩, 0⟩
  stores := TextMap.ofList [("far", far), ("near", .unbounded {})]

/-- A store that has a value, and fails whatever it is asked. -/
def broken : Store :=
  .recording
    { name := "Far"
      data := TextMap.ofList [("k", ([0], defaultTtl))]
      getFault := some { text := "down" }
      setFault := some { text := "down" }
      removeFault := some { text := "down" } }

/-- The clock is set between two calls. -/
def setClock (c : Clock) (d : Deployment) : Deployment := { d with clock := c }

/-- A value is written, removed, computed again and read. -/
def removedBetween : List (Clock × Request) :=
  [(⟨⟨0⟩, 0⟩, .set .bool "k" true {}), (⟨⟨1⟩, 1⟩, .delete "k"),
    (⟨⟨2⟩, 2⟩, .getOrCompute .bool "k" {} (.ok false)), (⟨⟨3⟩, 3⟩, .get .bool "k" {})]

/-- An empty store and a broken one cannot be told apart beyond a mode that leaves them out, but for
the removal that the broken one fails. -/
theorem isolation_broken :
    let m := sample .l1Only
    let run (d : Deployment) := m.answers (Deployment.handler m) setClock removedBetween d
    let empty := nearAnd (.bounded { capacity := 100 })
    m.Created ∧ m.Distinct ∧ (∀ x ∈ removedBetween, x.2.options.hasOverride = false) ∧
      (run empty).1.filterMap Answered.unlessDelete =
        (run (nearAnd broken)).1.filterMap Answered.unlessDelete ∧
      Deployment.behind m .l1 (run empty).2 = Deployment.behind m .l1 (run (nearAnd broken)).2 ∧
      (∀ a ∈ (run empty).1, ∀ x ∈ a.trace, x.isRead = true ∨ x.isWrite = true → x.store = .l1) ∧
      (run empty).1.map Answered.error? = [none, none, none, none] ∧
      (run (nearAnd broken)).1.map Answered.error? =
        [none, some (.tier .l2 .delete { text := "down" }), none, none] := by
  intro m run empty
  have hm : m.Created := sample_created .l1Only
  have hd : m.Distinct := sample_distinct .l1Only
  have hflags : ∀ x ∈ removedBetween, x.2.options.hasOverride = false := by
    simp [removedBetween, Request.options, Options.hasOverride]
  have hturn (c : Clock) (d d' : Deployment)
      (h : (d.clock, Deployment.behind m .l1 d) = (d'.clock, Deployment.behind m .l1 d')) :
      ((setClock c d).clock, Deployment.behind m .l1 (setClock c d)) =
        ((setClock c d').clock, Deployment.behind m .l1 (setClock c d')) :=
    congrArg (c, ·) (Prod.mk.inj h).2
  obtain ⟨hown, hsame⟩ := (isolation hm rfl (Deployment.handler_share hd .l1) hturn
    removedBetween empty).1 hflags
  obtain ⟨hreplies, hend⟩ := hsame (nearAnd broken) rfl
  exact ⟨hm, hd, hflags, hreplies, (Prod.mk.inj hend).2, hown, by decide +kernel,
    by decide +kernel⟩

end Manager

end TwoTier
