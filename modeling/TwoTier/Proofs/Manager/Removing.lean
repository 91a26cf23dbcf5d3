import TwoTier.Manager.Calls
import TwoTier.Proofs.Script.Trace

/-!
# The footprint of a removal

Everything that `Manager.delete` can do, whatever the stores answer. `Manager.Removing` is a removal
from a list of tiers, one rule for each reply to the first of them, with its trace, the failure that
it ends with and the state it leaves; every run is one (`removing`). So what holds of all removals
is an induction over the tiers.

`delete_footprint` is what a removal asks and returns: `Manager.DeleteFootprint` says that every
tier that there is is asked once, in order, whatever the mode is and whatever the others answer, and
that the first failure is what the call ends with.
-/

namespace TwoTier.Manager

variable {σ : Type}

theorem mem_tiers {m : Manager} {i : Tier} : i ∈ m.tiers ↔ m.hasTier i = true := by
  cases i <;> simp [tiers, Tier.all]

/-! ### The ways in which a removal can go -/

/-- The ways in which a removal from some tiers can go from a state: the trace, the failure it ends
with, and the state it leaves. -/
inductive Removing (h : Handler Tier σ) (key : String) :
    List Tier → σ → List (Exchange Tier) → Option CacheError → σ → Prop
  | done {st : σ} : Removing h key [] st [] none st
  | removed {i : Tier} {ts : List Tier} {st st₁ st' : σ} {T : List (Exchange Tier)}
      {r : Option CacheError} (hr : h.serve i (.remove key) st = (.ok (), st₁))
      (hrest : Removing h key ts (h.note (.removed key i) st₁) T r st') :
    Removing h key (i :: ts) st (.removal i key (.ok ()) :: T) r st'
  | failed {i : Tier} {ts : List Tier} {f : Failure} {st st₁ st' : σ} {T : List (Exchange Tier)}
      {r : Option CacheError} (hr : h.serve i (.remove key) st = (.error f, st₁))
      (hrest : Removing h key ts (h.note (.removalFailed key i f.text) st₁) T r st') :
    Removing h key (i :: ts) st (.removal i key (.error f) :: T) (some (.tier i .delete f)) st'

section Runs

variable (h : Handler Tier σ) (m : Manager) {key : String}

/-- **Every removal goes one of the ways.** -/
theorem removing (key : String) (ts : List Tier) (st : σ) :
    Removing h key ts st ((removeFrom key ts).trace h st) ((removeFrom key ts).run h st).1
      ((removeFrom key ts).run h st).2 := by
  induction ts generalizing st with
  | nil => exact .done
  | cons i ts ih =>
    simp only [removeFrom, Script.run_bind, Script.trace_bind, Script.run_command,
      Script.trace_command]
    rcases hr : h.serve i (.remove key) st with ⟨r, st₁⟩
    cases r with
    | ok u => exact .removed hr (ih _)
    | error f =>
      -- the failure is kept, and the rest is carried out all the same
      simpa [Script.run_bind, Script.trace_bind] using .failed hr (ih _)

/-- A removal ends with the first failure that removing from the tiers has come to. -/
theorem run_delete (hk : key ≠ "") (st : σ) :
    (m.delete key).run h st =
      (match ((removeFrom key m.tiers).run h st).1 with
        | none => .ok ()
        | some e => .error e,
        ((removeFrom key m.tiers).run h st).2) := by
  rw [delete, if_neg (by simpa using hk), Script.run_bind]
  cases ((removeFrom key m.tiers).run h st).1 <;> rfl

/-- The result of a removal does not matter to what it leaves. -/
theorem run_delete_snd (hk : key ≠ "") (st : σ) :
    ((m.delete key).run h st).2 = ((removeFrom key m.tiers).run h st).2 := by
  rw [run_delete h m hk]

/-- A removal asks what removing from the tiers asks. -/
theorem trace_delete (hk : key ≠ "") (st : σ) :
    (m.delete key).trace h st = (removeFrom key m.tiers).trace h st := by
  rw [delete, if_neg (by simpa using hk), Script.trace_bind]
  cases ((removeFrom key m.tiers).run h st).1 <;> exact List.append_nil _

/-- What is reported of a removal from a tier. -/
def removalEvent (key : String) (t : Tier) : Except Failure Unit → Event
  | .ok () => .removed key t
  | .error f => .removalFailed key t f.text

/-- What removals leave does not depend on which of them fail, but for what is reported. -/
theorem run_removeFrom_cons_snd (key : String) (t : Tier) (ts : List Tier) (st : σ) :
    ((removeFrom key (t :: ts)).run h st).2 =
      ((removeFrom key ts).run h (h.note (removalEvent key t (h.serve t (.remove key) st).1)
        (h.serve t (.remove key) st).2)).2 := by
  rw [removeFrom, Script.run_bind, Script.run_command]
  cases (h.serve t (.remove key) st).1 with
  | ok u => simp only [Script.run_bind, Script.run_event, removalEvent]
  | error f => simp only [Script.run_bind, Script.run_event, Script.run_pure, removalEvent]

end Runs

/-! ### What the ways have in common -/

section Common

variable {h : Handler Tier σ} {key : String} {ts : List Tier} {st st' : σ}
  {T : List (Exchange Tier)} {r : Option CacheError}

/-- The tiers are asked one after the other, each once. -/
theorem Removing.map_store (hw : Removing h key ts st T r st') : T.map Exchange.store = ts := by
  induction hw with
  | done => rfl
  | removed _ _ ih | failed _ _ ih => exact congrArg (List.cons _) ih

/-- They are asked for nothing but that the key is removed. -/
theorem Removing.only (hw : Removing h key ts st T r st') :
    ∀ x ∈ T, ∃ i reply, x = .removal i key reply := by
  induction hw with
  | done => simp
  | removed _ _ ih | failed _ _ ih => exact List.forall_mem_cons.mpr ⟨⟨_, _, rfl⟩, ih⟩

/-- It ends without a failure exactly if no tier has failed. -/
theorem Removing.eq_none_iff (hw : Removing h key ts st T r st') :
    r = none ↔ ∀ i f, .removal i key (.error f) ∉ T := by
  induction hw with
  | done => simp
  | removed _ _ ih => simp [ih]
  | @failed i _ f =>
    -- the failure at the head is among the exchanges
    refine iff_of_false nofun fun hall => ?_
    exact hall i f List.mem_cons_self

/-- The first failure is what it ends with. -/
theorem Removing.eq_some (hw : Removing h key ts st T r st') {A B : List (Exchange Tier)} {i : Tier}
    {f : Failure} (hT : T = A ++ .removal i key (.error f) :: B)
    (hA : ∀ j g, .removal j key (.error g) ∉ A) : r = some (.tier i .delete f) := by
  induction hw generalizing A with
  | done => simp at hT
  | removed _ _ ih =>
    -- a success is one of the exchanges before the failure
    cases A with
    | nil => simp at hT
    | cons x A =>
      obtain ⟨-, hT⟩ := List.cons.inj hT
      exact ih hT fun j g hx => hA j g (List.mem_cons_of_mem _ hx)
  | failed =>
    cases A with
    | nil =>
      obtain ⟨hx, -⟩ := List.cons.inj hT
      cases hx
      rfl
    -- the failure at the head would come before the first one
    | cons x A =>
      obtain ⟨rfl, -⟩ := List.cons.inj hT
      exact absurd List.mem_cons_self (hA _ _)

end Common

/-! ### The footprint -/

/-- **The footprint of a removal**: what its trace and its result have to do with each other. -/
structure DeleteFootprint (m : Manager) (key : String) (T : List (Exchange Tier))
    (r : Result Unit) : Prop where
  /-- Every tier that there is is asked once, in order, … -/
  asked : T.map Exchange.store = Tier.all.filter m.hasTier
  /-- … and for nothing but that the key is removed. -/
  only : ∀ x ∈ T, ∃ i reply, x = .removal i key reply
  /-- A removal succeeds exactly if no tier fails, … -/
  succeeds : r = .ok () ↔ ∀ i f, .removal i key (.error f) ∉ T
  /-- … and else ends with the first failure. -/
  fails : ∀ A i f B, T = A ++ .removal i key (.error f) :: B →
    (∀ j g, .removal j key (.error g) ∉ A) → r = .error (.tier i .delete f)

/-- **The footprint of a removal**, whatever the stores answer. -/
theorem delete_footprint (h : Handler Tier σ) (m : Manager) {key : String} (hk : key ≠ "")
    (st : σ) :
    m.DeleteFootprint key ((m.delete key).trace h st) ((m.delete key).run h st).1 := by
  have hw := removing h key m.tiers st
  rw [trace_delete h m hk, run_delete h m hk]
  refine ⟨hw.map_store, hw.only, ?_, fun A i f B hT hA => ?_⟩
  · -- the call reports what is left of the failures
    rw [← hw.eq_none_iff]
    cases ((removeFrom key m.tiers).run h st).1 <;> simp
  · rw [hw.eq_some hT hA]

/-- A removal asks for nothing but that its key is removed. -/
theorem delete_only (h : Handler Tier σ) (key : String) (m : Manager) (st : σ) :
    ∀ x ∈ (m.delete key).trace h st, ∃ i removed, x = .removal i key removed := by
  -- a removal that is refused asks nothing
  by_cases hk : key = ""
  · subst hk
    exact fun x hx => (by cases hx)
  · exact (delete_footprint h m hk st).only

/-- A removal reads nothing. -/
theorem delete_reads_nothing (h : Handler Tier σ) (key : String) (m : Manager) (st : σ) {i : Tier}
    {k : String} {reply : Except Failure (Option Bytes)} :
    .read i k reply ∉ (m.delete key).trace h st := by
  intro hx
  obtain ⟨j, removed, hx⟩ := delete_only h key m st _ hx
  cases hx

end TwoTier.Manager
