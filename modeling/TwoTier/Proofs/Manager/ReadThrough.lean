import TwoTier.Proofs.Manager.Writing

/-!
# Reading through

Everything that `Manager.getOrCompute` can do, whatever the stores answer, in terms of the read that
it begins with and the write that it may end with. `Manager.Through` lists the ways, one rule a way,
each with its trace, its result and the state it leaves, and every run is one of them
(`readThrough`).
-/

namespace TwoTier.Manager

variable {σ α : Type}

section Ways

variable (m : Manager) (h : Handler Tier σ) (s : Shape α) (key : String) (o : Options)

/-- The state when the caller's function has run after a read. -/
def computed (st : σ) : σ :=
  h.compute (h.note (.computing key) ((m.get s key o).run h st).2)

/-- The ways in which a read that computes what is missing can go from a state: the trace, the
result, and the state it leaves. -/
inductive Through (outcome : Except Failure α) (st : σ) :
    List (Exchange Tier) → Result α → σ → Prop
  | failed {e : CacheError} (hr : ((m.get s key o).run h st).1 = .error e) :
    Through outcome st ((m.get s key o).trace h st) (.error e) ((m.get s key o).run h st).2
  | found {a : α} (hr : ((m.get s key o).run h st).1 = .ok (some a)) :
    Through outcome st ((m.get s key o).trace h st) (.ok a) ((m.get s key o).run h st).2
  | notComputed {f : Failure} (hr : ((m.get s key o).run h st).1 = .ok none)
      (ho : outcome = .error f) :
    Through outcome st ((m.get s key o).trace h st) (.error (.compute f)) (computed m h s key o st)
  | stored {a : α} (hr : ((m.get s key o).run h st).1 = .ok none) (ho : outcome = .ok a)
      (hs : ((m.set s key a o).run h (computed m h s key o st)).1 = .ok ()) :
    Through outcome st
      ((m.get s key o).trace h st ++ (m.set s key a o).trace h (computed m h s key o st)) (.ok a)
      ((m.set s key a o).run h (computed m h s key o st)).2
  | notStored {a : α} {e : CacheError} (hr : ((m.get s key o).run h st).1 = .ok none)
      (ho : outcome = .ok a)
      (hs : ((m.set s key a o).run h (computed m h s key o st)).1 = .error e) :
    Through outcome st
      ((m.get s key o).trace h st ++ (m.set s key a o).trace h (computed m h s key o st)) (.ok a)
      (h.note (.notStored key e.message) ((m.set s key a o).run h (computed m h s key o st)).2)

/-- **Every read that computes what is missing goes one of the ways.** -/
theorem readThrough (outcome : Except Failure α) (st : σ) :
    Through m h s key o outcome st ((m.getOrCompute s key o outcome).trace h st)
      ((m.getOrCompute s key o outcome).run h st).1
      ((m.getOrCompute s key o outcome).run h st).2 := by
  simp only [getOrCompute, Script.run_bind, Script.trace_bind]
  cases hr : ((m.get s key o).run h st).1 with
  | error e => simpa using .failed hr
  | ok found =>
    cases found with
    | some a => simpa using .found hr
    | none =>
      -- the caller's function runs, and asks no store
      simp only [Script.run_bind, Script.trace_bind, Script.run_event, Script.trace_event,
        Script.run_computed, Script.trace_computed, List.nil_append]
      cases outcome with
      | error f => simpa using .notComputed hr rfl
      | ok a =>
        simp only [Script.run_bind, Script.trace_bind]
        -- the state that the function leaves is where the write starts
        rw [← computed.eq_def m h s key o st]
        cases hs : ((m.set s key a o).run h (computed m h s key o st)).1 with
        | error e => simpa [Script.run_bind, Script.trace_bind] using .notStored hr rfl hs
        | ok u => simpa using .stored hr rfl hs

end Ways

/-- All that is read is read before the caller's function runs. -/
theorem Through.read {m : Manager} {h : Handler Tier σ} {s : Shape α} {key : String} {o : Options}
    {outcome : Except Failure α} {st st' : σ} {T : List (Exchange Tier)} {r : Result α}
    (hw : Through m h s key o outcome st T r st') {i : Tier} {k : String}
    {reply : Except Failure (Option Bytes)} (hx : .read i k reply ∈ T) :
    .read i k reply ∈ (m.get s key o).trace h st := by
  cases hw with
  | failed | found | notComputed => exact hx
  | stored | notStored =>
    -- what follows the read is a write, and that asks for no payload
    exact (List.mem_append.mp hx).resolve_right
      (writing h m s key _ o m.writeOrder _).reads_nothing

end TwoTier.Manager
