import TwoTier.Proofs.Script.Trace

/-!
# The caller's function in a script

`Script.computations` counts how often a run comes to the caller's function. The count goes along a
script as its trace does (`computations_bind`).

`Script.Computeless` says of a script that it has no place for the caller's function, whatever the
stores answer. This is kept by every way of putting such scripts together, and no run of one comes
to a function (`Computeless.computations_eq_zero`).
-/

namespace TwoTier.Script

variable {ι σ α β : Type}

/-- How often a run comes to the caller's function. -/
def computations (h : Handler ι σ) : Script ι α → σ → Nat
  | .done _, _ => 0
  | .ask i c k, st => (k (h.serve i c st).1).computations h (h.serve i c st).2
  | .check i k, st => (k (h.healthy i st).1).computations h (h.healthy i st).2
  | .note e k, st => k.computations h (h.note e st)
  | .compute k, st => k.computations h (h.compute st) + 1

/-- A script that only returns has nothing to compute, … -/
@[simp] theorem computations_pure (h : Handler ι σ) (a : α) (st : σ) :
    (pure a : Script ι α).computations h st = 0 := rfl

/-- … nor has a report; … -/
@[simp] theorem computations_event (h : Handler ι σ) (e : Event) (st : σ) :
    (event e : Script ι Unit).computations h st = 0 := rfl

/-- … a call of the caller's function counts as one. -/
@[simp] theorem computations_computed (h : Handler ι σ) (st : σ) :
    (computed : Script ι Unit).computations h st = 1 := rfl

/-- **The count of scripts in sequence** is the sum of theirs, the second from the state in which
the first ends. -/
theorem computations_bind (h : Handler ι σ) (s : Script ι α) (f : α → Script ι β) (st : σ) :
    (s >>= f).computations h st =
      s.computations h st + (f (s.run h st).1).computations h (s.run h st).2 := by
  -- along the first script, as for its trace; only a place for the function adds to the count
  change (s.bind f).computations h st = _
  induction s generalizing st with
  | done a => exact (Nat.zero_add _).symm
  | ask i c k ih => exact ih _ _
  | check i k ih => exact ih _ _
  | note e k ih => exact ih _
  | compute k ih =>
    simp only [Script.bind, computations, run, ih]
    omega

/-- The script has no place for the caller's function. -/
inductive Computeless : Script ι α → Prop
  | done (a : α) : Computeless (.done a)
  | ask {i : ι} {c : Command} {k : c.Reply → Script ι α} (hk : ∀ r, Computeless (k r)) :
    Computeless (.ask i c k)
  | check {i : ι} {k : Bool → Script ι α} (hk : ∀ b, Computeless (k b)) : Computeless (.check i k)
  | note (e : Event) {k : Script ι α} (hk : Computeless k) : Computeless (.note e k)

namespace Computeless

theorem pure (a : α) : Computeless (Pure.pure a : Script ι α) := .done a

/-- Scripts in sequence have no place for the function if neither has, the second whatever the first
returns. -/
theorem bind {s : Script ι α} {f : α → Script ι β} (hs : Computeless s)
    (hf : ∀ a, Computeless (f a)) : Computeless (s >>= f) := by
  -- along the first script, up to its end, where the second begins
  change Computeless (s.bind f)
  induction hs with
  | done a => exact hf a
  | ask _ ih => exact .ask ih
  | check _ ih => exact .check ih
  | note e _ ih => exact .note e ih

theorem command (i : ι) (c : Command) : Computeless (Script.command i c) := .ask .done

theorem event (e : Event) : Computeless (Script.event e : Script ι Unit) := .note e (.done ())

/-- No run of such a script comes to the caller's function. -/
theorem computations_eq_zero {s : Script ι α} (hs : Computeless s) (h : Handler ι σ) (st : σ) :
    s.computations h st = 0 := by
  induction hs generalizing st with
  | done a => rfl
  | ask _ ih => exact ih _ _
  | check _ ih => exact ih _ _
  | note e _ ih => exact ih _

end Computeless

end TwoTier.Script
