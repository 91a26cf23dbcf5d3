import Mathlib.Logic.Function.Basic
import TwoTier.Proofs.Script.Trace

/-!
# Interleaved scripts

Some parties share stores, and each of them runs a script of its own. A **pool** is how far they
have come: what is left of each script, the state of the stores, and what was asked of these so far
by whom. In one **turn** a party takes the next step of its script, or somebody who is no party
gives a store a command. So the runs of a pool, over all lists of turns, are all interleavings of
the scripts, also with the commands of others.

* `Script.step` is one step of a script, and `Script.asked?` what it asks of a store, if anything;
  `run_step` says that the steps make up `Script.run`;
* `Pool.turn` is one turn of a pool, `Pool.run` a list of them (`Pool.run_concat`);
* a party that has all turns to itself runs its script as `Script.run` does (`Pool.run_replicate`).
-/

namespace TwoTier

/-- Whether an exchange is a write of a key. -/
def Exchange.writes {ι : Type} (key : String) : Exchange ι → Bool
  | .write _ k .. => k == key
  | _ => false

/-! ### Steps -/

namespace Script

variable {ι σ α : Type}

/-- Takes one step of a script; what is done stays so. -/
def step (h : Handler ι σ) : Script ι α → σ → Script ι α × σ
  | .done a, st => (.done a, st)
  | .ask i c k, st => (k (h.serve i c st).1, (h.serve i c st).2)
  | .check i k, st => (k (h.healthy i st).1, (h.healthy i st).2)
  | .note e k, st => (k, h.note e st)
  | .compute k, st => (k, h.compute st)

/-- What a step asks of a store, with the answer, if it asks at all. -/
def asked? (h : Handler ι σ) : Script ι α → σ → Option (Exchange ι)
  | .ask i c _, st => some (.of i c (h.serve i c st).1)
  | .check i _, st => some (.health i (h.healthy i st).1)
  | _, _ => none

/-- A step is the beginning of a run, so the rest of the run goes on from it. -/
theorem run_step (h : Handler ι σ) (s : Script ι α) (st : σ) :
    (s.step h st).1.run h (s.step h st).2 = s.run h st := by
  cases s <;> rfl

end Script

/-! ### Pools -/

/-- How far the parties `ν` have come, each with a script of its own. -/
structure Pool (ν ι α σ : Type) where
  /-- What is left of the script of each party. -/
  scripts : ν → Script ι α
  /-- The state of the stores. -/
  state : σ
  /-- What was asked of the stores, and by which party if by any, the newest first. -/
  past : List (Option ν × Exchange ι) := []

/-- Who is next. -/
inductive Pool.Turn (ν ι : Type) where
  /-- A party takes a step. -/
  | step (p : ν)
  /-- Somebody else gives a store a command. -/
  | other (i : ι) (c : Command)
deriving DecidableEq

namespace Pool

variable {ν ι α σ : Type} [DecidableEq ν]

/-- One turn. -/
def turn (h : Handler ι σ) (q : Pool ν ι α σ) : Turn ν ι → Pool ν ι α σ
  | .step p =>
    let next := (q.scripts p).step h q.state
    { scripts := Function.update q.scripts p next.1
      state := next.2
      -- a step that asks no store leaves nothing in the past
      past := (((q.scripts p).asked? h q.state).map (some p, ·)).toList ++ q.past }
  | .other i c =>
    let answered := h.serve i c q.state
    -- somebody else has no script here, so none goes on
    { q with
      state := answered.2
      past := (none, .of i c answered.1) :: q.past }

/-- Some turns, the first first. -/
def run (h : Handler ι σ) (turns : List (Turn ν ι)) (q : Pool ν ι α σ) : Pool ν ι α σ :=
  turns.foldl (turn h) q

variable (h : Handler ι σ) (q : Pool ν ι α σ)

/-- A last turn is taken by the pool that the others leave. -/
theorem run_concat (turns : List (Turn ν ι)) (t : Turn ν ι) :
    run h (turns ++ [t]) q = (run h turns q).turn h t := by
  rw [run, List.foldl_append, run, List.foldl_cons, List.foldl_nil]

/-- The pool after a party has asked a store for something: what was asked, what is left of the
script, and what the stores are then. -/
def advance (p : ν) (x : Exchange ι) (s : Script ι α) (st : σ) : Pool ν ι α σ where
  scripts := Function.update q.scripts p s
  state := st
  past := (some p, x) :: q.past

section Advance

variable (p : ν) (x : Exchange ι) (s : Script ι α) (st : σ)

@[simp] theorem advance_scripts_self : (q.advance p x s st).scripts p = s :=
  Function.update_self ..

theorem advance_scripts_of_ne {p' : ν} (hp : p' ≠ p) :
    (q.advance p x s st).scripts p' = q.scripts p' :=
  Function.update_of_ne hp ..

@[simp] theorem advance_past : (q.advance p x s st).past = (some p, x) :: q.past := rfl

end Advance

variable {h q}

/-- The turn of a party that asks a store for something. -/
theorem turn_ask {p : ν} {i : ι} {c : Command} {k : c.Reply → Script ι α}
    (hs : q.scripts p = .ask i c k) :
    q.turn h (.step p) =
      q.advance p (.of i c (h.serve i c q.state).1) (k (h.serve i c q.state).1)
        (h.serve i c q.state).2 := by
  simp only [turn, hs]
  rfl

/-- The turn of a party that is done changes nothing. -/
theorem turn_done {p : ν} {a : α} (hs : q.scripts p = .done a) : q.turn h (.step p) = q := by
  -- the script that is written back is the one that was there
  have hsame : Function.update q.scripts p (.done a) = q.scripts := by
    rw [← hs, Function.update_eq_self]
  simp only [turn, hs, Script.step, hsame]
  rfl

variable (h q)

/-- **A party that is alone** with the stores runs its script as if there were no pool. -/
theorem run_replicate (p : ν) (n : Nat) :
    ((run h (.replicate n (.step p)) q).scripts p).run h (run h (.replicate n (.step p)) q).state =
      (q.scripts p).run h q.state := by
  -- each of its turns is a step, and a step leaves the run of the rest as it is
  induction n generalizing q with
  | zero => rfl
  | succ n ih =>
    -- the first turn is taken by the pool as it is, the others by the one that it leaves
    rw [List.replicate_succ, run, List.foldl_cons, ← run, ih]
    simp only [turn, Function.update_self]
    exact Script.run_step ..

end Pool

end TwoTier
