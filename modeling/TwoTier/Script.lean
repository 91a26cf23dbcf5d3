import TwoTier.Bytes
import TwoTier.Duration
import TwoTier.Event
import TwoTier.Failure

/-!
# Scripts of store commands

What a cache does is written as a **script**: a tree of commands to stores, whose continuation
depends on the reply. A script says nothing about how stores behave, so a fact about all its runs
holds for every behaviour of the stores, failures included.

* `Command` is what a store is asked, `Command.Reply` what it answers; `Script.ask` and
  `Script.check` are the nodes that wait for a store, `Script.note` reports an event, and
  `Script.compute` is where the caller's own function runs, and others may run meanwhile.
* `Handler` answers the nodes from a state, and `Script.run` runs a script with a handler
  (`run_bind`).
* `Script.untilCompute` runs a script up to its next `compute` node.
-/

namespace TwoTier

/-! ### Commands -/

/-- What a store is asked. -/
inductive Command where
  | get (key : String)
  | set (key : String) (payload : Bytes) (ttl : Duration)
  | remove (key : String)
deriving DecidableEq

/-- What a store answers. -/
def Command.Reply : Command → Type
  | .get _ => Except Failure (Option Bytes)
  | .set .. => Except Failure Unit
  | .remove _ => Except Failure Unit

/-- The key that a command is about. -/
def Command.key : Command → String
  | .get k => k
  | .set k _ _ => k
  | .remove k => k

/-! ### Scripts -/

/-- A tree of commands to the stores `ι`, with results `α`. -/
inductive Script (ι α : Type) where
  | done (a : α)
  /-- Gives a store a command. -/
  | ask (i : ι) (c : Command) (k : c.Reply → Script ι α)
  /-- Asks a store whether it is healthy. -/
  | check (i : ι) (k : Bool → Script ι α)
  /-- Reports an event. -/
  | note (e : Event) (k : Script ι α)
  /-- Runs the caller's function. -/
  | compute (k : Script ι α)

namespace Script

variable {ι σ α β γ : Type}

/-- First `s`, then `f` of its result. -/
protected def bind (s : Script ι α) (f : α → Script ι β) : Script ι β :=
  match s with
  | .done a => f a
  | .ask i c k => .ask i c fun r => (k r).bind f
  | .check i k => .check i fun b => (k b).bind f
  | .note e k => .note e (k.bind f)
  | .compute k => .compute (k.bind f)

instance : Monad (Script ι) where
  pure := .done
  bind := Script.bind

/-- Gives a store a command, for its reply. -/
def command (i : ι) (c : Command) : Script ι c.Reply := .ask i c .done

/-- Asks a store whether it is healthy. -/
def healthy (i : ι) : Script ι Bool := .check i .done

/-- Reports an event. -/
def event (e : Event) : Script ι Unit := .note e (.done ())

/-- Runs the caller's function. -/
def computed : Script ι Unit := .compute (.done ())

/-! ### Running a script -/

end Script

/-- Answers the nodes of scripts from a state. -/
structure Handler (ι σ : Type) where
  serve : ι → (c : Command) → σ → c.Reply × σ
  healthy : ι → σ → Bool × σ
  note : Event → σ → σ
  compute : σ → σ

namespace Script

variable {ι σ α β γ : Type}

/-- Runs a script to its end. -/
def run (h : Handler ι σ) : Script ι α → σ → α × σ
  | .done a, st => (a, st)
  | .ask i c k, st => (k (h.serve i c st).1).run h (h.serve i c st).2
  | .check i k, st => (k (h.healthy i st).1).run h (h.healthy i st).2
  | .note e k, st => k.run h (h.note e st)
  | .compute k, st => k.run h (h.compute st)

/-- Runs a script up to its next `compute` node; what is left starts with that node, or is done. -/
def untilCompute (h : Handler ι σ) : Script ι α → σ → Script ι α × σ
  | .done a, st => (.done a, st)
  | .ask i c k, st => (k (h.serve i c st).1).untilCompute h (h.serve i c st).2
  | .check i k, st => (k (h.healthy i st).1).untilCompute h (h.healthy i st).2
  | .note e k, st => k.untilCompute h (h.note e st)
  -- the node stays: its function has not run yet
  | .compute k, st => (.compute k, st)

/-- Runs two scripts on one thread: each up to its own function, which gives way to the other, and
then each to its end. -/
def runBoth (h : Handler ι σ) (s : Script ι α) (t : Script ι β) (st : σ) : (α × β) × σ :=
  let (s, st) := s.untilCompute h st
  -- the first waits in its function while the second starts
  let (t, st) := t.untilCompute h st
  let (a, st) := s.run h st
  let (b, st) := t.run h st
  ((a, b), st)

@[simp] theorem run_pure (h : Handler ι σ) (a : α) (st : σ) :
    (pure a : Script ι α).run h st = (a, st) := rfl

@[simp] theorem run_command (h : Handler ι σ) (i : ι) (c : Command) (st : σ) :
    (command i c).run h st = h.serve i c st := rfl

@[simp] theorem run_event (h : Handler ι σ) (e : Event) (st : σ) :
    (event e : Script ι Unit).run h st = ((), h.note e st) := rfl

theorem run_bind (h : Handler ι σ) (s : Script ι α) (f : α → Script ι β) (st : σ) :
    (s >>= f).run h st = (f (s.run h st).1).run h (s.run h st).2 := by
  change (s.bind f).run h st = _
  -- one case for each node: what is bound goes on after its replies
  induction s generalizing st with
  | done a => rfl
  | ask i c k ih => exact ih _ _
  | check i k ih => exact ih _ _
  | note e k ih => exact ih _
  | compute k ih => exact ih _

theorem run_map (h : Handler ι σ) (f : α → β) (s : Script ι α) (st : σ) :
    (f <$> s).run h st = (f (s.run h st).1, (s.run h st).2) :=
  run_bind h s (fun a => pure (f a)) st

end Script

end TwoTier
