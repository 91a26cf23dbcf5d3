import TwoTier.Script

/-!
# Traces of scripts

The **trace** of a run is the list of its exchanges with the stores: what was asked of which store,
and what the store answered, the first first. A fact about the traces of a script under every
handler is a fact about the script's footprint that no behaviour of the stores can break.

* `Exchange` is one question with its answer, `Exchange.of` that of a command;
* `Script.trace` is the trace of a run, described by `trace_bind` and the equations of the single
  nodes, as `Script.run` is;
* `Handler.Apart` says of a handler that its stores are apart: each has a part of the state that is
  its own, answers from it alone, and leaves those of the others as they are.
-/

namespace TwoTier

section Replies

variable {ε ε' β : Type} {f : ε → ε'}

/-- Renaming the error of a reply leaves a good reply as it is. -/
theorem mapError_ok (b : β) : (Except.ok b : Except ε β).mapError f = .ok b := rfl

/-- A reply whose error was renamed is good exactly when the reply was: no renaming hides a failure
or makes one up. -/
theorem mapError_eq_ok_iff {r : Except ε β} {b : β} : r.mapError f = .ok b ↔ r = .ok b := by
  cases r with
  | ok b' => rw [mapError_ok, Except.ok.injEq, Except.ok.injEq]
  -- a failure stays one under any renaming, so neither side can hold
  | error e => exact ⟨fun h => (by cases h), fun h => (by cases h)⟩

end Replies

/-- One question to a store, with its answer. -/
inductive Exchange (ι : Type) where
  | read (i : ι) (key : String) (reply : Except Failure (Option Bytes))
  | write (i : ι) (key : String) (payload : Bytes) (ttl : Duration) (reply : Except Failure Unit)
  | removal (i : ι) (key : String) (reply : Except Failure Unit)
  | health (i : ι) (healthy : Bool)

namespace Exchange

variable {ι : Type}

/-- The exchange of a command. -/
def of (i : ι) : (c : Command) → c.Reply → Exchange ι
  | .get key, r => .read i key r
  | .set key payload ttl, r => .write i key payload ttl r
  | .remove key, r => .removal i key r

/-- The store that was asked. -/
def store : Exchange ι → ι
  | .read i .. => i
  | .write i .. => i
  | .removal i .. => i
  | .health i _ => i

/-- Whether the store was asked for a payload. -/
def isRead : Exchange ι → Bool
  | .read .. => true
  | _ => false

/-- Whether the store was asked to keep a payload. -/
def isWrite : Exchange ι → Bool
  | .write .. => true
  | _ => false

end Exchange

namespace Script

variable {ι σ α β : Type}

/-- What a run asks of the stores, and what they answer. -/
def trace (h : Handler ι σ) : Script ι α → σ → List (Exchange ι)
  | .done _, _ => []
  | .ask i c k, st =>
    .of i c (h.serve i c st).1 :: (k (h.serve i c st).1).trace h (h.serve i c st).2
  -- the answer of a probe counts as one exchange, whatever the store does to find it
  | .check i k, st =>
    .health i (h.healthy i st).1 :: (k (h.healthy i st).1).trace h (h.healthy i st).2
  -- neither of these reaches a store
  | .note e k, st => k.trace h (h.note e st)
  | .compute k, st => k.trace h (h.compute st)

/-- A script that only returns asks for nothing. -/
@[simp] theorem trace_pure (h : Handler ι σ) (a : α) (st : σ) :
    (pure a : Script ι α).trace h st = [] := rfl

/-- A single command is a trace of one exchange, which carries the answer that the store gave. -/
@[simp] theorem trace_command (h : Handler ι σ) (i : ι) (c : Command) (st : σ) :
    (command i c).trace h st = [.of i c (h.serve i c st).1] := rfl

/-- The report of an event is no exchange: it goes to the observers, not to a store. -/
@[simp] theorem trace_event (h : Handler ι σ) (e : Event) (st : σ) :
    (event e : Script ι Unit).trace h st = [] := rfl

/-- A call of the caller's function is no exchange with a store. -/
@[simp] theorem trace_computed (h : Handler ι σ) (st : σ) :
    (computed : Script ι Unit).trace h st = [] := rfl

/-- A call of the caller's function gives the script nothing but the new state. -/
@[simp] theorem run_computed (h : Handler ι σ) (st : σ) :
    (computed : Script ι Unit).run h st = ((), h.compute st) := rfl

/-- Asking a store for its health is an exchange. -/
@[simp] theorem trace_healthy (h : Handler ι σ) (i : ι) (st : σ) :
    (healthy i : Script ι Bool).trace h st = [.health i (h.healthy i st).1] := rfl

/-- What the script learns of a store's health is what the handler says of it. -/
@[simp] theorem run_healthy (h : Handler ι σ) (i : ι) (st : σ) :
    (healthy i : Script ι Bool).run h st = h.healthy i st := rfl

/-- **Traces of scripts in sequence** are put together, the second from the state in which the first
ends. -/
theorem trace_bind (h : Handler ι σ) (s : Script ι α) (f : α → Script ι β) (st : σ) :
    (s >>= f).trace h st = s.trace h st ++ (f (s.run h st).1).trace h (s.run h st).2 := by
  -- along the first script; the state changes with each of its nodes, so it is general
  change (s.bind f).trace h st = _
  induction s generalizing st with
  | done a => rfl
  | ask i c k ih => exact congrArg (List.cons _) (ih _ _)
  | check i k ih => exact congrArg (List.cons _) (ih _ _)
  | note e k ih => exact ih _
  | compute k ih => exact ih _

/-- What becomes of the result of a script makes no difference to its trace. -/
theorem trace_map (h : Handler ι σ) (f : α → β) (s : Script ι α) (st : σ) :
    (f <$> s).trace h st = s.trace h st := by
  -- a map is a sequence whose second script only returns
  rw [show f <$> s = s >>= fun a => pure (f a) from rfl, trace_bind, trace_pure, List.append_nil]

end Script

/-- **The stores of a handler are apart**: `view i` is the part of the state that belongs to the
store `i`. It decides what the store answers and becomes, and a command to another store or the
report of an event leaves it as it is. -/
structure Handler.Apart {ι σ : Type} {ρ : ι → Type} (h : Handler ι σ)
    (view : (i : ι) → σ → ρ i) : Prop where
  reply : ∀ i c st st', view i st = view i st' → (h.serve i c st).1 = (h.serve i c st').1
  self : ∀ i c st st', view i st = view i st' →
    view i (h.serve i c st).2 = view i (h.serve i c st').2
  other : ∀ i i' c st, i' ≠ i → view i' (h.serve i c st).2 = view i' st
  note : ∀ i e st, view i (h.note e st) = view i st

end TwoTier
