import TwoTier.Bytes

/-!
# Readers

A **reader** takes a value off the front of a byte string and hands back the bytes that it left. The
bytes left are always a suffix of the input, and every reader carries that proof: nothing is
invented, nothing is skipped out of order, and a loop over a reader can be seen to end.

* `Reader` is a monad: `p >>= f` reads with `p`, then with `f` from where `p` stopped, and the first
  fault ends the reading (`run_bind`).
* `Reader.byte`, `Reader.take`, `Reader.peek`, `Reader.span` are the primitive readers.
* `Reader.times n p` reads `n` values; `Reader.loop` repeats a step that consumes input until the
  step says that it is done (`run_loop`).
-/

namespace TwoTier

/-- A reader of `α` whose faults are of type `ε`. -/
structure Reader (ε α : Type) where
  /-- The value at the front of the input and the bytes after it, or the first fault. -/
  run : Bytes → Except ε (α × Bytes)
  /-- What is left is a suffix of the input. -/
  suffix : ∀ {s a r}, run s = .ok (a, r) → r <:+ s

namespace Reader

variable {ε α β σ : Type}

/-- A reader never leaves more than there was. -/
theorem length_le {p : Reader ε α} {s r : Bytes} {a : α} (h : p.run s = .ok (a, r)) :
    r.length ≤ s.length :=
  (p.suffix h).length_le

/-! ### The monad -/

/-- Reads nothing. -/
protected def pure (a : α) : Reader ε α where
  run s := .ok (a, s)
  suffix h := by cases h; exact List.suffix_refl _

/-- Reads with `p`, then with `f` from where `p` stopped. -/
protected def bind (p : Reader ε α) (f : α → Reader ε β) : Reader ε β where
  run s :=
    match p.run s with
    | .ok (a, r) => (f a).run r
    | .error e => .error e
  suffix {s b r} h := by
    split at h
    · next a t ht => exact ((f a).suffix h).trans (p.suffix ht)
    · cases h

instance : Monad (Reader ε) where
  pure := Reader.pure
  bind := Reader.bind

/-- Stops with a fault. -/
def fail (e : ε) : Reader ε α where
  run _ := .error e
  suffix h := by cases h

@[simp] theorem run_pure (a : α) (s : Bytes) : (pure a : Reader ε α).run s = .ok (a, s) := rfl

@[simp] theorem run_fail (e : ε) (s : Bytes) : (fail e : Reader ε α).run s = .error e := rfl

/-- Two readers in sequence: the second goes on where the first stopped, or the fault of the first
stands. -/
theorem run_bind (p : Reader ε α) (f : α → Reader ε β) (s : Bytes) :
    (p >>= f).run s = match p.run s with
      | .ok (a, r) => (f a).run r
      | .error e => .error e := rfl

/-- Where the first comes through, what the two do is what the second does with the rest. -/
theorem run_bind_ok {p : Reader ε α} {f : α → Reader ε β} {s r : Bytes} {a : α}
    (h : p.run s = .ok (a, r)) : (p >>= f).run s = (f a).run r := by
  rw [run_bind, h]

/-- Where the first finds a fault, that is the fault of both. -/
theorem run_bind_error {p : Reader ε α} {f : α → Reader ε β} {s : Bytes} {e : ε}
    (h : p.run s = .error e) : (p >>= f).run s = .error e := by
  rw [run_bind, h]

/-- Keeps a value, or stops with the fault. -/
def ofExcept : Except ε α → Reader ε α
  | .ok a => pure a
  | .error e => fail e

/-- Keeps a value that is there, or stops with the fault `e`. -/
def ofOption (e : ε) : Option α → Reader ε α
  | some a => pure a
  | none => fail e

/-- What is made of a value changes neither what is left nor a fault. -/
@[simp] theorem run_map (f : α → β) (p : Reader ε α) (s : Bytes) :
    (f <$> p).run s = match p.run s with
      | .ok (a, r) => .ok (f a, r)
      | .error e => .error e := rfl

/-! ### Primitive readers -/

/-- The first byte, which stays where it is; `none` at the end of the input. -/
def peek : Reader ε (Option UInt8) where
  run s := .ok (s.head?, s)
  suffix h := by cases h; exact List.suffix_refl _

/-- Takes one byte; `e` is the fault at the end of the input. -/
def byte (e : ε) : Reader ε UInt8 where
  run
    | [] => .error e
    | b :: r => .ok (b, r)
  suffix {s a r} h := by
    cases s with
    | nil => cases h
    | cons b r => cases h; exact List.suffix_cons _ _

/-- Takes `n` bytes; `e` is the fault if fewer are left. -/
def take (e : ε) (n : Nat) : Reader ε Bytes where
  run s := if n ≤ s.length then .ok (s.take n, s.drop n) else .error e
  suffix {s a r} h := by
    split at h
    · cases h; exact List.drop_suffix _ _
    · cases h

/-- Takes the longest run of bytes that `accept` accepts, which may be empty. -/
def span (accept : UInt8 → Bool) : Reader ε Bytes where
  run s := .ok (s.takeWhile accept, s.dropWhile accept)
  suffix h := by cases h; exact List.dropWhile_suffix _

@[simp] theorem run_peek (s : Bytes) : (peek : Reader ε _).run s = .ok (s.head?, s) := rfl

@[simp] theorem run_byte_nil (e : ε) : (byte e).run [] = .error e := rfl

@[simp] theorem run_byte_cons (e : ε) (b : UInt8) (s : Bytes) :
    (byte e).run (b :: s) = .ok (b, s) := rfl

theorem run_take_append (e : ε) {n : Nat} {a : Bytes} (h : a.length = n) (s : Bytes) :
    (take e n).run (a ++ s) = .ok (a, s) := by
  simp [take, ← h]

@[simp] theorem run_span (accept : UInt8 → Bool) (s : Bytes) :
    (span accept : Reader ε _).run s = .ok (s.takeWhile accept, s.dropWhile accept) := rfl

/-! ### Consuming readers -/

/-- A reader **consumes** when a value never comes without at least one byte. -/
def Consumes (p : Reader ε α) : Prop :=
  ∀ s a r, p.run s = .ok (a, r) → r.length < s.length

/-- A byte is consumed. -/
theorem consumes_byte (e : ε) : (byte e).Consumes := by
  intro s a r h
  cases s with
  | nil => cases h
  | cons b r => cases h; simp

theorem consumes_fail (e : ε) : (fail e : Reader ε α).Consumes := by
  intro s a r h
  cases h

/-- Readers in sequence consume if the first does, -/
theorem Consumes.bind {p : Reader ε α} (hp : p.Consumes) (f : α → Reader ε β) :
    (p >>= f).Consumes := by
  intro s b r h
  rw [run_bind] at h
  split at h
  · next a t ht => exact Nat.lt_of_le_of_lt ((f a).length_le h) (hp _ _ _ ht)
  · cases h

/-- or if the second does, whatever the first brings. -/
theorem Consumes.bind_right (p : Reader ε α) {f : α → Reader ε β} (hf : ∀ a, (f a).Consumes) :
    (p >>= f).Consumes := by
  intro s b r h
  rw [run_bind] at h
  split at h
  · next a t ht => exact Nat.lt_of_lt_of_le (hf a _ _ _ h) (p.length_le ht)
  · cases h

/-! ### Repetition -/

/-- Reads `n` values. -/
def times (p : Reader ε α) : Nat → Reader ε (List α)
  | 0 => pure []
  | n + 1 => do
    let a ← p
    let as ← p.times n
    pure (a :: as)

@[simp] theorem times_zero (p : Reader ε α) : p.times 0 = pure [] := rfl

/-- One value more is read first. -/
theorem times_succ (p : Reader ε α) (n : Nat) :
    p.times (n + 1) = (do
      let a ← p
      let as ← p.times n
      pure (a :: as)) := rfl

/-- What a step of a loop says: go on with a new state, or stop with a value. -/
inductive Turn (σ α : Type) where
  | next (state : σ)
  | done (value : α)

/-- A step **moves** when it never asks to go on without having consumed a byte. -/
def Moves (p : Reader ε (Turn σ α)) : Prop :=
  ∀ s st r, p.run s = .ok (.next st, r) → r.length < s.length

theorem Consumes.moves {p : Reader ε (Turn σ α)} (h : p.Consumes) : p.Moves :=
  fun _ _ _ hr => h _ _ _ hr

theorem moves_done (a : α) : (pure (.done a) : Reader ε (Turn σ α)).Moves := by
  intro s st r h
  cases h

theorem moves_fail (e : ε) : (fail e : Reader ε (Turn σ α)).Moves := (consumes_fail e).moves

/-- A step moves if what it ends with does, whatever it looked at before. -/
theorem Moves.bind_right (p : Reader ε β) {f : β → Reader ε (Turn σ α)} (hf : ∀ b, (f b).Moves) :
    (p >>= f).Moves := by
  intro s st r h
  rw [run_bind] at h
  split at h
  · next b t ht => exact Nat.lt_of_lt_of_le (hf b _ _ _ h) (p.length_le ht)
  · cases h

/-- One loop over the input: `step` until it is done. -/
def runLoop (step : σ → Reader ε (Turn σ α)) (h : ∀ st, (step st).Moves) (st : σ) (s : Bytes) :
    Except ε (α × Bytes) :=
  match _hs : (step st).run s with
  | .error e => .error e
  | .ok (.done a, r) => .ok (a, r)
  | .ok (.next st', r) => runLoop step h st' r
termination_by s.length
decreasing_by exact h _ _ _ _ _hs

/-- What a loop leaves is a suffix of its input, as each step leaves one. -/
theorem runLoop_suffix {step : σ → Reader ε (Turn σ α)} {h : ∀ st, (step st).Moves} {st : σ}
    {s r : Bytes} {a : α} (hr : runLoop step h st s = .ok (a, r)) : r <:+ s := by
  -- along the steps that the loop takes
  fun_induction runLoop step h st s with
  | case1 => cases hr
  | case2 st s b t hs => cases hr; exact (step st).suffix hs
  | case3 st s st' t hs ih => exact (ih hr).trans ((step st).suffix hs)

/-- Repeats `step`, each time in the state that the step before left, until it is done. -/
def loop (step : σ → Reader ε (Turn σ α)) (h : ∀ st, (step st).Moves) (st : σ) : Reader ε α where
  run := runLoop step h st
  suffix := runLoop_suffix

/-- A loop is its first step and the loop from there. -/
theorem run_loop (step : σ → Reader ε (Turn σ α)) (h : ∀ st, (step st).Moves) (st : σ) (s : Bytes) :
    (loop step h st).run s = match (step st).run s with
      | .error e => .error e
      | .ok (.done a, r) => .ok (a, r)
      | .ok (.next st', r) => (loop step h st').run r := by
  change runLoop step h st s = _
  unfold runLoop
  -- one unfolding of the recursion, and then each outcome of the step
  split <;> simp_all [loop]

end Reader

end TwoTier
