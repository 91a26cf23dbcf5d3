import TwoTier.Proofs.Session

/-!
# Runs over any stores

A **run** is the use of a manager over stores of which nothing is known: one call after the other,
each answered by a handler, and between two calls the stores may be changed by anything else. Where
a session (`TwoTier.Proofs.Session`) follows what becomes of the records of known stores, a run
follows what the manager itself does, whatever it is told.

* `Answered` is a call that was carried out, with what it asked of the stores and what it returned;
* `Manager.answer` carries out one call, `Manager.answers` the calls of a run;
* every call of a run was carried out in some state (`exists_of_mem_answers`), so what holds of a
  call in every state holds of all calls of a run.
-/

namespace TwoTier

/-- A call that was carried out. -/
structure Answered : Type 1 where
  request : Request
  /-- What the call asked of the stores, and what they answered. -/
  trace : List (Exchange Tier)
  /-- What the call returned. -/
  reply : request.Reply

namespace Manager

variable {σ κ : Type}

/-- Carries out a call on the stores of a handler. -/
def answer (m : Manager) (h : Handler Tier σ) (r : Request) (st : σ) : Answered × σ :=
  (⟨r, (r.script m).trace h st, ((r.script m).run h st).1⟩, ((r.script m).run h st).2)

/-- Carries out some calls, one after the other; before each of them the state makes a turn of its
own. -/
def answers (m : Manager) (h : Handler Tier σ) (turn : κ → σ → σ) :
    List (κ × Request) → σ → List Answered × σ
  | [], st => ([], st)
  | (t, r) :: steps, st =>
    -- the turn comes first: a call sees what the stores have become
    let a := m.answer h r (turn t st)
    let rest := m.answers h turn steps a.2
    (a.1 :: rest.1, rest.2)

/-- Every call of a run was carried out in some state. -/
theorem exists_of_mem_answers {m : Manager} {h : Handler Tier σ} {turn : κ → σ → σ}
    {steps : List (κ × Request)} {st : σ} {a : Answered} (ha : a ∈ (m.answers h turn steps st).1) :
    ∃ st', a = (m.answer h a.request st').1 := by
  induction steps generalizing st with
  | nil => cases ha
  | cons x steps ih =>
    obtain ⟨t, r⟩ := x
    -- the first call, in the state after its turn, or one of the run from there on
    rcases List.mem_cons.mp ha with rfl | ha
    · exact ⟨turn t st, rfl⟩
    · exact ih ha

/-- The calls of a run are those that were asked for. -/
theorem exists_mem_of_mem_answers {m : Manager} {h : Handler Tier σ} {turn : κ → σ → σ}
    {steps : List (κ × Request)} {st : σ} {a : Answered}
    (ha : a ∈ (m.answers h turn steps st).1) : ∃ t, (t, a.request) ∈ steps := by
  induction steps generalizing st with
  | nil => cases ha
  | cons x steps ih =>
    obtain ⟨t, r⟩ := x
    rcases List.mem_cons.mp ha with rfl | ha
    · exact ⟨t, List.mem_cons_self⟩
    · obtain ⟨t', ht'⟩ := ih ha
      exact ⟨t', List.mem_cons_of_mem _ ht'⟩

end Manager

/-! ### Errors of calls -/

/-- The error that a call ends with, if it does. -/
def Manager.Result.error? {α : Type} : Manager.Result α → Option CacheError
  | .error e => some e
  | .ok _ => none

theorem Manager.Result.error?_eq_some_iff {α : Type} {r : Manager.Result α} {e : CacheError} :
    Manager.Result.error? r = some e ↔ r = .error e := by
  cases r with
  | error e' => rw [error?, Option.some.injEq, Except.error.injEq]
  | ok a => exact ⟨fun h => (by cases h), fun h => (by cases h)⟩

/-- The error that a call of any kind ends with, if it does. -/
def Request.error? : (r : Request) → r.Reply → Option CacheError
  | .get .., x => Manager.Result.error? x
  | .set .., x => Manager.Result.error? x
  | .getOrCompute .., x => Manager.Result.error? x
  | .delete _, x => Manager.Result.error? x

/-- The error that a call ended with, if it did. -/
def Answered.error? (a : Answered) : Option CacheError := a.request.error? a.reply

end TwoTier
