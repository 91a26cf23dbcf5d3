import TwoTier.Deployment
import TwoTier.Proofs.Manager.ReadThrough

/-!
# Sessions

A **session** is the use of a deployment through one manager: one call after the other, with the
clock set at will in between. It keeps a **history** of what the calls have stored and deleted, the
latest first, by which later states of the stores can be judged.

* `Request` is a call with its arguments, and `Request.script` what it does;
* `Write` is a value that a call has stored, with the reading at which it did, `Mark` an entry of
  the history, and `Request.marks` what a call adds to it;
* `since` is what was stored under a key since it was last deleted, the latest first, and `latest?`
  the latest of these (`latest?_eq_some_iff`);
* `Session.run` takes the steps of a session one by one.
-/

namespace TwoTier

/-- A value, with the shape of its type. -/
structure Typed : Type 1 where
  {α : Type}
  shape : Shape α
  value : α

/-- What a codec makes of the value, if anything, it reads back as that value. -/
def Typed.RoundTrips (c : Codec) (v : Typed) : Prop :=
  ∀ p, c.serialize v.shape v.value = .ok p → c.deserialize v.shape p = .ok v.value

/-! ### Requests -/

/-- A call on a manager. -/
inductive Request : Type 1 where
  | get {α : Type} (s : Shape α) (key : String) (o : Options)
  | set {α : Type} (s : Shape α) (key : String) (a : α) (o : Options)
  /-- The `outcome` is that of the caller's function, if it is run. -/
  | getOrCompute {α : Type} (s : Shape α) (key : String) (o : Options) (outcome : Except Failure α)
  | delete (key : String)

namespace Request

/-- What a call returns. -/
def Reply : Request → Type
  | @get α _ _ _ => Manager.Result (Option α)
  | .set .. => Manager.Result Unit
  | @getOrCompute α _ _ _ _ => Manager.Result α
  | .delete _ => Manager.Result Unit

/-- What a call does. -/
def script (m : Manager) : (r : Request) → Script Tier r.Reply
  | .get s key o => m.get s key o
  | .set s key a o => m.set s key a o
  | .getOrCompute s key o outcome => m.getOrCompute s key o outcome
  | .delete key => m.delete key

/-- The key that a call is about. -/
def key : Request → String
  | .get _ key _ => key
  | .set _ key _ _ => key
  | .getOrCompute _ key _ _ => key
  | .delete key => key

/-- The options of a call; a removal has none. -/
def options : Request → Options
  | .get _ _ o => o
  | .set _ _ _ o => o
  | .getOrCompute _ _ o _ => o
  | .delete _ => {}

/-- The value that a call may store. -/
def value? : Request → Option Typed
  | .get .. => none
  | .set s _ a _ => some ⟨s, a⟩
  | .getOrCompute s _ _ (.ok a) => some ⟨s, a⟩
  | .getOrCompute _ _ _ (.error _) => none
  | .delete _ => none

/-- The exchanges of a call with the stores of a deployment. -/
def trace (m : Manager) (d : Deployment) (r : Request) : List (Exchange Tier) :=
  (r.script m).trace (Deployment.handler m) d

/-- A deployment after a call. -/
def after (m : Manager) (d : Deployment) (r : Request) : Deployment := (d.run m (r.script m)).2

end Request

/-! ### Histories -/

/-- A value that a call has stored. -/
structure Write : Type 1 where
  key : String
  value : Typed
  options : Options
  /-- The reading at which it was stored. -/
  now : Nat

/-- An entry of a history. -/
inductive Mark : Type 1 where
  | stored (w : Write)
  | deleted (key : String)

/-- The key that an entry is about. -/
def Mark.key : Mark → String
  | .stored w => w.key
  | .deleted key => key

/-- What was stored under a key since it was last deleted, the latest first. -/
def since (key : String) : List Mark → List Write
  | [] => []
  | .stored w :: H => if w.key = key then w :: since key H else since key H
  -- what was stored before a deletion of the key no longer counts
  | .deleted k :: H => if k = key then [] else since key H

/-- What was last stored under a key, if it was not deleted after it. -/
def latest? (key : String) (H : List Mark) : Option Write := (since key H).head?

namespace Request

/-- The mark that a write leaves, if it succeeds. -/
def storeMarks {α : Type} (m : Manager) (s : Shape α) (key : String) (a : α) (o : Options)
    (d : Deployment) : List Mark :=
  match (d.run m (m.set s key a o)).1 with
  | .ok () => [.stored ⟨key, ⟨s, a⟩, o, d.clock.now⟩]
  -- a write that fails in both tiers, or is refused, leaves no mark
  | .error _ => []

/-- What a call adds to the history. A removal is marked unless it is refused; after a miss a value
that was computed is stored as by a write. -/
def marks (m : Manager) (d : Deployment) : Request → List Mark
  | .get .. => []
  | .set s key a o => storeMarks m s key a o d
  -- the function runs after a miss alone, and its value is stored in the state that it left
  | .getOrCompute s key o outcome =>
    match (d.run m (m.get s key o)).1, outcome with
    | .ok none, .ok a => storeMarks m s key a o (m.computed (Deployment.handler m) s key o d)
    | _, _ => []
  | .delete key => if key.isEmpty then [] else [.deleted key]

end Request

section History

variable {key : String} {H : List Mark} {w : Write}

/-- A write under a key is the latest since its deletion, … -/
theorem since_stored_self (hk : w.key = key) : since key (.stored w :: H) = w :: since key H :=
  if_pos hk

/-- … a mark of another key is none, … -/
theorem since_of_ne {x : Mark} (hx : x.key ≠ key) : since key (x :: H) = since key H := by
  cases x with
  | stored w => exact if_neg hx
  | deleted k => exact if_neg hx

/-- … and a deletion leaves none. -/
@[simp] theorem since_deleted_self : since key (.deleted key :: H) = [] := if_pos rfl

/-- One more write takes none back. -/
theorem mem_since_stored {v : Write} (hv : v ∈ since key H) : v ∈ since key (.stored w :: H) := by
  by_cases hk : w.key = key
  · rw [since_stored_self hk]
    exact List.mem_cons_of_mem _ hv
  · rwa [since_of_ne (x := .stored w) hk]

/-- A write is the latest under its key, … -/
theorem latest?_stored_self (hk : w.key = key) : latest? key (.stored w :: H) = some w := by
  rw [latest?, since_stored_self hk, List.head?_cons]

/-- … what happens under another key changes nothing about that, … -/
theorem latest?_of_ne {x : Mark} (hx : x.key ≠ key) : latest? key (x :: H) = latest? key H := by
  rw [latest?, latest?, since_of_ne hx]

/-- … and after a deletion there is none. -/
@[simp] theorem latest?_deleted_self : latest? key (.deleted key :: H) = none := by
  rw [latest?, since_deleted_self, List.head?_nil]

/-- The latest is what is in the history with nothing about its key after it. -/
theorem latest?_eq_some_iff :
    latest? key H = some w ↔ ∃ newer older, H = newer ++ .stored w :: older ∧ w.key = key ∧
      ∀ x ∈ newer, x.key ≠ key := by
  constructor
  · intro hw
    induction H with
    | nil => cases hw
    | cons x H ih =>
      -- the newest entry about the key decides
      by_cases hx : x.key = key
      · cases x with
        | stored v =>
          rw [latest?_stored_self hx] at hw
          cases hw
          exact ⟨[], H, rfl, hx, fun y hy => by cases hy⟩
        | deleted k =>
          obtain rfl : k = key := hx
          rw [latest?_deleted_self] at hw
          cases hw
      · rw [latest?_of_ne hx] at hw
        obtain ⟨newer, older, rfl, hk, hne⟩ := ih hw
        exact ⟨x :: newer, older, rfl, hk, List.forall_mem_cons.mpr ⟨hx, hne⟩⟩
  · rintro ⟨newer, older, rfl, hk, hne⟩
    -- nothing newer is about the key, so it can be taken off
    induction newer with
    | nil => exact latest?_stored_self hk
    | cons x newer ih =>
      obtain ⟨hx, hne⟩ := List.forall_mem_cons.mp hne
      rw [List.cons_append, latest?_of_ne hx]
      exact ih hne

end History

/-! ### Sessions -/

/-- A step of a session. -/
inductive Step : Type 1 where
  | request (r : Request)
  /-- The clock is set. -/
  | clock (c : Clock)

/-- A deployment in use, with the history of its use. -/
structure Session : Type 1 where
  deployment : Deployment
  history : List Mark := []

namespace Session

/-- The session after a step. -/
def step (m : Manager) (S : Session) : Step → Session
  | .request r => ⟨r.after m S.deployment, r.marks m S.deployment ++ S.history⟩
  | .clock c => ⟨{ S.deployment with clock := c }, S.history⟩

/-- The session after some steps. -/
def run (m : Manager) (S : Session) (steps : List Step) : Session := steps.foldl (step m) S

end Session

end TwoTier
