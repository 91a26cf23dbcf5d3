import TwoTier.Proofs.Manager.Effects
import TwoTier.Proofs.Session

/-!
# Sessions as moves of the records

With hosts in the process, a call does no more to the records than one of the three effects
(`Manager.ReadEffect`, `Manager.WriteEffect`, `Manager.RemoveEffect`), or a read and then a write.
`Move` is the effects together with the marks that they leave in the history, and `Request.moves`
says that every call is two moves at most.

So what every move keeps, and every turn of the clock, holds throughout a session: this is
`Session.run_induction`, by which all invariants of sessions are proved.
-/

namespace TwoTier

open Deployment Manager

/-- The payload of what was stored. -/
def Write.Encodes (m : Manager) (w : Write) (p : Bytes) : Prop :=
  m.codec.serialize w.value.shape w.value.value = .ok p

/-- A write that a call may make. -/
structure Request.Offers (r : Request) (w : Write) : Prop where
  key : w.key = r.key
  value : r.value? = some w.value
  options : w.options = r.options

/-- **A move of the records**, with the marks that it leaves. What is stored is known to be in the
class `Q`. -/
inductive Move (m : Manager) (Q : Write → Prop) (d : Deployment) : List Mark → Deployment → Prop
  | read {key : String} {d' : Deployment}
      (he : m.ReadEffect key ((found m .l1 key d).payload? = none) d d') : Move m Q d [] d'
  | write {w : Write} {p : Bytes} {d' : Deployment} (hQ : Q w) (hp : m.Proper w.key w.options)
      (hw : w.Encodes m p) (hnow : w.now = d.clock.now)
      (he : m.WriteEffect w.key p w.options d d') : Move m Q d [.stored w] d'
  | remove {key : String} {d' : Deployment} (he : m.RemoveEffect key d d') :
    Move m Q d [.deleted key] d'

section Moves

variable {α : Type} {m : Manager} {Q : Write → Prop} {d : Deployment}

/-- Where no record changes, there is a move that leaves no mark. -/
theorem Move.stay {d' : Deployment} (hc : d'.clock = d.clock)
    (hrec : ∀ i k, record? m i k d' = record? m i k d) : Move m Q d [] d' := by
  have he : m.ReadEffect "" ((found m .l1 "" d).payload? = none) d d' := .of_same hc hrec
  exact .read he

/-- A move up to what the records do not show. -/
theorem Move.congr {M : List Mark} {d' d'' : Deployment} (h : Move m Q d M d')
    (hc : d''.clock = d'.clock) (hrec : ∀ i k, record? m i k d'' = record? m i k d') :
    Move m Q d M d'' := by
  cases h with
  | @read key _ he =>
    have he' : m.ReadEffect key ((found m .l1 key d).payload? = none) d d'' := by
      refine ⟨hc.trans he.clock, fun i k hk => ?_, ?_, ?_⟩
      · rw [hrec, he.other i k hk]
      · unfold Kept
        rw [hrec]
        exact he.l2
      · unfold Kept
        rw [hrec]
        exact he.l1
    exact .read he'
  | write hQ hp hw hnow he =>
    exact .write hQ hp hw hnow ⟨hc.trans he.clock, fun i k => (hrec i k).trans (he.record i k)⟩
  | remove he => exact .remove ⟨hc.trans he.clock, fun i k => (hrec i k).trans (he.record i k)⟩

variable (hd : m.Distinct) (hh : Hosted Store.InProcess m d)
include hd hh

theorem move_get (s : Shape α) (key : String) (o : Options) :
    Move m Q d [] (d.run m (m.get s key o)).2 :=
  .read ((reading (handler m) m s key o d).effect hd hh)

/-- A write is a move with the mark of what it has stored, if it was not refused. -/
theorem move_set (s : Shape α) (key : String) (a : α) (o : Options)
    (hQ : Q ⟨key, ⟨s, a⟩, o, d.clock.now⟩) :
    Move m Q d (Request.storeMarks m s key a o d) (d.run m (m.set s key a o)).2 := by
  rcases (writing (handler m) m s key a o m.writeOrder d).effect hd hh with
    ⟨e, hr, hsame⟩ | ⟨hr, hp, p, hs, he⟩
  · -- refused, and nothing to remember
    have hmarks : Request.storeMarks m s key a o d = [] := by
      unfold Request.storeMarks
      rw [show (d.run m (m.set s key a o)).1 = .error e from hr]
    rw [hmarks]
    exact .stay (congrArg clock hsame) fun i k => congrArg (record? m i k) hsame
  · have hmarks : Request.storeMarks m s key a o d = [.stored ⟨key, ⟨s, a⟩, o, d.clock.now⟩] := by
      unfold Request.storeMarks
      rw [show (d.run m (m.set s key a o)).1 = .ok () from hr]
    rw [hmarks]
    exact .write hQ hp hs rfl he

/-- A read that computes what is missing is a read, and then maybe a write. -/
theorem moves_getOrCompute {R : Store → Prop} (hR : Store.Closed R) (hhR : Hosted R m d)
    (s : Shape α) (key : String) (o : Options) (outcome : Except Failure α)
    (hQ : ∀ a now, outcome = .ok a → Q ⟨key, ⟨s, a⟩, o, now⟩) {T : List (Exchange Tier)}
    {r : Result α} {d' : Deployment} (hw : Through m (handler m) s key o outcome d T r d') :
    ∃ d₁ M₁ M₂, Move m Q d M₁ d₁ ∧ Hosted R m d₁ ∧ Move m Q d₁ M₂ d' ∧
      (Request.getOrCompute s key o outcome).marks m d = M₂ ++ M₁ := by
  have hget : Move m Q d [] (d.run m (m.get s key o)).2 := move_get hd hh s key o
  -- the caller's function touches no store, so it belongs to the first move
  have hcomputed : Move m Q d [] (m.computed (handler m) s key o d) :=
    hget.congr rfl fun _ _ => rfl
  have hhR' : Hosted R m (m.computed (handler m) s key o d) := hhR.run hR (m.get s key o)
  have hh' : Hosted Store.InProcess m (m.computed (handler m) s key o d) :=
    hh.run Store.closed_inProcess (m.get s key o)
  have hstay (d₁ : Deployment) : Move m Q d₁ [] d₁ := .stay rfl fun _ _ => rfl
  -- the second move is a write where a value was computed, and else none
  cases hw with
  | failed hr | found hr =>
    refine ⟨_, _, _, hget, hhR.run hR _, hstay _, ?_⟩
    simp only [Request.marks, Deployment.run, hr]
    rfl
  | notComputed hr ho =>
    refine ⟨_, _, _, hcomputed, hhR', hstay _, ?_⟩
    simp only [Request.marks, Deployment.run, hr, ho]
    rfl
  | @stored a hr ho hs =>
    refine ⟨_, _, _, hcomputed, hhR', move_set hd hh' s key a o (hQ a _ ho), ?_⟩
    simp only [Request.marks, Deployment.run, hr, ho]
    rw [List.append_nil]
  | @notStored a e hr ho hs =>
    have hset := move_set hd hh' s key a o (hQ a _ ho)
    refine ⟨_, _, _, hcomputed, hhR', hset.congr rfl fun _ _ => rfl, ?_⟩
    simp only [Request.marks, Deployment.run, hr, ho]
    rw [List.append_nil]

/-- **Every call is two moves at most**, and leaves the marks of both. -/
theorem Request.moves {R : Store → Prop} (hR : Store.Closed R) (hhR : Hosted R m d) (r : Request)
    (hQ : ∀ w, r.Offers w → Q w) :
    ∃ d₁ M₁ M₂, Move m Q d M₁ d₁ ∧ Hosted R m d₁ ∧ Move m Q d₁ M₂ (r.after m d) ∧
      r.marks m d = M₂ ++ M₁ := by
  -- the second move of most calls
  have hstay (d₁ : Deployment) : Move m Q d₁ [] d₁ := .stay rfl fun _ _ => rfl
  cases r with
  | get s key o => exact ⟨_, _, _, move_get hd hh s key o, hhR.run hR _, hstay _, rfl⟩
  | set s key a o =>
    have hset := move_set hd hh s key a o (hQ _ ⟨rfl, rfl, rfl⟩)
    exact ⟨_, _, _, hset, hhR.run hR _, hstay _, rfl⟩
  | delete key =>
    have hrun : Hosted R m (d.run m (m.delete key)).2 := hhR.run hR _
    rcases delete_effect hd hh key with ⟨rfl, hsame⟩ | ⟨hk, he⟩
    · exact ⟨d, [], [], hstay d, hhR, .stay (congrArg clock hsame) fun i k =>
        congrArg (record? m i k) hsame, rfl⟩
    · refine ⟨_, _, _, .remove he, hrun, hstay _, ?_⟩
      simp [Request.marks, hk]
  | getOrCompute s key o outcome =>
    refine moves_getOrCompute hd hh hR hhR s key o outcome ?_ (readThrough m (handler m) ..)
    intro a now ho
    exact hQ _ ⟨rfl, by rw [ho]; rfl, rfl⟩

/-- What a call is told by a tier is what is found there before the call. -/
theorem Request.told (r : Request) {i : Tier} {k : String} {reply : Except Failure (Option Bytes)}
    (hx : .read i k reply ∈ r.trace m d) :
    k = r.key ∧ reply = .ok (found m i k d).payload? := by
  -- only reads are told of anything, also those that compute what is missing
  have hget {α : Type} {s : Shape α} {key : String} {o : Options}
      (hx : .read i k reply ∈ (m.get s key o).trace (handler m) d) :
      k = key ∧ reply = .ok (found m i k d).payload? := by
    obtain ⟨rfl, hreply⟩ := (reading (handler m) m s key o d).told hd hh hx
    exact ⟨rfl, hreply⟩
  cases r with
  | get s key o => exact hget hx
  | set s key a o => exact absurd hx (writing (handler m) m s key a o m.writeOrder d).reads_nothing
  | delete key => exact absurd hx (delete_reads_nothing (handler m) key m d)
  | getOrCompute s key o outcome =>
    exact hget ((readThrough m (handler m) s key o outcome d).read hx)

end Moves

/-! ### Induction -/

/-- Every turn of the clock in a session goes along a relation. -/
def Clocked (C : Clock → Clock → Prop) : Clock → List Step → Prop
  | _, [] => True
  | c, .request _ :: steps => Clocked C c steps
  | c, .clock c' :: steps => C c c' ∧ Clocked C c' steps

/-- Every turn of the clock goes along the relation of everything. -/
theorem clocked_true (c : Clock) (steps : List Step) : Clocked (fun _ _ => True) c steps := by
  induction steps generalizing c with
  | nil => trivial
  | cons x steps ih =>
    cases x with
    | request r => exact ih c
    | clock c' => exact ⟨trivial, ih c'⟩

section Induction

variable {m : Manager} {R : Store → Prop} {Q : Write → Prop} {C : Clock → Clock → Prop}
  {P : Deployment → List Mark → Prop}

/-- **Induction over a session**: what every move keeps, and every turn of the clock, holds after
the session if it holds before it. -/
theorem Session.run_induction (hd : m.Distinct) (hR : Store.Closed R)
    (hin : ∀ s, R s → s.InProcess)
    (hmove : ∀ {d H M d'}, Hosted R m d → Move m Q d M d' → P d H → P d' (M ++ H))
    (hclock : ∀ {d H c}, C d.clock c → P d H → P { d with clock := c } H)
    (steps : List Step) (S : Session) (hh : Hosted R m S.deployment)
    (hQ : ∀ r, .request r ∈ steps → ∀ w, r.Offers w → Q w)
    (hC : Clocked C S.deployment.clock steps) (hP : P S.deployment S.history) :
    P (S.run m steps).deployment (S.run m steps).history ∧
      Hosted R m (S.run m steps).deployment := by
  -- on the steps, from any session that has come about
  induction steps generalizing S with
  | nil => exact ⟨hP, hh⟩
  | cons x steps ih =>
    have hQ' : ∀ r, .request r ∈ steps → ∀ w, r.Offers w → Q w :=
      fun r hr => hQ r (List.mem_cons_of_mem _ hr)
    cases x with
    | request r =>
      obtain ⟨d₁, M₁, M₂, h₁, hh₁, h₂, hmarks⟩ :=
        r.moves hd (hh.imp hin) hR hh (hQ r List.mem_cons_self)
      -- both moves keep what is to be kept, and neither turns the clock
      have hP' := hmove hh₁ h₂ (hmove hh h₁ hP)
      refine ih (S.step m (.request r)) (hh.run hR _) hQ' ?_ ?_
      · rw [show (S.step m (.request r)).deployment.clock = S.deployment.clock from clock_run _]
        exact hC
      · rw [show (S.step m (.request r)).history = r.marks m S.deployment ++ S.history from rfl,
          hmarks, List.append_assoc]
        exact hP'
    | clock c => exact ih (S.step m (.clock c)) hh hQ' hC.2 (hclock hC.1 hP)

end Induction

/-! ### A sample -/

/-- Two empty stores in the process, at the beginning of 1970. -/
def twoFresh : Deployment where
  clock := ⟨⟨0⟩, 0⟩
  stores := TextMap.ofList [("far", .bounded { capacity := 100 }), ("near", .unbounded {})]

/-- Both of them are in the process, without ceilings. -/
theorem twoFresh_hosted (mode : Mode) : Hosted Store.Plain (Manager.sample mode) twoFresh := by
  intro i _
  cases i
  · exact ⟨.unbounded {}, rfl, trivial⟩
  · exact ⟨.bounded { capacity := 100 }, rfl, trivial⟩

theorem twoFresh_blank (mode : Mode) : Blank (Manager.sample mode) twoFresh := by
  intro i key
  cases i <;> rfl

end TwoTier
