import TwoTier.Proofs.Store.Records

/-!
# Uses of a store, key by key

A **use** of a store in the process is a command, a look whether there is a record, or a sweep. It
touches the record of its own key alone, a sweep apart, which treats all keys alike. So what becomes
of one key can be followed without the others:

* the operations of each kind of store are described by the records that are there after them
  (`Unbounded.records_get`, `Bounded.records_get`, `Ceiling.find?_get`);
* `Store.use` carries out a use, and `Use.onRecord` is what it does to the record of a key in a
  plain store (`Plain.record?_use`);
* in any store, a use that writes nothing under a key leaves its record, or finds it stale and drops
  it (`record?_use_of_unwritten`).
-/

namespace TwoTier

/-- Filtering keeps or drops the value under a key as `keep` says. -/
theorem TextMap.find?_filter {α : Type} (m : TextMap α) (keep : String → α → Bool) (k : String) :
    (m.filter keep).find? k = (m.find? k).filter (keep k) := by
  obtain ⟨l, hl⟩ := m
  simp only [find?, filter]
  -- on the list of entries, whose keys ascend strictly
  induction l with
  | nil => rfl
  | cons e rest ih =>
    obtain ⟨hlater, hrest⟩ := List.pairwise_cons.mp hl
    by_cases hk : e.1 = k
    · -- no later entry has the key, so nothing takes the place of this one
      have hnone : (rest.filter fun e => keep e.1 e.2).find? (fun e => e.1 == k) = none := by
        refine List.find?_eq_none.mpr fun e' he' => ?_
        have hlt : e.1 < e'.1 := hlater e' (List.mem_filter.mp he').1
        have hne : e'.1 ≠ k := fun h => String.lt_irrefl k (by rw [hk, h] at hlt; exact hlt)
        simpa using hne
      subst hk
      cases hkeep : keep e.1 e.2 with
      | true => simp [hkeep, Option.filter_some]
      | false => simp [hkeep, hnone, Option.filter_some]
    · cases hkeep : keep e.1 e.2 with
      | true => simpa [hk, hkeep] using ih hrest
      | false => simpa [hk, hkeep] using ih hrest

/-- A choice of keys keeps or drops whole entries. -/
theorem TextMap.find?_filter_keys {α : Type} (m : TextMap α) (keep : String → Bool) (k : String) :
    (m.filter fun key _ => keep key).find? k = if keep k then m.find? k else none := by
  rw [find?_filter]
  cases keep k <;> cases m.find? k <;> rfl

/-! ### The record of one key in each kind of store -/

section Kinds

variable {c : Clock} {now : Nat} {key : String}

/-- Only a record that is held can be dropped for being stale. -/
theorem Ceiling.find?_purgeStale (s : Ceiling) (c : Clock) (key k : String) :
    (s.purgeStale c key).records.find? k =
      if k = key ∧ Entry.lookup c.now ((s.held? c key).map Timed.raw) = .stale then none
      else s.records.find? k := by
  unfold purgeStale
  cases hr : s.held? c key with
  | none => rw [if_neg fun h => nomatch h.2]
  | some r =>
    simp only [Option.map_some]
    rcases Entry.lookup_some c.now r.raw with ⟨hs, hf⟩ | ⟨hs, p, hf⟩
    · simp only [hs, if_true, hf, and_true, TextMap.find?_erase]
    · simp only [hs, hf, Bool.false_eq_true, if_false, reduceCtorEq, and_false]

namespace Ceiling

/-- The record as it is after a use at an uptime. -/
def Timed.usedAt (r : Timed) (uptime : Nat) : Timed := { r with used := uptime }

/-- What a read of its key makes of a record: one that is held is used, and then dropped if it is
stale and still held. -/
def Timed.afterGet (l : Limits) (c : Clock) (r? : Option Timed) : Option Timed :=
  match r?.filter (Timed.isHeld l c.uptime) with
  | none => r?
  | some r =>
    if Entry.isStale c.now r.raw && (r.usedAt c.uptime).isHeld l c.uptime then none
    else some (r.usedAt c.uptime)

/-- What a look at its key makes of a record: one that is held is used. -/
def Timed.afterContains (l : Limits) (c : Clock) (r? : Option Timed) : Option Timed :=
  match r?.filter (Timed.isHeld l c.uptime) with
  | none => r?
  | some r => some (r.usedAt c.uptime)

/-- A use of a record sets the uptime of that record, and touches no other. -/
theorem find?_use_eq (s : Ceiling) (c : Clock) (key : String) (r : Timed) (k : String) :
    (s.use c key r).records.find? k =
      if k = key then some (r.usedAt c.uptime) else s.records.find? k :=
  TextMap.find?_insert ..

theorem records_get_of_held {s : Ceiling} {c : Clock} {key : String} {r : Timed}
    (hr : s.held? c key = some r) :
    (s.get c key).2.records =
      if Entry.isStale c.now r.raw then ((s.use c key r).purgeStale c key).records
      else (s.use c key r).records := by
  unfold get
  rw [hr]
  -- the two outcomes of a read of bytes that are there: stale, or a payload
  rcases Entry.lookup_some c.now r.raw with ⟨hs, hf⟩ | ⟨hs, p, hf⟩
  · simp only [hs, hf, if_true]
  · simp only [hs, hf, Bool.false_eq_true, if_false]

theorem records_get_of_not_held {s : Ceiling} {c : Clock} {key : String}
    (hr : s.held? c key = none) : (s.get c key).2.records = s.records := by
  unfold get
  rw [hr]

/-- After a use the record is held again, or for no longer. -/
theorem held?_use_self (s : Ceiling) (c : Clock) (key : String) (r : Timed) :
    (s.use c key r).held? c key =
      (some (r.usedAt c.uptime)).filter (Timed.isHeld s.limits c.uptime) := by
  rw [held?, find?_use_eq, if_pos rfl]
  rfl

/-- **A read, record by record**: the record of its key is used or dropped, and every other one
stays. -/
theorem find?_get (s : Ceiling) (c : Clock) (key k : String) :
    (s.get c key).2.records.find? k =
      if k = key then Timed.afterGet s.limits c (s.records.find? key)
      else s.records.find? k := by
  -- the filter in the statement is the lookup of held records
  have hheld : (s.records.find? key).filter (Timed.isHeld s.limits c.uptime) = s.held? c key := rfl
  unfold Timed.afterGet
  rw [hheld]
  cases hr : s.held? c key with
  | none =>
    rw [records_get_of_not_held hr]
    by_cases hk : k = key
    · rw [if_pos hk, hk]
    · rw [if_neg hk]
  | some r =>
    rw [records_get_of_held hr]
    dsimp only
    rcases Entry.lookup_some c.now r.raw with ⟨hs, hf⟩ | ⟨hs, -⟩
    · have hf' : Entry.lookup c.now (some (r.usedAt c.uptime).raw) = .stale := hf
      rw [if_pos hs, find?_purgeStale, held?_use_self, find?_use_eq, hs]
      -- the use itself may have taken the record beyond its limits, and then there is nothing to
      -- drop
      cases hh : (r.usedAt c.uptime).isHeld s.limits c.uptime with
      | true => by_cases hk : k = key <;> simp [Option.filter_some, hh, hf', hk]
      | false => by_cases hk : k = key <;> simp [Option.filter_some, hh, hk]
    · rw [hs, if_neg Bool.false_ne_true, find?_use_eq, Bool.false_and, if_neg Bool.false_ne_true]

theorem find?_contains (s : Ceiling) (c : Clock) (key k : String) :
    (s.contains c key).2.records.find? k =
      if k = key then Timed.afterContains s.limits c (s.records.find? key)
      else s.records.find? k := by
  have hheld : (s.records.find? key).filter (Timed.isHeld s.limits c.uptime) = s.held? c key := rfl
  unfold contains Timed.afterContains
  rw [hheld]
  -- a key that holds nothing is left alone, and a record that is held is used
  cases hr : s.held? c key with
  | none =>
    dsimp only
    by_cases hk : k = key
    · rw [if_pos hk, hk]
    · rw [if_neg hk]
  | some r => exact find?_use_eq ..

end Ceiling

end Kinds

/-! ### What a reader has before it -/

namespace Store

/-- The record that a reader has before it: a record that the ceilings no longer hold is not. -/
def present? (c : Clock) (key : String) : Store → Option Bytes
  | .ceiling s => (s.held? c key).map Ceiling.Timed.raw
  | s => s.record? key

/-- In a plain store every record is before the reader. -/
theorem Plain.present?_eq {s : Store} (hs : s.Plain) (c : Clock) (key : String) :
    s.present? c key = s.record? key := by
  cases s with
  | unbounded s | bounded s => rfl
  | recording s | ceiling s | redis s | memcached s => exact hs.elim

/-- What a reader finds is made of the record before it and the time. -/
theorem found_eq (s : Store) (c : Clock) (key : String) :
    s.found c key = Entry.lookup c.now (s.present? c key) := by
  cases s <;> rfl

end Store

/-! ### Uses -/

/-- What is done with a store in the process. -/
inductive Use where
  | command (c : Command)
  /-- A look whether there is a record under a key, stale or not. -/
  | contains (key : String)
  /-- A sweep of all records. -/
  | sweep
deriving DecidableEq

namespace Use

/-- What a use is told. -/
def Reply : Use → Type
  | .command c => c.Reply
  | .contains _ => Bool
  | .sweep => Nat

/-- Whether a use writes or removes the record of a key. -/
def writes (k : String) : Use → Bool
  | .command (.set key _ _) => key == k
  | .command (.remove key) => key == k
  | _ => false

/-- Whether a use drops the record of a key if that is stale. -/
def checks (k : String) : Use → Bool
  | .command (.get key) => key == k
  | .sweep => true
  | _ => false

/-- A use that writes or removes the record of a key is a deposit under it, or a removal. -/
theorem of_writes {k : String} {u : Use} (hu : u.writes k = true) :
    (∃ p ttl, u = .command (.set k p ttl)) ∨ u = .command (.remove k) := by
  cases u with
  | contains key | sweep => cases hu
  | command c =>
    cases c with
    | get key => cases hu
    | set key p ttl =>
      obtain rfl : key = k := beq_iff_eq.mp hu
      exact .inl ⟨p, ttl, rfl⟩
    | remove key =>
      obtain rfl : key = k := beq_iff_eq.mp hu
      exact .inr rfl

/-- What a use makes of the record of a key in a plain store. -/
def onRecord (k : String) (c : Clock) : Use → Option Bytes → Option Bytes
  | .command (.set key p ttl), raw? => if k = key then some (Entry.encode c.now p ttl) else raw?
  | .command (.remove key), raw? => if k = key then none else raw?
  | u, raw? => if u.checks k then raw?.filter fun raw => !Entry.isStale c.now raw else raw?

end Use

namespace Store

/-- The stores that have a sweep. -/
def Sweeps : Store → Prop
  | .unbounded _ => True
  | _ => False

/-- Carries out a use. -/
def use (c : Clock) : (u : Use) → Store → u.Reply × Store
  | .command x, s => ((s.serve c x).reply, (s.serve c x).store)
  | .contains key, s => ((s.contains c key).reply, (s.contains c key).store)
  | .sweep, s => ((s.cleanup c).reply, (s.cleanup c).store)

section Use

variable {s : Store} {c : Clock} {u : Use} {k : String}

/-- No command changes the kind of a store, so a store with a sweep keeps it. -/
theorem closed_sweeps : Closed Sweeps := by
  intro c x s hs
  cases s with
  | unbounded s => cases x <;> trivial
  | recording s | bounded s | ceiling s | redis s | memcached s => exact hs.elim

/-- No use leads out of a class of stores that no command leads out of, if the class has all stores
of a kind or none. This is asked of the two kinds that have other uses than commands. -/
theorem use_of_closed {R : Store → Prop} (hR : Closed R)
    (hunbounded : ∀ s s', R (.unbounded s) → R (.unbounded s'))
    (hceiling : ∀ s s', R (.ceiling s) → R (.ceiling s')) (hs : R s) : R (s.use c u).2 := by
  -- commands are closed by assumption; the other uses rebuild one kind of store each
  cases u with
  | command x => exact hR c x s hs
  | contains key =>
    cases s with
    | ceiling s => exact hceiling _ _ hs
    | recording s | unbounded s | bounded s | redis s | memcached s => exact hs
  | sweep =>
    cases s with
    | unbounded s => exact hunbounded _ _ hs
    | recording s | bounded s | ceiling s | redis s | memcached s => exact hs

theorem InProcess.use (hs : s.InProcess) : (s.use c u).2.InProcess :=
  use_of_closed closed_inProcess (fun _ _ _ => trivial) (fun _ _ _ => trivial) hs

theorem Plain.use (hs : s.Plain) : (s.use c u).2.Plain :=
  use_of_closed closed_plain (fun _ _ _ => trivial) (fun _ _ h => h) hs

theorem Sweeps.use (hs : s.Sweeps) : (s.use c u).2.Sweeps :=
  use_of_closed closed_sweeps (fun _ _ _ => trivial) (fun _ _ h => h) hs

/-- Dropping what is stale, said of the record and of what a reader finds. -/
theorem filter_isStale (now : Nat) (raw? : Option Bytes) :
    (raw?.filter fun raw => !Entry.isStale now raw) =
      if Entry.lookup now raw? = .stale then none else raw? := by
  cases raw? with
  | none => rfl
  | some raw =>
    rw [Option.filter_some]
    rcases Entry.lookup_some now raw with ⟨hs, hf⟩ | ⟨hs, p, hf⟩
    · rw [hs, hf]
      rfl
    · rw [hs, hf]
      rfl

/-- **A use of a plain store, key by key**: what becomes of the record of a key depends on that
record alone. -/
theorem Plain.record?_use (hs : s.Plain) (hu : u = .sweep → s.Sweeps) :
    (s.use c u).2.record? k = u.onRecord k c (s.record? k) := by
  cases u with
  | command x =>
    cases x with
    | set key p ttl => exact record?_serve_set hs.inProcess p ttl k
    | remove key => exact record?_serve_remove hs.inProcess k
    | get key =>
      -- a read of another key is not a check of this one
      -- a read drops the record that it finds stale; this is checked on the two plain kinds
      have hget : (s.serve c (.get key)).store.record? k =
          if k = key ∧ Entry.lookup c.now (s.record? key) = .stale then none else s.record? k := by
        cases s with
        | unbounded s =>
          show (s.get c.now key).2.records.find? k = _
          rw [s.records_get]
          exact TextMap.find?_dropStale ..
        | bounded s =>
          show (s.get c.now key).2.records.find? k = _
          rw [s.records_get]
          exact TextMap.find?_dropStale ..
        | recording s | ceiling s | redis s | memcached s => exact hs.elim
      refine hget.trans ?_
      by_cases hk : k = key
      · subst hk
        simp only [Use.onRecord, Use.checks, beq_self_eq_true, if_true, true_and]
        exact (filter_isStale ..).symm
      · -- the key of the read is another one, so the record here is neither read nor checked
        have hk' : (key == k) = false := beq_eq_false_iff_ne.mpr fun h => hk h.symm
        simp [Use.onRecord, Use.checks, hk, hk']
  | contains key =>
    cases s with
    | unbounded s | bounded s => rfl
    | recording s | ceiling s | redis s | memcached s => exact hs.elim
  | sweep =>
    have hsweeps := hu rfl
    cases s with
    | unbounded s => exact TextMap.find?_filter ..
    | recording s | bounded s | ceiling s | redis s | memcached s => exact hsweeps.elim

/-- A use that writes nothing under a key leaves its record, or finds it stale and drops it. -/
theorem record?_use_of_unwritten (hs : s.InProcess) (hu : u.writes k = false) :
    (s.use c u).2.record? k = s.record? k ∨
      u.checks k = true ∧ (∃ raw, s.record? k = some raw ∧ Entry.isStale c.now raw = true) ∧
        (s.use c u).2.record? k = none := by
  -- a look at most marks a record as used; a sweep and a read drop only what is stale
  cases u with
  | contains key =>
    cases s with
    | recording s | unbounded s | bounded s | redis s | memcached s => exact .inl rfl
    | ceiling s =>
      left
      show ((s.contains c key).2.records.find? k).map Ceiling.Timed.raw = _
      unfold Ceiling.contains
      cases hr : s.held? c key with
      | none => rfl
      | some r => exact Ceiling.find?_use hr k
  | sweep =>
    cases s with
    | recording s | bounded s | ceiling s | redis s | memcached s => exact .inl rfl
    | unbounded s =>
      have hsweep := TextMap.find?_filter s.records (fun _ raw => !Entry.isStale c.now raw) k
      show ((s.cleanup c.now).2.records.find? k) = s.records.find? k ∨ _
      cases hr : s.records.find? k with
      | none =>
        left
        exact hsweep.trans (by rw [hr]; rfl)
      | some raw =>
        rw [hr, Option.filter_some] at hsweep
        -- a sweep keeps the record exactly if it is not stale
        cases hstale : Entry.isStale c.now raw with
        | false =>
          rw [hstale] at hsweep
          exact .inl hsweep
        | true =>
          rw [hstale] at hsweep
          exact .inr ⟨rfl, ⟨raw, hr, hstale⟩, hsweep⟩
  | command q =>
    cases q with
    | get key =>
      rcases record?_serve_get hs c key k with hsame | ⟨rfl, hstale, hnone⟩
      · exact .inl hsame
      · -- only a read of this very key can have dropped it
        exact .inr ⟨beq_self_eq_true k, record?_of_found_stale hstale, hnone⟩
    | set key p ttl =>
      have hk : ¬k = key := fun h => beq_eq_false_iff_ne.mp hu h.symm
      exact .inl ((record?_serve_set hs p ttl k).trans (if_neg hk))
    | remove key =>
      have hk : ¬k = key := fun h => beq_eq_false_iff_ne.mp hu h.symm
      exact .inl ((record?_serve_remove hs k).trans (if_neg hk))

end Use

end Store

end TwoTier
