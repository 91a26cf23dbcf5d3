import TwoTier.Proofs.Deployment.Tiers
import TwoTier.Proofs.Store.Records

/-!
# The records behind the tiers

A deployment as a table of records: `Deployment.record?` is the record that a tier has under a key,
and `Deployment.found` what a reader finds there now. A deployment is **hosted** by a class of
stores (`Deployment.Hosted`) if every tier of the manager has a store of it, and stays so whatever
script is run (`Hosted.run`).

With hosts in the process, the three commands are what they should be on the table: `serve_get`,
`serve_set` and `serve_remove` give the reply and the table after it.
-/

namespace TwoTier.Deployment

/-- The record that a tier has under a key, stale or not. -/
def record? (m : Manager) (i : Tier) (key : String) (d : Deployment) : Option Bytes :=
  (behind m i d).bind (Store.record? key)

/-- What a reader finds in a tier under a key. -/
def found (m : Manager) (i : Tier) (key : String) (d : Deployment) : Entry.Found :=
  match behind m i d with
  | some s => s.found d.clock key
  | none => .absent

/-- No tier has a record. -/
def Blank (m : Manager) (d : Deployment) : Prop := ∀ i key, record? m i key d = none

/-- Every tier has a store, and one of the given class. -/
def Hosted (R : Store → Prop) (m : Manager) (d : Deployment) : Prop :=
  ∀ i, m.hasTier i = true → ∃ s, behind m i d = some s ∧ R s

section Found

variable {m : Manager} {i : Tier} {key : String} {d : Deployment} {s : Store}

theorem record?_of_behind (hs : behind m i d = some s) : record? m i key d = s.record? key := by
  rw [record?, hs, Option.bind_some]

theorem found_of_behind (hs : behind m i d = some s) : found m i key d = s.found d.clock key := by
  rw [found, hs]

theorem hasTier_of_behind (hs : behind m i d = some s) : m.hasTier i = true := by
  obtain ⟨r, hr, -⟩ := Option.bind_eq_some_iff.mp hs
  rw [Manager.hasTier, hr, Option.isSome_some]

/-- Without a tier there is no record. -/
theorem hasTier_of_record? {raw : Bytes} (hr : record? m i key d = some raw) :
    m.hasTier i = true := by
  obtain ⟨s, hs, -⟩ := Option.bind_eq_some_iff.mp hr
  exact hasTier_of_behind hs

/-- What is found live in a tier is in its record. -/
theorem record?_of_found_live {p : Bytes} (h : found m i key d = .live p) :
    ∃ raw, record? m i key d = some raw ∧ Entry.decode d.clock.now raw = .live p := by
  cases hs : behind m i d with
  | none => simp [found, hs] at h
  | some s =>
    rw [found_of_behind hs] at h
    rw [record?_of_behind hs]
    exact Store.record?_of_found_live h

/-- The store behind a tier is of the class. -/
theorem Hosted.of_behind {R : Store → Prop} (hh : Hosted R m d) (hs : behind m i d = some s) :
    R s := by
  obtain ⟨s', hs', hR⟩ := hh i (hasTier_of_behind hs)
  cases hs.symm.trans hs'
  exact hR

/-- With plain hosts, the record and the wall clock decide what is found. -/
theorem found_of_plain (hh : Hosted Store.Plain m d) :
    found m i key d = Entry.lookup d.clock.now (record? m i key d) := by
  cases hs : behind m i d with
  | none => simp [found, record?, hs, Entry.lookup]
  | some s => rw [found_of_behind hs, record?_of_behind hs, (hh.of_behind hs).found]

end Found

/-! ### Hosts stay -/

section Hosts

variable {α β : Type} {m : Manager} {R : Store → Prop} {d : Deployment}

/-- A wider class of stores hosts as well. -/
theorem Hosted.imp {R' : Store → Prop} (himp : ∀ s, R s → R' s) (hh : Hosted R m d) :
    Hosted R' m d := by
  intro i hi
  obtain ⟨s, hs, hR⟩ := hh i hi
  exact ⟨s, hs, himp s hR⟩

/-- Consulting a store by name keeps the hosts, if it keeps the class. -/
theorem Hosted.consult (hh : Hosted R m d) (id : String) (missing : α) {f : Store → Served α}
    (hf : ∀ s, R s → R (f s).store) : Hosted R m (d.consult id missing f).2 := by
  intro j hj
  obtain ⟨s, hs, hR⟩ := hh j hj
  obtain ⟨r', hr', hstore⟩ := Option.bind_eq_some_iff.mp hs
  -- stores go by their names, and two tiers may well have one store here
  by_cases hid : r'.id = id
  · rw [hid] at hstore
    refine ⟨(f s).store, ?_, hf s hR⟩
    rw [behind, hr', Option.bind_some, hid, Deployment.consult, hstore]
    simp [absorb, store?]
  · refine ⟨s, ?_, hR⟩
    rw [behind, hr', Option.bind_some, store?_consult_of_ne _ _ _ hid, hstore]

/-- Hosts stay if a command that does not lead out of their class is given, be it by another
manager. -/
theorem Hosted.serve_at (hh : Hosted R m d) {c : Command}
    (hserve : ∀ s, R s → R (s.serve d.clock c).store) (m' : Manager) (i : Tier) :
    Hosted R m ((handler m').serve i c d).2 := by
  -- a tier that there is none of asks no store
  cases hr : m'.slot i with
  | none => simpa [handler, hr] using hh
  | some r =>
    simp only [handler, hr]
    exact hh.consult _ _ hserve

/-- A command keeps the hosts, if no command leads out of their class. -/
theorem Hosted.serve (hR : Store.Closed R) (hh : Hosted R m d) {i : Tier} {c : Command}
    {x : c.Reply × Deployment} (hx : (handler m).serve i c d = x) : Hosted R m x.2 := by
  subst hx
  exact hh.serve_at (hR d.clock c) m i

/-- **Hosts stay** whatever script is run, if nothing that it may ask at this clock leads out of
their class. -/
theorem Hosted.run_at (hh : Hosted R m d) (hserve : ∀ c s, R s → R (s.serve d.clock c).store)
    (hcheck : ∀ s, R s → R (s.checkHealth d.clock).store) (m' : Manager) (x : Script Tier β) :
    Hosted R m (d.run m' x).2 := by
  unfold Deployment.run
  -- a node is answered by one store at most, and the state after it is hosted again
  induction x generalizing d with
  | done a => exact hh
  | ask i c k ih =>
    have hclock : ((handler m').serve i c d).2.clock = d.clock := clock_serve c
    exact ih _ (hh.serve_at (hserve c) m' i) (by rwa [hclock]) (by rwa [hclock])
  | check i k ih =>
    have hstep : Hosted R m ((handler m').healthy i d).2 ∧
        ((handler m').healthy i d).2.clock = d.clock := by
      cases hr : m'.slot i with
      | none => simpa [handler, hr] using hh
      | some r =>
        simp only [handler, hr]
        exact ⟨hh.consult _ _ hcheck, clock_consult ..⟩
    obtain ⟨hh', hclock⟩ := hstep
    exact ih _ hh' (by rwa [hclock]) (by rwa [hclock])
  | note e k ih => exact ih hh hserve hcheck
  | compute k ih => exact ih hh hserve hcheck

/-- So they do if the class is closed. -/
theorem Hosted.run (hR : Store.Closed R) (hh : Hosted R m d) (x : Script Tier β) :
    Hosted R m (d.run m x).2 :=
  hh.run_at (hR d.clock) (fun _ hs => hR.checkHealth hs) m x

/-- No script moves the clock. -/
theorem clock_run (x : Script Tier β) : (d.run m x).2.clock = d.clock := by
  unfold Deployment.run
  -- along the script: commands and probes are served at the clock as it is
  induction x generalizing d with
  | done a => rfl
  | ask i c k ih => exact (ih _).trans (clock_serve c)
  | check i k ih =>
    refine (ih _).trans ?_
    simp only [handler]
    split
    · exact clock_consult ..
    · rfl
  | note e k ih => exact ih
  | compute k ih => exact ih

end Hosts

/-! ### Commands on the table -/

section Commands

variable {m : Manager} {i : Tier} {key : String} {d d' : Deployment}

/-- The record of a tier under a key is as it was, or was stale and is gone. -/
def Kept (m : Manager) (i : Tier) (key : String) (d d' : Deployment) : Prop :=
  record? m i key d' = record? m i key d ∨
    record? m i key d' = none ∧
      ∃ raw, record? m i key d = some raw ∧ Entry.isStale d.clock.now raw = true

/-- What is kept twice is kept, as long as the clock stands. -/
theorem Kept.trans {d'' : Deployment} (hc : d'.clock = d.clock) (h : Kept m i key d d')
    (h' : Kept m i key d' d'') : Kept m i key d d'' := by
  rcases h with hsame | ⟨hgone, hstale⟩
  · -- nothing happened in the first step
    unfold Kept at h'
    rw [hsame, hc] at h'
    exact h'
  · refine .inr ⟨?_, hstale⟩
    rcases h' with hsame' | ⟨hgone', -⟩
    · exact hsame'.trans hgone
    · exact hgone'

/-- What is there afterwards was there before. -/
theorem Kept.of_record? (h : Kept m i key d d') {raw : Bytes}
    (hr : record? m i key d' = some raw) : record? m i key d = some raw := by
  rcases h with hsame | ⟨hgone, -⟩
  · rw [← hsame, hr]
  · rw [hgone] at hr
    cases hr

/-- A record that was not stale is as it was. -/
theorem Kept.same_or_stale (h : Kept m i key d d') :
    record? m i key d' = record? m i key d ∨
      ∀ raw, record? m i key d = some raw → Entry.isStale d.clock.now raw = true := by
  rcases h with hsame | ⟨-, raw, hr, hstale⟩
  · exact .inl hsame
  · refine .inr fun raw' hr' => ?_
    rw [hr] at hr'
    cases hr'
    exact hstale

/-- What has become of a tier after a read of a key: records of other keys are as they were, and
other tiers too. -/
structure Looked (m : Manager) (i : Tier) (key : String) (d d' : Deployment) : Prop where
  clock : d'.clock = d.clock
  behind : ∀ j, j ≠ i → behind m j d' = behind m j d
  other : ∀ k, k ≠ key → record? m i k d' = record? m i k d
  self : Kept m i key d d'

/-- The records of other tiers are as they were. -/
theorem Looked.record?_of_ne (hl : Looked m i key d d') {j : Tier} (hij : j ≠ i) (k : String) :
    record? m j k d' = record? m j k d := by
  rw [record?, record?, hl.behind j hij]

/-- Nothing else is found in other tiers. -/
theorem Looked.found_of_ne (hl : Looked m i key d d') {j : Tier} (hij : j ≠ i) (k : String) :
    found m j k d' = found m j k d := by
  rw [found, found, hl.behind j hij, hl.clock]

/-- A command to one tier leaves the records of another, as the two have different stores. -/
theorem record?_serve_of_ne (hd : m.Distinct) {j : Tier} (hij : j ≠ i) (c : Command) (k : String) :
    record? m j k ((handler m).serve i c d).2 = record? m j k d := by
  rw [record?, record?, behind_serve_of_ne hd hij]

variable (hd : m.Distinct) (hh : Hosted Store.InProcess m d) (hi : m.hasTier i = true)
include hd hh hi

/-- **A read** returns what is found, and keeps all records but a stale one under its key. -/
theorem serve_get {r : Except Failure (Option Bytes)}
    (hr : (handler m).serve i (.get key) d = (r, d')) :
    r = .ok (found m i key d).payload? ∧ Looked m i key d d' := by
  obtain ⟨s, hs, hp⟩ := hh i hi
  obtain rfl : d' = ((handler m).serve i (.get key) d).2 := by rw [hr]
  obtain rfl : r = ((handler m).serve i (.get key) d).1 := by rw [hr]
  have hrecord := Store.record?_serve_get hp d.clock key
  -- the reply, the clock, the other tier, the other keys, and the record itself
  refine ⟨?_, clock_serve _, fun j hij => behind_serve_of_ne hd hij _, fun k hk => ?_, ?_⟩
  · rw [reply_serve hs, Store.reply_serve_get hp, found_of_behind hs]
  · rw [record?_of_behind (behind_serve_self hs _), record?_of_behind hs]
    exact (hrecord k).resolve_right fun h => hk h.1
  · rcases hrecord key with hsame | ⟨-, hstale, hgone⟩
    · left
      rw [record?_of_behind (behind_serve_self hs _), record?_of_behind hs, hsame]
    · right
      rw [record?_of_behind (behind_serve_self hs _), hgone, record?_of_behind hs]
      exact ⟨rfl, Store.record?_of_found_stale hstale⟩

/-- **A write** succeeds, and makes the record of its tier and key anew. -/
theorem serve_set {p : Bytes} {ttl : Duration} {r : Except Failure Unit}
    (hr : (handler m).serve i (.set key p ttl) d = (r, d')) :
    r = .ok () ∧ d'.clock = d.clock ∧ ∀ j k, record? m j k d' =
      if j = i ∧ k = key then some (Entry.encode d.clock.now p ttl) else record? m j k d := by
  obtain ⟨s, hs, hp⟩ := hh i hi
  obtain rfl : d' = ((handler m).serve i (.set key p ttl) d).2 := by rw [hr]
  obtain rfl : r = ((handler m).serve i (.set key p ttl) d).1 := by rw [hr]
  refine ⟨?_, clock_serve _, fun j k => ?_⟩
  · rw [reply_serve hs, Store.reply_serve_set hp]
  · by_cases hij : j = i
    · subst hij
      rw [record?_of_behind (behind_serve_self hs _), record?_of_behind hs,
        Store.record?_serve_set hp]
      simp
    · rw [record?_serve_of_ne hd hij, if_neg fun h => hij h.1]

/-- **A removal** succeeds, and drops the record of its tier and key. -/
theorem serve_remove {r : Except Failure Unit}
    (hr : (handler m).serve i (.remove key) d = (r, d')) :
    r = .ok () ∧ d'.clock = d.clock ∧ ∀ j k, record? m j k d' =
      if j = i ∧ k = key then none else record? m j k d := by
  obtain ⟨s, hs, hp⟩ := hh i hi
  obtain rfl : d' = ((handler m).serve i (.remove key) d).2 := by rw [hr]
  obtain rfl : r = ((handler m).serve i (.remove key) d).1 := by rw [hr]
  refine ⟨?_, clock_serve _, fun j k => ?_⟩
  · rw [reply_serve hs, Store.reply_serve_remove hp]
  · by_cases hij : j = i
    · subst hij
      rw [record?_of_behind (behind_serve_self hs _), record?_of_behind hs,
        Store.record?_serve_remove hp]
      simp
    · rw [record?_serve_of_ne hd hij, if_neg fun h => hij h.1]

end Commands

end TwoTier.Deployment
