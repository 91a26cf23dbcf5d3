import TwoTier.Proofs.Deployment.Records

/-!
# Stores that keep what they are given

The contract that callers rely on: a store gives back the bytes of the last write that succeeded,
and a write that fails changes nothing. `Handler.Keeps` states it for all stores behind a handler,
by what each **holds** under each key.

The stores of this library meet it as long as no time passes (`Store.Keeping`): those in the process
do if their ceilings leave any room at all, and those on a server if the server keeps what it
acknowledges. So a deployment of such stores meets it (`Deployment.handler_keeps`), and what a tier
holds is what a read of it would give (`Deployment.held`).
-/

namespace TwoTier

/-- **The stores of a handler keep what they are given**, in the states of `I`: `held i key` is what
the store `i` holds under a key. -/
structure Handler.Keeps {ι σ : Type} [DecidableEq ι] (h : Handler ι σ) (I : σ → Prop)
    (held : ι → String → σ → Option Bytes) : Prop where
  serve : ∀ i c st, I st → I (h.serve i c st).2
  note : ∀ e st, I st → I (h.note e st)
  held_note : ∀ i k e st, held i k (h.note e st) = held i k st
  /-- A read that does not fail gives what is held, … -/
  read : ∀ i k st found, I st → (h.serve i (.get k) st).1 = .ok found → found = held i k st
  /-- … and no read changes that. -/
  held_read : ∀ i k j k' st, I st → held j k' (h.serve i (.get k) st).2 = held j k' st
  /-- What was written is held, … -/
  written : ∀ i k p ttl st, I st → (h.serve i (.set k p ttl) st).1 = .ok () → ∀ j k',
    held j k' (h.serve i (.set k p ttl) st).2 = if j = i ∧ k' = k then some p else held j k' st
  /-- … and a write that fails changes nothing. -/
  unwritten : ∀ i k p ttl st f, I st → (h.serve i (.set k p ttl) st).1 = .error f → ∀ j k',
    held j k' (h.serve i (.set k p ttl) st).2 = held j k' st

/-! ### Stores with ceilings -/

namespace Ceiling

/-- The ceilings leave room for records at an uptime. -/
structure Roomy (l : Limits) (uptime : Nat) : Prop where
  uptime_lt : uptime < lastUptime
  lifetime_pos : 0 < l.lifetime.toNanos
  idle_pos : ∀ d, l.idle = some d → 0 < d.toNanos

section Roomy

variable {s : Ceiling} {c : Clock} {key : String} {r : Timed}

theorem lt_spanEnd {uptime : Nat} (hu : uptime < lastUptime) {d : Duration} (hd : 0 < d.toNanos) :
    uptime < spanEnd uptime d :=
  Nat.lt_min.mpr ⟨by omega, hu⟩

/-- The lifetime of a record that is held is not over. -/
theorem Timed.lt_of_isHeld {l : Limits} {uptime : Nat} (hr : r.isHeld l uptime = true) :
    uptime < spanEnd r.written l.lifetime := by
  unfold Timed.isHeld at hr
  rw [Bool.and_eq_true] at hr
  exact of_decide_eq_true hr.1

/-- A record that is used now is held if its lifetime is not over. -/
theorem Roomy.isHeld_used {l : Limits} {uptime : Nat} (hl : Roomy l uptime) (r : Timed)
    (hr : uptime < spanEnd r.written l.lifetime) :
    { r with used := uptime }.isHeld l uptime = true := by
  unfold Timed.isHeld
  rw [Bool.and_eq_true]
  refine ⟨decide_eq_true hr, ?_⟩
  cases hi : l.idle with
  | none => rfl
  | some d => exact decide_eq_true (lt_spanEnd hl.uptime_lt (hl.idle_pos d hi))

/-- A use changes neither what is held nor for which keys. -/
theorem Roomy.held?_use (hl : Roomy s.limits c.uptime) (h : s.held? c key = some r) (k : String) :
    ((s.use c key r).held? c k).map Timed.raw = (s.held? c k).map Timed.raw := by
  by_cases hk : k = key
  · subst hk
    have hr : r.isHeld s.limits c.uptime = true := (Option.filter_eq_some_iff.mp h).2
    -- the record is still within its lifetime, and its idle time begins anew
    have hused : (s.use c k r).held? c k = some { r with used := c.uptime } := by
      unfold held? use
      rw [TextMap.find?_insert_self]
      exact Option.filter_eq_some_iff.mpr ⟨rfl, hl.isHeld_used r (Timed.lt_of_isHeld hr)⟩
    rw [h, hused]
    rfl
  · simp [held?, use, TextMap.find?_insert, hk]

/-- What is written is held, and all else as before. -/
theorem Roomy.held?_set (hl : Roomy s.limits c.uptime) (p : Bytes) (ttl : Duration) (k : String) :
    ((s.set c key p ttl).held? c k).map Timed.raw =
      if k = key then some (Entry.encode c.now p ttl) else (s.held? c k).map Timed.raw := by
  by_cases hk : k = key
  · subst hk
    -- a new record is written and used now, so that neither of its times is over
    have hnew : (s.set c k p ttl).held? c k =
        some ⟨Entry.encode c.now p ttl, c.uptime, c.uptime⟩ := by
      unfold held? set
      rw [TextMap.find?_insert_self]
      exact Option.filter_eq_some_iff.mpr ⟨rfl, hl.isHeld_used ⟨_, c.uptime, c.uptime⟩
        (lt_spanEnd hl.uptime_lt hl.lifetime_pos)⟩
    rw [hnew, if_pos rfl]
    rfl
  · simp [held?, set, TextMap.find?_insert, hk]

/-- Dropping a stale record leaves what is held as it is, but for that record. -/
theorem held?_purgeStale (s : Ceiling) (c : Clock) (key k : String) :
    (s.purgeStale c key).held? c k = s.held? c k ∨
      k = key ∧ (s.purgeStale c key).held? c k = none := by
  -- only a record that is held and stale is dropped
  unfold purgeStale
  split
  · split
    · by_cases hk : k = key
      · exact .inr ⟨hk, by simp [held?, hk]⟩
      · exact .inl (by simp [held?, TextMap.find?_erase, hk])
    · exact .inl rfl
  · exact .inl rfl

end Roomy

end Ceiling

/-! ### Stores -/

namespace Store

/-- The payload that a store holds under a key. -/
def held (c : Clock) (key : String) : Store → Option Bytes
  | .recording s => (s.data.find? key).map (·.1)
  | .redis s => s.server.read key
  | .memcached s => s.server.read key
  | s => (s.found c key).payload?

/-- The server keeps what it acknowledges, and answers with what it has. -/
structure Honest (s : Server) : Prop where
  keeps : s.dropsWrites = false
  reads : s.readsAs = none

/-- An honest server stays so, -/
theorem Honest.write {s : Server} (hs : Honest s) (key : String) (p : Bytes) :
    Honest (s.write key p) := by
  unfold Server.write
  split
  · exact hs
  · exact ⟨hs.keeps, hs.reads⟩

/-- and reads what was written. -/
theorem Honest.read_write {s : Server} (hs : Honest s) (key : String) (p : Bytes) (k : String) :
    (s.write key p).read k = if k = key then some p else s.read k := by
  unfold Server.write Server.read
  rw [hs.keeps, if_neg Bool.false_ne_true, hs.reads]
  exact TextMap.find?_insert ..

/-- **A store keeps what it is given**, as long as no time passes. -/
def Keeping (c : Clock) : Store → Prop
  | .ceiling s => Ceiling.Roomy s.limits c.uptime
  | .redis s => Honest s.server
  | .memcached s => Honest s.server
  | _ => True

section Keeping

variable {c : Clock} {s : Store} {key : String}

/-- No command leads out of the stores that keep what they are given. -/
theorem closed_keeping (c : Clock) : Closed (Keeping c) := by
  intro c' x s hs
  cases s with
  | recording s | unbounded s | bounded s => cases x <;> trivial
  -- the ceilings stay as they are, and so does the uptime in question
  | ceiling s =>
    cases x with
    | get key =>
      have hl : Ceiling.Roomy (s.get c' key).2.limits c.uptime := by
        rw [Ceiling.limits_get]
        exact hs
      exact hl
    | set | remove => exact hs
  -- a command that fails leaves the server as it was
  | redis s =>
    cases x <;> simp only [serve, Redis.serve] <;> split
    any_goals exact hs
    · exact Honest.write hs ..
    · exact ⟨hs.keeps, hs.reads⟩
  | memcached s =>
    cases x <;> simp only [serve, Memcached.serve] <;> split
    any_goals exact hs
    · exact Honest.write hs ..
    · exact ⟨hs.keeps, hs.reads⟩

/-- What a store in the process holds is what a reader finds live. -/
theorem held_of_inProcess (hs : s.InProcess) : s.held c key = (s.found c key).payload? := by
  cases s with
  | unbounded s | bounded s | ceiling s => rfl
  | recording s | redis s | memcached s => exact hs.elim

/-- What a read gives is held. -/
theorem eq_held_of_reply {found : Option Bytes}
    (hr : (s.serve c (.get key)).reply = .ok found) : found = s.held c key := by
  cases s with
  | unbounded s | bounded s | ceiling s =>
    rw [reply_serve_get (by trivial)] at hr
    exact (Except.ok.inj hr).symm
  -- the stores that can fail have answered, so they were not told to
  | recording s =>
    simp only [serve, Recording.serve, Recording.answer] at hr
    split at hr
    · cases hr
    · exact (Except.ok.inj hr).symm
  | redis s =>
    simp only [serve, Redis.serve] at hr
    split at hr
    · cases hr
    · exact (Except.ok.inj hr).symm
  | memcached s =>
    simp only [serve, Memcached.serve] at hr
    split at hr
    · cases hr
    · exact (Except.ok.inj hr).symm

/-- A plain store holds the same after a read, though a stale record may be gone. -/
theorem Plain.held_serve_get (hs : s.Plain) (c : Clock) (key k : String) :
    (s.serve c (.get key)).store.held c k = s.held c k := by
  have hs' : (s.serve c (.get key)).store.Plain := closed_plain c _ s hs
  rw [held_of_inProcess hs.inProcess, held_of_inProcess hs'.inProcess, hs.found, hs'.found]
  rcases record?_serve_get hs.inProcess c key k with hsame | ⟨rfl, hstale, hgone⟩
  · rw [hsame]
  · rw [← hs.found, hstale, hgone]
    rfl

/-- With ceilings, it is what is live in a record that is held. -/
theorem held_ceiling (s : Ceiling) (c : Clock) (k : String) :
    (Store.ceiling s).held c k =
      (Entry.lookup c.now ((s.held? c k).map Ceiling.Timed.raw)).payload? := rfl

/-- So does a store with ceilings, as a use of a record does not end its time. -/
theorem held_get_ceiling {s : Ceiling} (hl : Ceiling.Roomy s.limits c.uptime) (key k : String) :
    (Store.ceiling (s.get c key).2).held c k = (Store.ceiling s).held c k := by
  unfold Ceiling.get
  cases hr : s.held? c key with
  | none => rfl
  | some r =>
    have huse : (Store.ceiling (s.use c key r)).held c k = (Store.ceiling s).held c k := by
      rw [held_ceiling, held_ceiling, hl.held?_use hr k]
    dsimp only
    cases hf : Entry.lookup c.now (some r.raw) with
    | live p => exact huse
    -- a record was found, so it cannot be absent
    | absent =>
      simp only [Entry.lookup] at hf
      split at hf <;> cases hf
    | stale =>
      -- the record that is dropped could not be read before either
      rcases (s.use c key r).held?_purgeStale c key k with hsame | ⟨rfl, hgone⟩
      · have hpurge : (Store.ceiling ((s.use c key r).purgeStale c key)).held c k =
            (Store.ceiling (s.use c key r)).held c k := by
          rw [held_ceiling, held_ceiling, hsame]
        exact hpurge.trans huse
      · have hnone : (Store.ceiling ((s.use c k r).purgeStale c k)).held c k = none := by
          rw [held_ceiling, hgone]
          rfl
        have hbefore : (Store.ceiling s).held c k = none := by
          rw [held_ceiling, hr, Option.map_some, hf]
          rfl
        exact hnone.trans hbefore.symm

/-- **A read changes nothing of what is held**, in stores that keep what they are given. -/
theorem held_serve_get (hs : s.Keeping c) (key k : String) :
    (s.serve c (.get key)).store.held c k = s.held c k := by
  cases s with
  | unbounded s | bounded s => exact Plain.held_serve_get (by trivial) c key k
  | ceiling s => exact held_get_ceiling hs key k
  | recording s => rfl
  | redis s =>
    simp only [serve, Redis.serve]
    split <;> rfl
  | memcached s =>
    simp only [serve, Memcached.serve]
    split <;> rfl

/-- A record that has just been written is live. -/
theorem payload?_lookup_ite {b : Prop} [Decidable b] (c : Clock) (p : Bytes) (ttl : Duration)
    (old : Option Bytes) :
    (Entry.lookup c.now (if b then some (Entry.encode c.now p ttl) else old)).payload? =
      if b then some p else (Entry.lookup c.now old).payload? := by
  have hnow : c.now ≤ maxReading := c.wall.reading_le
  split
  · rw [Entry.lookup_encode hnow]
    rfl
  · rfl

/-- What was written to a plain store is held, as no time has passed. -/
theorem Plain.held_serve_set (hs : s.Plain) (c : Clock) (key : String) (p : Bytes)
    (ttl : Duration) (k : String) :
    (s.serve c (.set key p ttl)).store.held c k = if k = key then some p else s.held c k := by
  have hs' : (s.serve c (.set key p ttl)).store.Plain := closed_plain c _ s hs
  rw [held_of_inProcess hs.inProcess, held_of_inProcess hs'.inProcess, hs.found, hs'.found,
    record?_serve_set hs.inProcess]
  exact payload?_lookup_ite ..

/-- It is held by a store with ceilings, if these leave room. -/
theorem held_set_ceiling {s : Ceiling} (hl : Ceiling.Roomy s.limits c.uptime) (key : String)
    (p : Bytes) (ttl : Duration) (k : String) :
    (Store.ceiling (s.set c key p ttl)).held c k =
      if k = key then some p else (Store.ceiling s).held c k := by
  rw [held_ceiling, held_ceiling, hl.held?_set]
  exact payload?_lookup_ite ..

/-- What was written is held. -/
theorem held_serve_set (hs : s.Keeping c) {p : Bytes} {ttl : Duration}
    (hr : (s.serve c (.set key p ttl)).reply = .ok ()) (k : String) :
    (s.serve c (.set key p ttl)).store.held c k = if k = key then some p else s.held c k := by
  cases s with
  | unbounded s | bounded s => exact Plain.held_serve_set (by trivial) c key p ttl k
  | ceiling s => exact held_set_ceiling hs key p ttl k
  -- a store that is told to fail did not succeed
  | recording s =>
    simp only [serve, Recording.serve, Recording.answer] at hr ⊢
    cases hf : s.setFault with
    | some f => simp [hf] at hr
    | none =>
      simp only [held, TextMap.find?_insert, Option.isSome_none, Bool.false_eq_true, if_false]
      split <;> rfl
  | redis s =>
    simp only [serve, Redis.serve] at hr ⊢
    split at hr
    · cases hr
    · exact Honest.read_write hs key p k
  | memcached s =>
    simp only [serve, Memcached.serve] at hr ⊢
    split at hr
    · cases hr
    · exact Honest.read_write hs key p k

/-- A write that fails changes nothing. -/
theorem held_serve_set_of_error {p : Bytes} {ttl : Duration} {f : Failure}
    (hr : (s.serve c (.set key p ttl)).reply = .error f) (k : String) :
    (s.serve c (.set key p ttl)).store.held c k = s.held c k := by
  cases s with
  -- a store in the process does not fail a write
  | unbounded s | bounded s | ceiling s =>
    rw [reply_serve_set (by trivial)] at hr
    cases hr
  | recording s =>
    simp only [serve, Recording.serve, Recording.answer] at hr ⊢
    cases hf : s.setFault with
    | some f => rfl
    | none => simp [hf] at hr
  | redis s =>
    simp only [serve, Redis.serve] at hr ⊢
    split at hr
    · rfl
    · cases hr
  | memcached s =>
    simp only [serve, Memcached.serve] at hr ⊢
    split at hr
    · rfl
    · cases hr

end Keeping

end Store

/-! ### Deployments -/

namespace Deployment

/-- The payload that a tier holds under a key. -/
def held (m : Manager) (i : Tier) (key : String) (d : Deployment) : Option Bytes :=
  (behind m i d).bind (Store.held d.clock key)

section Held

variable {m : Manager} {i j : Tier} {d : Deployment} {s : Store}

theorem held_of_behind (hs : behind m i d = some s) (key : String) :
    held m i key d = s.held d.clock key := by
  rw [held, hs, Option.bind_some]

/-- What a tier holds after a command to it. -/
theorem held_serve_self (hs : behind m i d = some s) (c : Command) (key : String) :
    held m i key ((handler m).serve i c d).2 = (s.serve d.clock c).store.held d.clock key := by
  rw [held_of_behind (behind_serve_self hs c), clock_serve]

/-- Nothing changes in the other tier. -/
theorem held_serve_of_ne (hd : m.Distinct) (hij : j ≠ i) (c : Command) (key : String) :
    held m j key ((handler m).serve i c d).2 = held m j key d := by
  rw [held, held, behind_serve_of_ne hd hij, clock_serve]

/-- **A deployment keeps what it is given**, if each of its tiers has a store of its own that does.
-/
theorem handler_keeps (hd : m.Distinct) :
    (handler m).Keeps (fun d => Hosted (Store.Keeping d.clock) m d) (held m) where
  serve i c d hh := by
    rw [clock_serve]
    exact hh.serve (Store.closed_keeping d.clock) rfl
  note e d hh := hh
  held_note i k e d := rfl
  read i k d found hh hr := by
    cases hs : behind m i d with
    | none =>
      rw [serve_of_none hs] at hr
      cases hr
    | some s =>
      rw [reply_serve hs] at hr
      rw [held_of_behind hs]
      exact Store.eq_held_of_reply hr
  held_read i k j k' d hh := by
    -- the tier that was read, or the other one
    by_cases hij : j = i
    · subst hij
      cases hs : behind m j d with
      | none => rw [serve_of_none hs]
      | some s =>
        rw [held_serve_self hs, held_of_behind hs]
        exact Store.held_serve_get (hh.of_behind hs) k k'
    · exact held_serve_of_ne hd hij _ k'
  written i k p ttl d hh hr j k' := by
    cases hs : behind m i d with
    | none =>
      -- a tier without a store keeps nothing, and says so
      rw [serve_of_none hs] at hr
      cases hr
    | some s =>
      rw [reply_serve hs] at hr
      by_cases hij : j = i
      · subst hij
        rw [held_serve_self hs, held_of_behind hs, Store.held_serve_set (hh.of_behind hs) hr]
        simp
      · rw [held_serve_of_ne hd hij, if_neg fun h => hij h.1]
  -- a write that failed was either to no store, or to one that left things as they were
  unwritten i k p ttl d f hh hr j k' := by
    cases hs : behind m i d with
    | none => rw [serve_of_none hs]
    | some s =>
      rw [reply_serve hs] at hr
      by_cases hij : j = i
      · subst hij
        rw [held_serve_self hs, held_of_behind hs]
        exact Store.held_serve_set_of_error hr k'
      · exact held_serve_of_ne hd hij _ k'

end Held

end Deployment

end TwoTier
