import TwoTier.Proofs.Entry
import TwoTier.Store

/-!
# The records of stores in the process

The three kinds of stores in the process keep records with a deadline. `Store.record?` is the record
under a key, stale or not, and `Store.found` is what a reader finds. In these terms the kinds do the
same: they never fail, a write replaces the record of its key (`record?_serve_set`), a removal
drops it (`record?_serve_remove`), and a read leaves all records as they are, but for a stale one
under its key (`record?_serve_get`).

A store is **plain** if it has no ceilings. What is found in it depends on the record and the wall
clock alone (`Plain.found`); a store with ceilings may also hold a record back.
-/

namespace TwoTier

/-! ### Stale records are dropped -/

section Purge

variable {α : Type} {c : Clock} {now : Nat} {key : String}

/-- Erasing a key either makes no difference to what is found under another, or finds nothing under
the key itself. -/
theorem TextMap.find?_erase_or (m : TextMap α) (key k : String) :
    (m.erase key).find? k = m.find? k ∨ k = key ∧ (m.erase key).find? k = none := by
  rw [find?_erase]
  by_cases hk : k = key
  · exact .inr ⟨hk, if_pos hk⟩
  · exact .inl (if_neg hk)

/-- The records without the one under a key, if that is stale. -/
def TextMap.dropStale (m : TextMap Bytes) (now : Nat) (key : String) : TextMap Bytes :=
  if Entry.lookup now (m.find? key) = .stale then m.erase key else m

theorem TextMap.dropStale_of_ne {m : TextMap Bytes} (h : Entry.lookup now (m.find? key) ≠ .stale) :
    m.dropStale now key = m :=
  if_neg h

/-- Only the record of the key can be gone, and only if it was stale. -/
theorem TextMap.find?_dropStale (m : TextMap Bytes) (now : Nat) (key k : String) :
    (m.dropStale now key).find? k =
      if k = key ∧ Entry.lookup now (m.find? key) = .stale then none else m.find? k := by
  unfold dropStale
  -- either the key is erased, or nothing is
  by_cases hs : Entry.lookup now (m.find? key) = .stale
  · simp only [hs, if_true, and_true, find?_erase]
  · rw [if_neg hs, if_neg fun h => hs h.2]

/-- A record is still there, or it was the stale one under the key. -/
theorem TextMap.find?_dropStale_or (m : TextMap Bytes) (now : Nat) (key k : String) :
    (m.dropStale now key).find? k = m.find? k ∨
      k = key ∧ Entry.lookup now (m.find? key) = .stale ∧
        (m.dropStale now key).find? k = none := by
  rw [find?_dropStale]
  by_cases h : k = key ∧ Entry.lookup now (m.find? key) = .stale
  · exact .inr ⟨h.1, h.2, if_pos h⟩
  · exact .inl (if_neg h)

/-- A purge looks at the record itself, a reader at what it is; both drop it in the same cases. -/
theorem TextMap.purge_eq {σ : Type} (m : TextMap Bytes) (now : Nat) (key : String)
    (f : TextMap Bytes → σ) :
    (match m.find? key with
      | some raw => if Entry.isStale now raw then f (m.erase key) else f m
      | none => f m) = f (m.dropStale now key) := by
  unfold dropStale
  cases m.find? key with
  | none => rfl
  | some raw =>
    -- a record is stale to a purge exactly if it is to a reader
    rcases Entry.lookup_some now raw with ⟨hs, hf⟩ | ⟨hs, p, hf⟩
    · simp only [hs, hf, if_true]
    · simp only [hs, hf, Bool.false_eq_true, if_false, reduceCtorEq]

/-- A purge of the unbounded kind drops a stale record and counts nothing. -/
theorem Unbounded.purgeStale_eq (s : Unbounded) (now : Nat) (key : String) :
    s.purgeStale now key = { s with records := s.records.dropStale now key } :=
  s.records.purge_eq now key fun m => ({ s with records := m } : Unbounded)

/-- So does a purge of the bounded kind. -/
theorem Bounded.purgeStale_eq (s : Bounded) (now : Nat) (key : String) :
    s.purgeStale now key = { s with records := s.records.dropStale now key } :=
  s.records.purge_eq now key fun m => ({ s with records := m } : Bounded)

/-- A record that is not held stays, however stale it is. -/
theorem Ceiling.records_purgeStale (c : Clock) (key : String) (s : Ceiling) :
    (s.purgeStale c key).records = s.records ∨
      (s.purgeStale c key).records = s.records.erase key := by
  unfold purgeStale
  -- nothing is held, or what is held is looked at
  split
  · split
    · exact .inr rfl
    · exact .inl rfl
  · exact .inl rfl

/-- What is held is there. The converse fails: what is over a ceiling is there and not held. -/
theorem Ceiling.find?_of_held? {s : Ceiling} {r : Ceiling.Timed} (h : s.held? c key = some r) :
    s.records.find? key = some r :=
  (Option.filter_eq_some_iff.mp h).1

/-- Being used does not change a record. -/
theorem Ceiling.find?_use {s : Ceiling} {r : Ceiling.Timed} (h : s.held? c key = some r)
    (k : String) :
    ((s.use c key r).records.find? k).map Timed.raw = (s.records.find? k).map Timed.raw := by
  simp only [use, TextMap.find?_insert]
  split
  · next hk => rw [hk, find?_of_held? h]; rfl
  · rfl

/-! No read changes the ceilings. -/

/-- A purge keeps the ceilings. -/
theorem Ceiling.limits_purgeStale (s : Ceiling) (c : Clock) (key : String) :
    (s.purgeStale c key).limits = s.limits := by
  unfold purgeStale
  split
  · split <;> rfl
  · rfl

/-- A read keeps the ceilings. -/
theorem Ceiling.limits_get (s : Ceiling) (c : Clock) (key : String) :
    (s.get c key).2.limits = s.limits := by
  unfold get
  split
  · rfl
  · split
    · rfl
    · exact limits_purgeStale (s.use c key _) c key

/-- A check for a record keeps the ceilings. -/
theorem Ceiling.limits_contains (s : Ceiling) (c : Clock) (key : String) :
    (s.contains c key).2.limits = s.limits := by
  unfold contains
  split <;> rfl

end Purge

/-! ### A read and its exits

A read of a plain store ends in one of three ways. Which, depends on the record alone, so what holds
of all three ends is shown once, whatever the store counts. -/

namespace Entry

/-- What is found where there is the given record, or none, with what becomes of the store that the
record is from. -/
def exits {σ : Type} (now : Nat) (raw? : Option Bytes) (hit miss drop : σ) : Found × σ :=
  match lookup now raw? with
  | .live p => (.live p, hit)
  | .absent => (.absent, miss)
  | .stale => (.stale, drop)

section Exits

variable {σ : Type} (now : Nat) (raw? : Option Bytes) {hit miss drop : σ}

/-- What is found depends on the record alone, whatever is made of the store. -/
@[simp] theorem exits_fst : (exits now raw? hit miss drop).1 = lookup now raw? := by
  unfold exits
  cases lookup now raw? <;> rfl

/-- What holds of the store at each exit, holds of the store after the read. -/
theorem exits_of {P : Found → σ → Prop} (hhit : ∀ p, P (.live p) hit) (hmiss : P .absent miss)
    (hdrop : P .stale drop) : P (lookup now raw?) (exits now raw? hit miss drop).2 := by
  unfold exits
  cases lookup now raw? with
  | live p => exact hhit p
  | absent => exact hmiss
  | stale => exact hdrop

/-- What is the same at each exit, is the same after the read. -/
theorem exits_congr {β : Type} {b : β} (f : σ → β) (hhit : f hit = b) (hmiss : f miss = b)
    (hdrop : f drop = b) : f (exits now raw? hit miss drop).2 = b :=
  exits_of now raw? (P := fun _ s => f s = b) (fun _ => hhit) hmiss hdrop

/-- What is done at the stale exit may as well be done afterwards. -/
theorem exits_drop (f : σ → σ) :
    exits now raw? hit miss (f drop) =
      (let r := exits now raw? hit miss drop
       (r.1, if r.1 = .stale then f r.2 else r.2)) := by
  unfold exits
  cases lookup now raw? <;> rfl

end Exits

end Entry

/-- A read of the unbounded kind counts a hit or a miss, and drops what is stale. -/
theorem Unbounded.get_eq_exits (s : Unbounded) (now : Nat) (key : String) :
    s.get now key = Entry.exits now (s.records.find? key) { s with hits := s.hits + 1 }
      { s with misses := s.misses + 1 }
      { s with records := s.records.dropStale now key, misses := s.misses + 1 } := by
  rw [get, purgeStale_eq]
  rfl

/-- A read of the bounded kind does the same with its own counters. -/
theorem Bounded.get_eq_exits (s : Bounded) (now : Nat) (key : String) :
    s.get now key = Entry.exits now (s.records.find? key) { s with hits := s.hits + 1 }
      { s with misses := s.misses + 1 }
      { s with records := s.records.dropStale now key, misses := s.misses + 1 } := by
  rw [get, purgeStale_eq]
  rfl

/-- The records after a read, if it changes none at the exits that find nothing stale. -/
theorem TextMap.exits_dropStale {σ : Type} (m : TextMap Bytes) (now : Nat) (key : String)
    {records : σ → TextMap Bytes} {hit miss drop : σ} (hhit : records hit = m)
    (hmiss : records miss = m) (hdrop : records drop = m.dropStale now key) :
    records (Entry.exits now (m.find? key) hit miss drop).2 = m.dropStale now key := by
  unfold Entry.exits
  cases hf : Entry.lookup now (m.find? key) with
  | live p => exact hhit.trans (dropStale_of_ne (by rw [hf]; nofun)).symm
  | absent => exact hmiss.trans (dropStale_of_ne (by rw [hf]; nofun)).symm
  | stale => exact hdrop

/-- A read drops the record of its key if that is stale, and does nothing else to the records. -/
theorem Unbounded.records_get (s : Unbounded) (now : Nat) (key : String) :
    (s.get now key).2.records = s.records.dropStale now key := by
  rw [get_eq_exits]
  exact s.records.exits_dropStale now key rfl rfl rfl

/-- The same of the bounded kind. -/
theorem Bounded.records_get (s : Bounded) (now : Nat) (key : String) :
    (s.get now key).2.records = s.records.dropStale now key := by
  rw [get_eq_exits]
  exact s.records.exits_dropStale now key rfl rfl rfl

namespace Store

/-- The stores in the process. -/
def InProcess : Store → Prop
  | .unbounded _ => True
  | .bounded _ => True
  | .ceiling _ => True
  | _ => False

/-- The stores in the process that have no ceilings. -/
def Plain : Store → Prop
  | .unbounded _ => True
  | .bounded _ => True
  | _ => False

/-- A plain store is in the process. -/
theorem Plain.inProcess {s : Store} (hs : s.Plain) : s.InProcess := by
  cases s with
  | unbounded s | bounded s => trivial
  | recording s | ceiling s | redis s | memcached s => exact hs.elim

/-- The stores in the process are of two sorts. -/
theorem InProcess.plain_or_ceiling {s : Store} (hs : s.InProcess) :
    s.Plain ∨ ∃ s', s = .ceiling s' := by
  cases s with
  | unbounded s | bounded s => exact .inl trivial
  | ceiling s => exact .inr ⟨s, rfl⟩
  | recording s | redis s | memcached s => exact hs.elim

/-- The record under a key, stale or not, and held or not. -/
def record? (key : String) : Store → Option Bytes
  | .unbounded s => s.records.find? key
  | .bounded s => s.records.find? key
  | .ceiling s => (s.records.find? key).map Ceiling.Timed.raw
  | _ => none

/-- What a reader finds under a key. -/
def found (c : Clock) (key : String) : Store → Entry.Found
  | .unbounded s => Entry.lookup c.now (s.records.find? key)
  | .bounded s => Entry.lookup c.now (s.records.find? key)
  | .ceiling s => Entry.lookup c.now ((s.held? c key).map Ceiling.Timed.raw)
  | _ => .absent

/-! ### What is found -/

section Found

variable {s : Store} {c : Clock} {key : String}

/-- What is found in a plain store depends on the record and the wall clock alone. -/
theorem Plain.found (hs : s.Plain) : s.found c key = Entry.lookup c.now (s.record? key) := by
  cases s with
  | unbounded s | bounded s => rfl
  | recording s | ceiling s | redis s | memcached s => exact hs.elim

/-- What is found is found in the record. -/
theorem lookup_of_found (h : s.found c key ≠ .absent) :
    s.found c key = Entry.lookup c.now (s.record? key) := by
  cases s with
  | unbounded s | bounded s => rfl
  | recording s | redis s | memcached s => exact absurd rfl h
  | ceiling s =>
    -- only a store with ceilings may find less than it has
    cases hr : s.held? c key with
    | none => exact absurd (by simp [Store.found, hr, Entry.lookup]) h
    | some r => simp [Store.found, record?, hr, Ceiling.find?_of_held? hr]

/-- A payload that is found is that of the record, which is then live by the wall clock. -/
theorem record?_of_found_live {p : Bytes} (h : s.found c key = .live p) :
    ∃ raw, s.record? key = some raw ∧ Entry.decode c.now raw = .live p := by
  rw [lookup_of_found (by simp [h])] at h
  exact Entry.lookup_eq_live_iff.mp h

/-- What is found to be stale is a record, and a stale one. -/
theorem record?_of_found_stale (h : s.found c key = .stale) :
    ∃ raw, s.record? key = some raw ∧ Entry.isStale c.now raw = true := by
  rw [lookup_of_found (by simp [h])] at h
  exact Entry.lookup_eq_stale_iff.mp h

end Found

/-! ### Commands -/

section Serve

variable {s : Store} {c : Clock} {key : String}

/-- A read gives what is found. -/
theorem reply_serve_get (hs : s.InProcess) :
    (s.serve c (.get key)).reply = .ok (s.found c key).payload? := by
  cases s with
  | recording s | redis s | memcached s => exact hs.elim
  -- by kind: without ceilings the reply is what is looked up in the record
  | unbounded s =>
    simp only [serve, found, Unbounded.get_eq_exits, Entry.exits_fst]
    rfl
  | bounded s =>
    simp only [serve, found, Bounded.get_eq_exits, Entry.exits_fst]
    rfl
  | ceiling s =>
    simp only [serve, Ceiling.get, found]
    -- with ceilings it is looked up in what is held
    cases s.held? c key with
    | none => rfl
    | some r =>
      simp only [Option.map_some, Entry.lookup]
      cases Entry.decode c.now r.raw <;> rfl

/-- A write always succeeds. -/
theorem reply_serve_set (hs : s.InProcess) (p : Bytes) (ttl : Duration) :
    (s.serve c (.set key p ttl)).reply = .ok () := by
  cases s with
  | unbounded s | bounded s | ceiling s => rfl
  | recording s | redis s | memcached s => exact hs.elim

/-- A removal always succeeds, also of what is not there. -/
theorem reply_serve_remove (hs : s.InProcess) : (s.serve c (.remove key)).reply = .ok () := by
  cases s with
  | unbounded s | bounded s | ceiling s => rfl
  | recording s | redis s | memcached s => exact hs.elim

/-- **A write makes the record of its key anew**, and leaves those of other keys. -/
theorem record?_serve_set (hs : s.InProcess) (p : Bytes) (ttl : Duration) (k : String) :
    (s.serve c (.set key p ttl)).store.record? k =
      if k = key then some (Entry.encode c.now p ttl) else s.record? k := by
  cases s with
  | recording s | redis s | memcached s => exact hs.elim
  | unbounded s | bounded s => exact TextMap.find?_insert ..
  | ceiling s =>
    simp only [serve, record?, Ceiling.set, TextMap.find?_insert]
    split <;> rfl

/-- **A removal drops the record of its key**, and leaves those of other keys. -/
theorem record?_serve_remove (hs : s.InProcess) (k : String) :
    (s.serve c (.remove key)).store.record? k = if k = key then none else s.record? k := by
  cases s with
  | recording s | redis s | memcached s => exact hs.elim
  | unbounded s | bounded s => exact TextMap.find?_erase ..
  | ceiling s =>
    simp only [serve, record?, Ceiling.remove, TextMap.find?_erase]
    split <;> rfl

/-- A read leaves the records as they are, but for a stale one under its key. -/
theorem record?_serve_get (hs : s.InProcess) (c : Clock) (key k : String) :
    (s.serve c (.get key)).store.record? k = s.record? k ∨
      k = key ∧ s.found c key = .stale ∧ (s.serve c (.get key)).store.record? k = none := by
  cases s with
  | recording s | redis s | memcached s => exact hs.elim
  | unbounded s =>
    have hget := s.records.find?_dropStale_or c.now key k
    rw [← s.records_get] at hget
    exact hget
  | bounded s =>
    have hget := s.records.find?_dropStale_or c.now key k
    rw [← s.records_get] at hget
    exact hget
  | ceiling s =>
    simp only [serve, Ceiling.get, found, record?]
    cases hr : s.held? c key with
    | none => exact .inl rfl
    | some r =>
      -- the record is used before it is looked at, which does not change it
      have huse := Ceiling.find?_use hr k
      simp only [Option.map_some]
      cases hf : Entry.lookup c.now (some r.raw) with
      | live p => exact .inl huse
      | absent =>
        simp only [Entry.lookup] at hf
        split at hf <;> cases hf
      | stale =>
        dsimp only
        -- without any time to be idle in, the use ends as it begins, and nothing is dropped
        rcases (s.use c key r).records_purgeStale c key with hsame | hdrop
        · rw [hsame]
          exact .inl huse
        · rw [hdrop]
          rcases (s.use c key r).records.find?_erase_or key k with hk | ⟨hk, hnone⟩
          · exact .inl (by rw [hk, huse])
          · exact .inr ⟨hk, rfl, by rw [hnone]; rfl⟩

end Serve

/-! ### Classes of stores -/

/-- A class of stores that no command leads out of. -/
def Closed (R : Store → Prop) : Prop := ∀ c x s, R s → R (s.serve c x).store

/-- No command leads to a store of another sort. -/
theorem closed_inProcess : Closed InProcess := by
  intro c x s hs
  cases s with
  | unbounded s | bounded s | ceiling s => cases x <;> trivial
  | recording s | redis s | memcached s => exact hs.elim

/-- Nor does one to a store with ceilings. -/
theorem closed_plain : Closed Plain := by
  intro c x s hs
  cases s with
  | unbounded s | bounded s => cases x <;> trivial
  | recording s | ceiling s | redis s | memcached s => exact hs.elim

section Closed

variable {R : Store → Prop} {c : Clock}

/-- No script leads out of a class that commands do not lead out of, as it is put together from
commands. -/
theorem Closed.watch {α : Type} (hR : Closed R) (x : Script Unit α) (w : Watched)
    (hw : R w.store) : R (x.run (Store.watch c) w).2.store := by
  -- along the script; what is reported on the way leaves the store as it is
  induction x generalizing w with
  | done a => exact hw
  | ask i x k ih => exact ih _ _ (hR c x _ hw)
  | check i k ih => exact ih _ _ hw
  | note e k ih => exact ih _ hw
  | compute k ih => exact ih _ hw

/-- Nor does the question for its health. -/
theorem Closed.checkHealth (hR : Closed R) {s : Store} (hs : R s) :
    R (s.checkHealth c).store := by
  cases s with
  | recording s => exact hs
  | unbounded s | bounded s | ceiling s | redis s | memcached s =>
    -- the probe is a script like any other
    exact hR.watch (Probe.script _) ⟨_, [], []⟩ hs

end Closed

end Store

end TwoTier
