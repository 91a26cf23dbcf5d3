import TwoTier.Proofs.Deployment.Recalling

/-!
# Stores that are maps

The strongest contract of all: a store that fails nothing and behaves as a map does, at least under
one key. `Handler.Maps` states it for the one store behind a handler, and `Store.watch_maps` says
that the stores of this library meet it as long as no time passes, if they keep what they are given
and fail no command on the key (`Store.Mapping`).
-/

namespace TwoTier

/-- **The store of a handler is a map under a key**, in the states of `I`: it fails no command on
the key, and `held` is what it holds there. -/
structure Handler.Maps {σ : Type} (h : Handler Unit σ) (I : σ → Prop) (key : String)
    (held : σ → Option Bytes) : Prop where
  serve : ∀ c st, I st → I (h.serve () c st).2
  read : ∀ st, I st → (h.serve () (.get key) st).1 = .ok (held st)
  held_read : ∀ st, I st → held (h.serve () (.get key) st).2 = held st
  write : ∀ p ttl st, I st → (h.serve () (.set key p ttl) st).1 = .ok ()
  held_write : ∀ p ttl st, I st → held (h.serve () (.set key p ttl) st).2 = some p
  remove : ∀ st, I st → (h.serve () (.remove key) st).1 = .ok ()
  held_remove : ∀ st, I st → held (h.serve () (.remove key) st).2 = none
  /-- Commands on other keys change nothing under this one; they may fail. -/
  others : ∀ c st, I st → c.key ≠ key → held (h.serve () c st).2 = held st

namespace Store

/-- **A store is a map under a key**, as long as no time passes. -/
structure Mapping (c : Clock) (key : String) (s : Store) : Prop where
  keeping : s.Keeping c
  recalling : s.Recalling key
  writes : ∀ p ttl, s.FailsNo (.set key p ttl)
  removes : s.FailsNo (.remove key)

section Mapping

variable {s : Store} {c : Clock} {key k : String}

theorem closed_mapping (c : Clock) (key : String) : Closed (Mapping c key) := fun c' x s hs =>
  ⟨closed_keeping c c' x s hs.keeping, closed_recalling key c' x s hs.recalling,
    fun p ttl => closed_failsNo _ c' x s (hs.writes p ttl), closed_failsNo _ c' x s hs.removes⟩

/-- What a store does not have, it does not hold. -/
theorem Recalling.held_eq_none (hs : s.Recalling key) (h : s.content? key = none) :
    s.held c key = none :=
  hs.truthful.reply_serve_get h hs.reply_serve_get

/-- A removal leaves what is held under other keys. -/
theorem held_serve_remove_of_ne (hk : key ≠ k) :
    (s.serve c (.remove key)).store.held c k = s.held c k := by
  -- every kind of store takes the one key out of its records
  have herase {α : Type} (m : TextMap α) : (m.erase key).find? k = m.find? k :=
    (TextMap.find?_erase ..).trans (if_neg hk.symm)
  cases s with
  | unbounded s | bounded s =>
    exact congrArg (fun r => (Entry.lookup c.now r).payload?) (herase s.records)
  | ceiling s => simp only [serve, held_ceiling, Ceiling.held?, Ceiling.remove, herase]
  | recording s =>
    simp only [serve, Recording.serve]
    split
    · rfl
    · simp only [held, herase]
  | redis s | memcached s =>
    simp only [serve, Redis.serve, Memcached.serve]
    split
    · rfl
    · simp only [held, Server.read, Server.delete, herase]

/-- No command changes what is held under other keys. -/
theorem Keeping.held_serve_of_ne {x : Command} (hs : s.Keeping c) (hk : x.key ≠ k) :
    (s.serve c x).store.held c k = s.held c k := by
  cases x with
  | get key => exact held_serve_get hs key k
  | set key p ttl =>
    -- a write that fails leaves everything as it is
    cases hr : (s.serve c (.set key p ttl)).reply with
    | ok u => rw [held_serve_set hs hr, if_neg fun h => hk h.symm]
    | error f => exact held_serve_set_of_error hr k
  | remove key => exact held_serve_remove_of_ne hk

end Mapping

/-- **The stores of this library are maps**, as long as no time passes. -/
theorem watch_maps (c : Clock) (key : String) :
    (watch c).Maps (fun w => w.store.Mapping c key) key fun w => w.store.held c key where
  serve x w hw := closed_mapping c key c x w.store hw
  read _ hw := hw.recalling.reply_serve_get
  held_read _ hw := held_serve_get hw.keeping key key
  write p ttl _ hw := (hw.writes p ttl).reply_serve_set
  held_write p ttl _ hw :=
    (held_serve_set hw.keeping (hw.writes p ttl).reply_serve_set key).trans (if_pos rfl)
  remove _ hw := hw.removes.reply_serve_remove
  held_remove w hw :=
    -- the record is gone, and what a store does not have it does not hold
    (closed_recalling key c _ w.store hw.recalling).held_eq_none
      (content?_serve_remove hw.removes.reply_serve_remove)
  others _ _ hw hk := hw.keeping.held_serve_of_ne hk

end Store

end TwoTier
