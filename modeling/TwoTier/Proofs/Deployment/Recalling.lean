import TwoTier.Proofs.Deployment.Contents
import TwoTier.Proofs.Deployment.Keeping

/-!
# Stores that recall

The contract of reads: what is held under a key is told to every read of it, and nothing comes to be
held but what is written. `Handler.Recalls` states it for one key and all stores behind a handler.
It leaves open how long something is held, and whether writes succeed.

The stores of this library meet it at any time, if none of their reads fails (`Store.Recalling`);
so a deployment of such stores does, also where two tiers have one store
(`Deployment.handler_recalls`).
-/

namespace TwoTier

/-- **The stores of a handler recall what they hold under a key**, in the states of `I`: `held i` is
what the store `i` holds, and `there` tells which of the stores there are. -/
structure Handler.Recalls {ι σ : Type} (h : Handler ι σ) (there : ι → Prop) (I : σ → Prop)
    (key : String) (held : ι → σ → Option Bytes) : Prop where
  serve : ∀ i c st, I st → I (h.serve i c st).2
  note : ∀ e st, I st → I (h.note e st)
  compute : ∀ st, I st → I (h.compute st)
  held_note : ∀ i e st, held i (h.note e st) = held i st
  held_compute : ∀ i st, held i (h.compute st) = held i st
  /-- A read tells what is held, … -/
  read : ∀ i st, there i → I st → (h.serve i (.get key) st).1 = .ok (held i st)
  /-- … and changes nothing that is held if that is nothing. -/
  held_read : ∀ i j st, I st → held i st = none → held j (h.serve i (.get key) st).2 = held j st
  /-- What is held after a write is what was written, or was held before. -/
  held_write : ∀ i p ttl j q st, I st → held j (h.serve i (.set key p ttl) st).2 = some q →
    q = p ∨ held j st = some q

/-! ### Stores -/

namespace Store

/-- **A store recalls what it holds under a key**: it fails no read of it, and answers reads from
what it has. -/
structure Recalling (key : String) (s : Store) : Prop where
  reads : s.FailsNo (.get key)
  truthful : s.Truthful

/-- A store without ceilings recalls what it holds, … -/
theorem Plain.recalling {s : Store} (hs : s.Plain) (key : String) : s.Recalling key := by
  refine ⟨?_, hs.inProcess.truthful⟩
  cases s with
  | unbounded s | bounded s => trivial
  | recording s | ceiling s | redis s | memcached s => exact hs.elim

/-- … and no command leads out of the stores that do. -/
theorem closed_recalling (key : String) : Closed (Recalling key) := fun c x s hs =>
  ⟨closed_failsNo _ c x s hs.reads, closed_truthful c x s hs.truthful⟩

section Recalling

variable {s : Store} {c : Clock} {key : String}

/-- A read is told what is held. -/
theorem Recalling.reply_serve_get (hs : s.Recalling key) :
    (s.serve c (.get key)).reply = .ok (s.held c key) := by
  -- in the process reads do not fail; of the others it is assumed
  by_cases hin : s.InProcess
  · rw [Store.reply_serve_get hin, held_of_inProcess hin]
  · have hreads := hs.reads
    unfold FailsNo at hreads
    cases s with
    | unbounded s | bounded s | ceiling s => exact absurd trivial hin
    | recording s =>
      simp only [serve, Recording.serve, Recording.answer, hreads]
      rfl
    | redis s | memcached s =>
      simp only [serve, Redis.serve, Memcached.serve, hreads]
      rfl

/-- What is held is held in the record. -/
theorem exists_record?_of_held (hs : s.InProcess) {p : Bytes} (h : s.held c key = some p) :
    ∃ raw, s.record? key = some raw ∧ Entry.decode c.now raw = .live p := by
  rw [held_of_inProcess hs, Entry.Found.payload?_eq_some_iff] at h
  exact record?_of_found_live h

/-- A read that finds nothing in a store with ceilings does not find it there afterwards either: a
record that is stale stays so, however often it is used. -/
theorem held_get_ceiling_of_none {s : Ceiling} (h : (Store.ceiling s).held c key = none) :
    (Store.ceiling (s.get c key).2).held c key = none := by
  cases hr : s.held? c key with
  | none =>
    have hafter : (s.get c key).2.held? c key = none := by
      simp only [Ceiling.get, hr]
      exact hr
    rw [held_ceiling, hafter]
    rfl
  | some r =>
    refine Option.eq_none_iff_forall_ne_some.mpr fun q hq => ?_
    obtain ⟨raw, hraw, hlive⟩ := exists_record?_of_held (by trivial) hq
    have hin : (Store.ceiling s).InProcess := trivial
    rcases record?_serve_get hin c key key with hsame | ⟨-, -, hgone⟩
    · -- the record is the one that was found stale
      have hrecord : (Store.ceiling s).record? key = some r.raw := by
        simp only [record?, Ceiling.find?_of_held? hr, Option.map_some]
      rw [held_ceiling, hr, Option.map_some] at h
      obtain rfl := Option.some.inj (hraw.symm.trans (hsame.trans hrecord))
      rw [Entry.lookup_eq_live_iff.mpr ⟨_, rfl, hlive⟩] at h
      cases h
    · cases hgone.symm.trans hraw

/-- A read that finds nothing leaves nothing to be found. -/
theorem held_serve_get_of_none (h : s.held c key = none) :
    (s.serve c (.get key)).store.held c key = none := by
  -- without ceilings a read changes nothing that is held
  cases s with
  | unbounded s | bounded s => exact (Plain.held_serve_get (by trivial) c key key).trans h
  | ceiling s => exact held_get_ceiling_of_none h
  | recording s => exact h
  | redis s | memcached s =>
    simp only [serve, Redis.serve, Memcached.serve]
    split <;> exact h

/-- What is held after a write is what was written, or was held before. -/
theorem Recalling.of_held_serve_set (hs : s.Recalling key) {p q : Bytes} {ttl : Duration}
    (h : (s.serve c (.set key p ttl)).store.held c key = some q) :
    q = p ∨ s.held c key = some q := by
  by_cases hin : s.InProcess
  · obtain ⟨raw, hraw, hlive⟩ := exists_record?_of_held (closed_inProcess c _ s hin) h
    rw [record?_serve_set hin, if_pos rfl] at hraw
    cases hraw
    exact .inl (Entry.decode_encode_eq_live_iff.mp hlive).1.symm
  · cases s with
    | unbounded s | bounded s | ceiling s => exact absurd trivial hin
    | recording s =>
      simp only [serve, Recording.serve] at h
      split at h
      · exact .inr h
      · left
        simpa [held, eq_comm] using h
    | redis s | memcached s =>
      simp only [serve, Redis.serve, Memcached.serve] at h
      split at h
      · exact .inr h
      · -- the server keeps the write, or only says so
        simp only [held, Server.read, Server.write] at h
        split at h
        · exact .inr h
        · have hreads : s.server.readsAs = none := hs.truthful
          left
          simpa [hreads, eq_comm] using h

end Recalling

end Store

/-! ### Deployments -/

namespace Deployment

variable {m : Manager} {R : Store → Prop} {key : String}

/-- **A deployment recalls what it holds**, if its stores do; two tiers may have one store. -/
theorem handler_recalls (m : Manager) (hR : Store.Closed R) (hrec : ∀ s, R s → s.Recalling key) :
    (handler m).Recalls (fun i => m.hasTier i = true) (Hosted R m) key (held m · key) where
  serve i c d hh := hh.serve hR rfl
  note e d hh := hh
  compute d hh := hh
  held_note i e d := rfl
  held_compute i d := rfl
  read i d hi hh := by
    -- the store behind the tier tells what it holds
    obtain ⟨s, hs, hR⟩ := hh i hi
    rw [reply_serve hs, held_of_behind hs]
    exact (hrec s hR).reply_serve_get
  held_read i j d hh hnone := by
    rcases behind_serve m i j (.get key) d with hsame | ⟨s, hs, hreply, hafter⟩
    · rw [held, held, hsame, clock_serve]
    · have hs' := hrec s (hh.of_behind hs)
      rw [hs'.reply_serve_get] at hreply
      cases hi : behind m i d with
      | none =>
        rw [serve_of_none hi] at hreply
        cases hreply
      | some s₁ =>
        -- the store behind `j` has told what the one behind `i` holds, which is nothing
        rw [reply_serve hi, (hrec s₁ (hh.of_behind hi)).reply_serve_get, ← held_of_behind hi,
          hnone] at hreply
        have hheld : s.held d.clock key = none := (Except.ok.inj hreply).symm
        rw [held_of_behind hafter, clock_serve, held_of_behind hs, hheld]
        exact Store.held_serve_get_of_none hheld
  held_write i p ttl j q d hh hq := by
    rcases behind_serve m i j (.set key p ttl) d with hsame | ⟨s, hs, -, hafter⟩
    · rw [held, hsame, clock_serve] at hq
      exact .inr hq
    · rw [held_of_behind hafter, clock_serve] at hq
      rw [held_of_behind hs]
      exact (hrec s (hh.of_behind hs)).of_held_serve_set hq

end Deployment

end TwoTier
