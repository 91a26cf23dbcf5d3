import TwoTier.Proofs.Deployment.Agreement

/-!
# What stores have

The contract of removals: a store that has removed a key has nothing under it, and gets nothing
under it but by a write. `Handler.Removes` states it for all stores behind a handler, by what each
**has** under each key, live or not, and says nothing of which removals fail.

The stores of this library meet it, whatever time it is and whichever of their commands fail, unless
a server answers reads with what it does not have (`Store.Truthful`). What a store has is its
`Store.content?`, and each command is described by what it does to that. So a deployment of such
stores meets the contract, also where two tiers have one store (`Deployment.handler_removes`).
-/

namespace TwoTier

/-- **The stores of a handler remove what they are told to**, in the states of `I`: `has i key` is
what the store `i` has under a key. -/
structure Handler.Removes {ι σ ρ : Type} (h : Handler ι σ) (I : σ → Prop)
    (has : ι → String → σ → Option ρ) : Prop where
  serve : ∀ i c st, I st → I (h.serve i c st).2
  note : ∀ e st, I st → I (h.note e st)
  compute : ∀ st, I st → I (h.compute st)
  has_note : ∀ i k e st, has i k (h.note e st) = has i k st
  has_compute : ∀ i k st, has i k (h.compute st) = has i k st
  /-- A read that does not fail finds nothing where there is nothing. -/
  read : ∀ i k st found, I st → has i k st = none → (h.serve i (.get k) st).1 = .ok found →
    found = none
  /-- Where there is nothing, only a write of the key that succeeds leads to something. -/
  comes : ∀ i c j k st, I st → has j k st = none → has j k (h.serve i c st).2 ≠ none →
    ∃ p ttl, Exchange.of i c (h.serve i c st).1 = .write i k p ttl (.ok ())
  /-- A removal that succeeds leaves nothing under its key, … -/
  removed : ∀ i k st, I st → (h.serve i (.remove k) st).1 = .ok () →
    has i k (h.serve i (.remove k) st).2 = none
  /-- … and no removal changes what is under other keys. -/
  others : ∀ i k st j k', I st → k' ≠ k → has j k' (h.serve i (.remove k) st).2 = has j k' st

/-- **Removing a missing key is not an error** to a store, in the states of `I`. -/
def Handler.RemovesMissing {ι σ ρ : Type} (h : Handler ι σ) (I : σ → Prop)
    (has : ι → String → σ → Option ρ) (key : String) (i : ι) : Prop :=
  ∀ st, I st → has i key st = none → (h.serve i (.remove key) st).1 = .ok ()

/-! ### Stores -/

namespace Server

variable {k key : String} (s : Server) (p : Bytes)

/-- A write does not change what a server answers reads with, -/
theorem readsAs_write : (s.write key p).readsAs = s.readsAs := by
  unfold write
  split <;> rfl

/-- nor which commands it fails, -/
theorem faults_write : (s.write key p).faults = s.faults := by
  unfold write
  split <;> rfl

/-- nor what it has under other keys. -/
theorem find?_write_of_ne (hk : key ≠ k) : (s.write key p).data.find? k = s.data.find? k := by
  unfold write
  split
  · rfl
  · simp [TextMap.find?_insert, hk.symm]

end Server

namespace Store

/-- What a store has under a key, be it live or not. -/
def content? (key : String) : Store → Option Bytes
  | .recording s => (s.data.find? key).map (·.1)
  | .redis s => s.server.data.find? key
  | .memcached s => s.server.data.find? key
  | s => s.record? key

/-- A store answers reads from what it has. -/
def Truthful : Store → Prop
  | .redis s => s.server.readsAs = none
  | .memcached s => s.server.readsAs = none
  | _ => True

/-- A store in the process answers from its own records. -/
theorem InProcess.truthful {s : Store} (hs : s.InProcess) : s.Truthful := by
  cases s with
  | recording s | unbounded s | bounded s | ceiling s => trivial
  | redis s | memcached s => exact hs.elim

/-- A store does not fail a command. -/
def FailsNo : Command → Store → Prop
  | .get _, .recording s => s.getFault = none
  | .set .., .recording s => s.setFault = none
  | .remove _, .recording s => s.removeFault = none
  | .get _, .redis s => s.server.faults.find? "GET" = none
  | .set .., .redis s => s.server.faults.find? "PSETEX" = none
  | .remove _, .redis s => s.server.faults.find? "DEL" = none
  | .get key, .memcached s => s.fault? "get" key = none
  | .set key .., .memcached s => s.fault? "set" key = none
  | .remove key, .memcached s => s.fault? "delete" key = none
  | _, _ => True

/-- It fails nothing. -/
theorem InProcess.failsNo {s : Store} (hs : s.InProcess) (x : Command) : s.FailsNo x := by
  cases s with
  | unbounded s | bounded s | ceiling s => cases x <;> trivial
  | recording s | redis s | memcached s => exact hs.elim

section Commands

variable {s : Store} {c : Clock} {key k : String}

/-- What a store in the process has is its record, live or not. -/
theorem content?_of_inProcess (hs : s.InProcess) : s.content? key = s.record? key := by
  cases s with
  | unbounded s | bounded s | ceiling s => rfl
  | recording s | redis s | memcached s => exact hs.elim

/-- A command changes nothing under other keys. -/
theorem content?_serve_of_ne {x : Command} (hk : x.key ≠ k) :
    (s.serve c x).store.content? k = s.content? k := by
  -- in the process the records say so, and the others are told apart by their commands
  by_cases hs : s.InProcess
  · rw [content?_of_inProcess hs, content?_of_inProcess (closed_inProcess c x s hs)]
    cases x with
    | get key => exact (record?_serve_get hs c key k).resolve_right fun h => hk h.1.symm
    | set key p ttl => rw [record?_serve_set hs, if_neg fun h => hk h.symm]
    | remove key => rw [record?_serve_remove hs, if_neg fun h => hk h.symm]
  · cases s with
    | unbounded s | bounded s | ceiling s => exact absurd trivial hs
    | recording s =>
      cases x with
      | get key => rfl
      | set key p ttl =>
        simp only [serve, Recording.serve, content?]
        split
        · rfl
        · rw [TextMap.find?_insert, if_neg fun h => hk h.symm]
      | remove key =>
        simp only [serve, Recording.serve, content?]
        split
        · rfl
        · rw [TextMap.find?_erase, if_neg fun h => hk h.symm]
    | redis s | memcached s =>
      -- a server that answers has done as it was told, and any other has done nothing
      cases x <;> simp only [serve, Redis.serve, Memcached.serve] <;> split <;>
        first
        | rfl
        | exact s.server.find?_write_of_ne _ hk
        | exact (TextMap.find?_erase ..).trans (if_neg fun h => hk h.symm)

/-- A read adds nothing. -/
theorem content?_serve_get (h : s.content? key = none) :
    (s.serve c (.get key)).store.content? key = none := by
  by_cases hs : s.InProcess
  · rw [content?_of_inProcess hs] at h
    rw [content?_of_inProcess (closed_inProcess c _ s hs)]
    rcases record?_serve_get hs c key key with hsame | ⟨-, -, hgone⟩
    · exact hsame.trans h
    · exact hgone
  · cases s with
    | unbounded s | bounded s | ceiling s => exact absurd trivial hs
    | recording s => exact h
    | redis s | memcached s =>
      simp only [serve, Redis.serve, Memcached.serve]
      split <;> exact h

/-- A write that fails changes nothing. -/
theorem content?_serve_set {p : Bytes} {ttl : Duration} {f : Failure}
    (hr : (s.serve c (.set key p ttl)).reply = .error f) :
    (s.serve c (.set key p ttl)).store.content? key = s.content? key := by
  cases s with
  | unbounded s | bounded s | ceiling s =>
    rw [reply_serve_set (by trivial)] at hr
    cases hr
  | recording s =>
    simp only [serve, Recording.serve, Recording.answer] at hr ⊢
    cases hf : s.setFault with
    | some f => rfl
    | none => simp [hf] at hr
  | redis s | memcached s =>
    simp only [serve, Redis.serve, Memcached.serve] at hr ⊢
    split at hr
    · rfl
    · cases hr

/-- A removal that succeeds leaves nothing under its key, … -/
theorem content?_serve_remove (hr : (s.serve c (.remove key)).reply = .ok ()) :
    (s.serve c (.remove key)).store.content? key = none := by
  by_cases hs : s.InProcess
  · rw [content?_of_inProcess (closed_inProcess c _ s hs), record?_serve_remove hs, if_pos rfl]
  · cases s with
    | unbounded s | bounded s | ceiling s => exact absurd trivial hs
    | recording s =>
      -- the removal succeeded, so it did not fail on purpose
      simp only [serve, Recording.serve, Recording.answer] at hr ⊢
      cases hf : s.removeFault with
      | some f => simp [hf] at hr
      | none => simp [content?]
    | redis s | memcached s =>
      simp only [serve, Redis.serve, Memcached.serve] at hr ⊢
      split at hr
      · cases hr
      · simp [content?, Server.delete]

/-- … and no removal adds anything. -/
theorem content?_serve_remove_of_none (h : s.content? key = none) :
    (s.serve c (.remove key)).store.content? key = none := by
  by_cases hs : s.InProcess
  · exact content?_serve_remove (reply_serve_remove hs)
  · cases s with
    | unbounded s | bounded s | ceiling s => exact absurd trivial hs
    | recording s =>
      simp only [serve, Recording.serve]
      split
      · exact h
      · simp [content?]
    | redis s | memcached s =>
      simp only [serve, Redis.serve, Memcached.serve]
      split
      · exact h
      · simp [content?, Server.delete]

/-- Where there is nothing, only a write of the key that succeeds leads to something. -/
theorem exists_of_content? {ι : Type} (i : ι) {x : Command} (h : s.content? k = none)
    (hcomes : (s.serve c x).store.content? k ≠ none) :
    ∃ p ttl, Exchange.of i x (s.serve c x).reply = .write i k p ttl (.ok ()) := by
  -- about the key itself a command adds only by writing it, and about others nothing changes
  by_cases hk : x.key = k
  · subst hk
    cases x with
    | get key => exact absurd (content?_serve_get h) hcomes
    | remove key => exact absurd (content?_serve_remove_of_none h) hcomes
    | set key p ttl =>
      cases hr : (s.serve c (.set key p ttl)).reply with
      | ok u => exact ⟨p, ttl, rfl⟩
      | error f => exact absurd ((content?_serve_set hr).trans h) hcomes
  · exact absurd ((content?_serve_of_ne hk).trans h) hcomes

/-- Where there is nothing, a truthful store finds nothing. -/
theorem Truthful.reply_serve_get (hs : s.Truthful) (h : s.content? key = none)
    {found : Option Bytes} (hr : (s.serve c (.get key)).reply = .ok found) : found = none := by
  by_cases hin : s.InProcess
  · rw [content?_of_inProcess hin] at h
    rw [Store.reply_serve_get hin] at hr
    cases hf : s.found c key with
    | live p =>
      obtain ⟨raw, hraw, -⟩ := record?_of_found_live hf
      cases h.symm.trans hraw
    | stale | absent =>
      rw [hf] at hr
      exact (Except.ok.inj hr).symm
  · cases s with
    | unbounded s | bounded s | ceiling s => exact absurd trivial hin
    | recording s =>
      simp only [serve, Recording.serve, Recording.answer] at hr
      split at hr
      · cases hr
      · exact (Except.ok.inj hr).symm.trans h
    | redis s | memcached s =>
      -- the server has nothing, and does not make anything up
      have hread : s.server.read key = none := by
        rw [Server.read, hs]
        exact h
      simp only [serve, Redis.serve, Memcached.serve, hread] at hr
      split at hr
      · cases hr
      · exact (Except.ok.inj hr).symm

/-- A write that is not failed succeeds, -/
theorem FailsNo.reply_serve_set {p : Bytes} {ttl : Duration} (hs : s.FailsNo (.set key p ttl)) :
    (s.serve c (.set key p ttl)).reply = .ok () := by
  unfold FailsNo at hs
  cases s with
  | unbounded s | bounded s | ceiling s => rfl
  | recording s =>
    simp only [serve, Recording.serve, Recording.answer, hs]
    rfl
  | redis s | memcached s =>
    simp only [serve, Redis.serve, Memcached.serve, hs]
    rfl

/-- and so does a removal, of a missing key too. -/
theorem FailsNo.reply_serve_remove (hs : s.FailsNo (.remove key)) :
    (s.serve c (.remove key)).reply = .ok () := by
  unfold FailsNo at hs
  cases s with
  | unbounded s | bounded s | ceiling s => rfl
  | recording s =>
    simp only [serve, Recording.serve, Recording.answer, hs]
    rfl
  | redis s | memcached s =>
    simp only [serve, Redis.serve, Memcached.serve, hs]
    rfl

end Commands

/-! No command changes how a store answers. -/

/-- No command makes a store answer with what it does not have. -/
theorem closed_truthful : Closed Truthful := by
  intro c x s hs
  cases s with
  | recording s | unbounded s | bounded s | ceiling s => cases x <;> trivial
  | redis s | memcached s =>
    cases x <;> simp only [serve, Redis.serve, Memcached.serve] <;> split
    any_goals exact hs
    all_goals exact (Server.readsAs_write ..).trans hs

/-- No command makes a store fail another. -/
theorem closed_failsNo (x : Command) : Closed (FailsNo x) := by
  intro c y s hs
  cases s with
  | unbounded s | bounded s | ceiling s => cases x <;> cases y <;> trivial
  | recording s =>
    cases y <;> simp only [serve, Recording.serve]
    · exact hs
    · split <;> cases x <;> exact hs
    · split <;> cases x <;> exact hs
  | redis s =>
    -- the faults of a server are set from outside
    have hfaults : (Redis.serve s y).2.1.server.faults = s.server.faults := by
      cases y <;> simp only [Redis.serve] <;> split
      any_goals rfl
      exact Server.faults_write ..
    cases x <;> exact (congrArg (TextMap.find? · _) hfaults).trans hs
  | memcached s =>
    have hfaults : (Memcached.serve s y).2.1.server.faults = s.server.faults := by
      cases y <;> simp only [Memcached.serve] <;> split
      any_goals rfl
      exact Server.faults_write ..
    have hfault (command k : String) :
        (Memcached.serve s y).2.1.fault? command k = s.fault? command k := by
      simp only [Memcached.fault?, hfaults]
    cases x <;> exact (hfault _ _).trans hs

end Store

/-! ### Deployments -/

namespace Deployment

/-- What a tier has under a key, be it live or not. -/
def content? (m : Manager) (i : Tier) (key : String) (d : Deployment) : Option Bytes :=
  (behind m i d).bind (Store.content? key)

section Content

variable {m : Manager} {i j : Tier} {d : Deployment} {s : Store}

theorem content?_of_behind (hs : behind m i d = some s) (key : String) :
    content? m i key d = s.content? key := by
  rw [content?, hs, Option.bind_some]

/-- The deployment with its clock set. -/
def setClock (c : Clock) (d : Deployment) : Deployment := { d with clock := c }

theorem Hosted.setClock {R : Store → Prop} (hh : Hosted R m d) (c : Clock) :
    Hosted R m (d.setClock c) := hh

/-- A command to one tier leaves the store behind another as it is, or is answered by it. -/
theorem behind_serve (m : Manager) (i j : Tier) (x : Command) (d : Deployment) :
    behind m j ((handler m).serve i x d).2 = behind m j d ∨
      ∃ s, behind m j d = some s ∧ ((handler m).serve i x d).1 = (s.serve d.clock x).reply ∧
        behind m j ((handler m).serve i x d).2 = some (s.serve d.clock x).store := by
  cases hs : behind m i d with
  | none =>
    rw [serve_of_none hs]
    exact .inl rfl
  | some s =>
    obtain ⟨r, hr, hserve⟩ := serve_eq_absorb hs x
    cases hr' : m.slot j with
    | none => exact .inl (by simp [behind, hr'])
    | some r' =>
      by_cases hid : r'.id = r.id
      · -- the two tiers have one store
        have hsame (d : Deployment) : behind m j d = behind m i d := by
          simp only [behind, hr, hr', Option.bind_some, hid]
        refine .inr ⟨s, (hsame d).trans hs, reply_serve hs x, ?_⟩
        rw [hsame, behind_serve_self hs]
      · left
        simp only [behind, hr', Option.bind_some, serve_of_slot hr]
        exact store?_serve_of_ne x d hid

variable {R : Store → Prop}

/-- **A deployment removes what it is told to**, if its stores are truthful; two tiers may have one
store. -/
theorem handler_removes (m : Manager) (hR : Store.Closed R) (htrue : ∀ s, R s → s.Truthful) :
    (handler m).Removes (Hosted R m) (content? m) where
  serve i c d hh := hh.serve hR rfl
  note e d hh := hh
  compute d hh := hh
  has_note i k e d := rfl
  has_compute i k d := rfl
  read i k d found hh hnone hr := by
    cases hs : behind m i d with
    | none =>
      rw [serve_of_none hs] at hr
      cases hr
    | some s =>
      rw [content?_of_behind hs] at hnone
      rw [reply_serve hs] at hr
      exact (htrue s (hh.of_behind hs)).reply_serve_get hnone hr
  comes i c j k d hh hnone hcomes := by
    -- the store behind the tier was not asked, or it answered
    rcases behind_serve m i j c d with hsame | ⟨s, hs, hreply, hafter⟩
    · rw [content?, hsame] at hcomes
      exact absurd hnone hcomes
    · rw [content?_of_behind hs] at hnone
      rw [content?_of_behind hafter] at hcomes
      rw [hreply]
      exact Store.exists_of_content? i hnone hcomes
  removed i k d hh hr := by
    cases hs : behind m i d with
    | none =>
      rw [serve_of_none hs] at hr
      cases hr
    | some s =>
      rw [reply_serve hs] at hr
      rw [content?_of_behind (behind_serve_self hs _)]
      exact Store.content?_serve_remove hr
  others i k d j k' hh hk := by
    rcases behind_serve m i j (.remove k) d with hsame | ⟨s, hs, -, hafter⟩
    · rw [content?, hsame, content?]
    · rw [content?_of_behind hs, content?_of_behind hafter]
      exact Store.content?_serve_of_ne hk.symm

/-- No tier of a deployment fails the removal of a key, missing or not, if its store does not. -/
theorem handler_removesMissing {key : String} (hi : m.hasTier i = true)
    (hR : ∀ s, R s → s.FailsNo (.remove key)) :
    (handler m).RemovesMissing (Hosted R m) (content? m) key i := by
  intro d hh _
  obtain ⟨s, hs, hs'⟩ := hh i hi
  rw [reply_serve hs]
  exact (hR s hs').reply_serve_remove

end Content

end Deployment

end TwoTier
