import TwoTier.Proofs.Deployment.Records
import TwoTier.Proofs.Script.Asks
import TwoTier.Proofs.Store.Ceilings

/-!
# Stores that agree on a key

Two stores in the process **agree on a key** (`Store.AgreeOn`) if they have the same under it,
whatever else they hold. Then they answer every command about the key the same, and still agree on
it (`AgreeOn.serve`); and a command about another key changes nothing (`AgreeOn.serve_other`).

Two deployments agree on a key if their stores behind each tier do (`Deployment.AgreeOn`). So they
are alike to all commands about the key, and no command about another key leads out of agreement. In
both cases agreement is an equivalence, between what is in the process.
-/

namespace TwoTier

/-! ### Stores -/

/-- A use that is about another key neither writes, nor checks, nor looks at the record of a key. -/
theorem Use.of_key_ne {x : Command} {k : String} (h : x.key ≠ k) :
    (Use.command x).writes k = false ∧ (Use.command x).checks k = false ∧
      (Use.command x).looks k = false := by
  have hk : (x.key == k) = false := beq_eq_false_iff_ne.mpr h
  cases x with
  | get key => exact ⟨rfl, hk, hk⟩
  | set key p ttl | remove key => exact ⟨hk, rfl, rfl⟩

/-- **Two stores agree on a key**: they are of the same kind, as far as readers can tell, and have
the same under it. -/
inductive Store.AgreeOn (k : String) : Store → Store → Prop
  | plain {s s' : Store} (hs : s.Plain) (hs' : s'.Plain) (h : s.record? k = s'.record? k) :
    AgreeOn k s s'
  | ceiling {s s' : Ceiling} (hlimits : s.limits = s'.limits)
    (h : s.records.find? k = s'.records.find? k) : AgreeOn k (.ceiling s) (.ceiling s')

namespace Store

variable {s s' s'' : Store} {k : String} {x : Command}

/-- A store in the process agrees with itself. -/
theorem AgreeOn.refl (hs : s.InProcess) (k : String) : AgreeOn k s s := by
  cases s with
  | unbounded s | bounded s => exact .plain trivial trivial rfl
  | ceiling s => exact .ceiling rfl rfl
  | recording s | redis s | memcached s => exact hs.elim

theorem AgreeOn.symm (h : AgreeOn k s s') : AgreeOn k s' s := by
  cases h with
  | plain hs hs' h => exact .plain hs' hs h.symm
  | ceiling hl h => exact .ceiling hl.symm h.symm

/-- Agreement goes from store to store, as a store has one kind. -/
theorem AgreeOn.trans (h : AgreeOn k s s') (h' : AgreeOn k s' s'') : AgreeOn k s s'' := by
  cases h with
  | plain hs hs' h =>
    -- what has ceilings agrees with nothing plain, so the kinds go together
    cases h' with
    | plain _ hs'' h' => exact .plain hs hs'' (h.trans h')
    | ceiling _ _ => exact hs'.elim
  | ceiling hl h =>
    cases h' with
    | plain hs' _ _ => exact hs'.elim
    | ceiling hl' h' => exact .ceiling (hl.trans hl') (h.trans h')

/-- Stores that agree on a key have the same record under it. -/
theorem AgreeOn.record?_eq (h : AgreeOn k s s') : s.record? k = s'.record? k := by
  cases h with
  | plain hs hs' h => exact h
  | ceiling hl h => exact congrArg (Option.map Ceiling.Timed.raw) h

/-- Stores that agree on a key answer the same about it, and agree on it afterwards. -/
theorem AgreeOn.serve (h : AgreeOn k s s') (c : Clock) (hk : x.key = k) :
    (s.serve c x).reply = (s'.serve c x).reply ∧
      AgreeOn k (s.serve c x).store (s'.serve c x).store := by
  subst hk
  cases h with
  -- without ceilings the record decides, and goes through the command on its own
  | plain hs hs' h =>
    refine ⟨hs.reply_serve_congr hs' h, .plain (closed_plain c x _ hs) (closed_plain c x _ hs') ?_⟩
    have hafter := hs.record?_use (c := c) (u := .command x) (k := x.key) fun hu => by cases hu
    have hafter' := hs'.record?_use (c := c) (u := .command x) (k := x.key) fun hu => by cases hu
    exact hafter.trans ((congrArg _ h).trans hafter'.symm)
  -- with ceilings it is the record with its times, and what is held of it
  | @ceiling s s' hl h =>
    constructor
    · have hin : (Store.ceiling s).InProcess := trivial
      have hin' : (Store.ceiling s').InProcess := trivial
      cases x with
      | set key p ttl | remove key => rfl
      | get key =>
        have hheld : s.held? c key = s'.held? c key := by
          unfold Ceiling.held?
          rw [hl]
          exact congrArg _ h
        rw [reply_serve_get hin, reply_serve_get hin', found, found, hheld]
    · obtain ⟨s₁, hs₁, hl₁, hrec₁⟩ := s.exists_use c (.command x)
      obtain ⟨s₁', hs₁', hl₁', hrec₁'⟩ := s'.exists_use c (.command x)
      have hs₂ : ((Store.ceiling s).serve c x).store = .ceiling s₁ := hs₁
      have hs₂' : ((Store.ceiling s').serve c x).store = .ceiling s₁' := hs₁'
      rw [hs₂, hs₂']
      refine .ceiling (hl₁.trans (hl.trans hl₁'.symm)) ?_
      rw [hrec₁, hrec₁', hl, h]

/-- A command about another key leaves agreement alone. -/
theorem AgreeOn.serve_other (h : AgreeOn k s s') (c : Clock) (hk : x.key ≠ k) :
    AgreeOn k (s.serve c x).store s' := by
  -- the command neither writes the record of this key, nor checks or uses it
  obtain ⟨hwrites, hchecks, hlooks⟩ := Use.of_key_ne hk
  cases h with
  | plain hs hs' h =>
    refine .plain (closed_plain c x _ hs) hs' ?_
    have hafter := hs.record?_use (c := c) (u := .command x) (k := k) fun hu => by cases hu
    rw [onRecord_of_unwritten hwrites, hchecks] at hafter
    exact hafter.trans h
  | @ceiling s s' hl h =>
    obtain ⟨s₁, hs₁, hl₁, hrec₁⟩ := s.exists_use c (.command x)
    have hs₂ : ((Store.ceiling s).serve c x).store = .ceiling s₁ := hs₁
    rw [hs₂]
    refine .ceiling (hl₁.trans hl) ?_
    rw [hrec₁, Use.onTimed_of_unused hwrites hlooks, h]

end Store

/-! ### Deployments -/

namespace Deployment

/-- **Two deployments agree on a key**: their clocks show the same, and the stores behind each tier
agree on it. -/
structure AgreeOn (m : Manager) (k : String) (d d' : Deployment) : Prop where
  clock : d.clock = d'.clock
  stores : ∀ i r, m.slot i = some r →
    ∃ s s', d.store? r.id = some s ∧ d'.store? r.id = some s' ∧ s.AgreeOn k s'

variable {m : Manager} {k : String} {d d' d'' : Deployment} {i : Tier} {x : Command}

theorem AgreeOn.refl (hh : Hosted Store.InProcess m d) (k : String) : AgreeOn m k d d := by
  refine ⟨rfl, fun i r hr => ?_⟩
  obtain ⟨s, hs, hin⟩ := hh i (by rw [Manager.hasTier, hr, Option.isSome_some])
  rw [behind, hr, Option.bind_some] at hs
  exact ⟨s, s, hs, hs, .refl hin k⟩

theorem AgreeOn.symm (h : AgreeOn m k d d') : AgreeOn m k d' d := by
  refine ⟨h.clock.symm, fun i r hr => ?_⟩
  obtain ⟨s, s', hs, hs', hag⟩ := h.stores i r hr
  exact ⟨s', s, hs', hs, hag.symm⟩

theorem AgreeOn.trans (h : AgreeOn m k d d') (h' : AgreeOn m k d' d'') : AgreeOn m k d d'' := by
  refine ⟨h.clock.trans h'.clock, fun i r hr => ?_⟩
  obtain ⟨s, s', hs, hs', hag⟩ := h.stores i r hr
  obtain ⟨t, s'', ht, hs'', hag'⟩ := h'.stores i r hr
  obtain rfl : s' = t := Option.some.inj (hs'.symm.trans ht)
  exact ⟨s, s'', hs, hs'', hag.trans hag'⟩

theorem AgreeOn.note (h : AgreeOn m k d d') (e : Event) : AgreeOn m k ((handler m).note e d) d' :=
  ⟨h.clock, h.stores⟩

theorem AgreeOn.record?_eq (h : AgreeOn m k d d') (i : Tier) :
    record? m i k d = record? m i k d' := by
  unfold record? behind
  cases hr : m.slot i with
  | none => rfl
  | some r =>
    obtain ⟨s, s', hs, hs', hag⟩ := h.stores i r hr
    simp only [Option.bind_some, hs, hs', hag.record?_eq]

/-- Clocks that are set alike still show the same. -/
theorem AgreeOn.setClock (h : AgreeOn m k d d') (c : Clock) :
    AgreeOn m k { d with clock := c } { d' with clock := c } :=
  ⟨rfl, h.stores⟩

section Serve

variable {id id' : String} {s : Store} {r : StoreRef}

/-- A command to a tier goes to the store of its name. -/
theorem serve_of_slot (hr : m.slot i = some r) (x : Command) (d : Deployment) :
    (handler m).serve i x d = d.serve r.id x := by
  simp only [handler, hr]

/-- A tier that there is none of answers that it is missing. -/
theorem serve_of_no_slot (hr : m.slot i = none) (x : Command) (d : Deployment) :
    (handler m).serve i x d = (missingReply x, d) := by
  simp only [handler, hr]

/-- A command to a name goes to its store, which takes the place of the old one. -/
theorem serve_of_store (hs : d.store? id = some s) (x : Command) :
    d.serve id x = d.absorb id (s.serve d.clock x) := by
  simp only [Deployment.serve, consult, hs]

/-- The store of a name, after a command to the store of a name. -/
theorem store?_serve (hs : d.store? id' = some s) :
    (d.serve id x).2.store? id' = some (if id' = id then (s.serve d.clock x).store else s) := by
  by_cases hid : id' = id
  · subst hid
    rw [serve_of_store hs, if_pos rfl]
    exact TextMap.find?_insert_self ..
  · rw [if_neg hid, store?_serve_of_ne x d hid, hs]

/-- No command runs a caller's function. -/
theorem computed_serve : ((handler m).serve i x d).2.computed = d.computed := by
  cases hr : m.slot i with
  | none => rw [serve_of_no_slot hr]
  | some r =>
    rw [serve_of_slot hr, Deployment.serve, consult]
    split <;> rfl

end Serve

/-- A command that leaves the store behind its tier in agreement leaves the deployment so, whatever
other tiers have the same store. -/
theorem agreeOn_serve {r : StoreRef} {s : Store} (hh : Hosted Store.InProcess m d)
    (hr : m.slot i = some r) (hs : d.store? r.id = some s)
    (hag : (s.serve d.clock x).store.AgreeOn k s) : AgreeOn m k ((handler m).serve i x d).2 d := by
  refine ⟨clock_serve x, fun j r' hr' => ?_⟩
  obtain ⟨t, t', ht, ht', hrefl⟩ := (AgreeOn.refl hh k).stores j r' hr'
  obtain rfl : t = t' := Option.some.inj (ht.symm.trans ht')
  rw [serve_of_slot hr]
  refine ⟨_, t, store?_serve ht, ht, ?_⟩
  -- another tier has another store, or the very one that was asked
  by_cases hid : r'.id = r.id
  · obtain rfl : t = s := Option.some.inj (ht.symm.trans (hid ▸ hs))
    rw [if_pos hid]
    exact hag
  · rw [if_neg hid]
    exact hrefl

/-- Deployments that agree on a key answer the same about it, and agree on it afterwards. -/
theorem AgreeOn.serve (h : AgreeOn m k d d') (hk : x.key = k) :
    ((handler m).serve i x d).1 = ((handler m).serve i x d').1 ∧
      AgreeOn m k ((handler m).serve i x d).2 ((handler m).serve i x d').2 := by
  cases hr : m.slot i with
  | none =>
    rw [serve_of_no_slot hr, serve_of_no_slot hr]
    exact ⟨rfl, h⟩
  | some r =>
    refine ⟨?_, by rw [clock_serve, clock_serve, h.clock], fun j r' hr' => ?_⟩
    · obtain ⟨s, s', hs, hs', hag⟩ := h.stores i r hr
      rw [serve_of_slot hr, serve_of_slot hr, serve_of_store hs, serve_of_store hs', ← h.clock]
      exact (hag.serve d.clock hk).1
    · -- the two tiers may have one store
      obtain ⟨s, s', hs, hs', hag⟩ := h.stores j r' hr'
      rw [serve_of_slot hr, serve_of_slot hr]
      refine ⟨_, _, store?_serve hs, store?_serve hs', ?_⟩
      rw [← h.clock]
      split
      · exact (hag.serve d.clock hk).2
      · exact hag

/-- A command about another key leaves agreement alone. -/
theorem AgreeOn.serve_other (h : AgreeOn m k d d') (hk : x.key ≠ k) :
    AgreeOn m k ((handler m).serve i x d).2 d' := by
  cases hr : m.slot i with
  | none =>
    rw [serve_of_no_slot hr]
    exact h
  | some r =>
    refine ⟨by rw [clock_serve, h.clock], fun j r' hr' => ?_⟩
    obtain ⟨s, s', hs, hs', hag⟩ := h.stores j r' hr'
    rw [serve_of_slot hr]
    refine ⟨_, s', store?_serve hs, hs', ?_⟩
    split
    · exact hag.serve_other d.clock hk
    · exact hag

/-- A script that asks about other keys only leaves agreement alone. -/
theorem AgreeOn.run_other {α : Type} {x : Script Tier α} {key : String} (h : AgreeOn m k d d')
    (hx : x.Asks fun _ c => c.key = key) (hk : key ≠ k) : AgreeOn m k (d.run m x).2 d' := by
  refine hx.run_keeps (I := fun d => AgreeOn m k d d') ?_ ?_ ?_ h
  · intro i c d hc hd
    exact hd.serve_other (by rw [hc]; exact hk)
  · intro e d hd
    exact hd.note e
  · intro d hd
    exact ⟨hd.clock, hd.stores⟩

/-- **Deployments that agree on a key are alike to all commands about it.** They also count how
often the callers' functions run the same, from what they had counted before. -/
theorem alike_of_agreeOn (m : Manager) (k : String) (n n' : Nat) :
    (handler m).Alike (handler m) (fun _ c => c.key = k)
      fun d d' => AgreeOn m k d d' ∧ d.computed + n' = d'.computed + n where
  reply hc h := (h.1.serve hc).1
  serve hc h := ⟨(h.1.serve hc).2, by rw [computed_serve, computed_serve, h.2]⟩
  note e {d d'} h := ⟨⟨h.1.clock, h.1.stores⟩, h.2⟩
  compute {d d'} h := by
    have hcount : d.computed + 1 + n' = d'.computed + 1 + n := by omega
    exact ⟨⟨h.1.clock, h.1.stores⟩, hcount⟩

end Deployment

end TwoTier
