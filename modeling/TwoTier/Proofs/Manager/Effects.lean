import TwoTier.Proofs.Deployment.Records
import TwoTier.Proofs.Manager.Reading
import TwoTier.Proofs.Manager.Removing
import TwoTier.Proofs.Manager.Writing

/-!
# What calls do to the records

With hosts in the process, a call moves the table of records (`Deployment.record?`) in one of three
ways, each a relation between the deployments before and after it:

* `ReadEffect`: a read may drop records of its key that are stale, and may copy what is live in `l2`
  into `l1`, for the time to live of copies;
* `WriteEffect`: a write replaces the records of its key in the tiers that it targets;
* `RemoveEffect`: a removal drops the records of its key.

A read is told what is found in the tiers before it (`Reading.told`), and neither a write nor a
removal fails once it is let through.
-/

namespace TwoTier.Manager

open Deployment

variable {α : Type}

/-! ### Reads -/

/-- **What a read of a key does to the records.** A record of the key is kept, or was stale and is
gone; that of `l1` may also be replaced by a copy of what is live in `l2`, and `cold` is what is
known if it is. -/
structure ReadEffect (m : Manager) (key : String) (cold : Prop) (d d' : Deployment) : Prop where
  clock : d'.clock = d.clock
  other : ∀ i k, k ≠ key → record? m i k d' = record? m i k d
  l2 : Kept m .l2 key d d'
  l1 : Kept m .l1 key d d' ∨ cold ∧ ∃ p, found m .l2 key d = .live p ∧
    record? m .l1 key d' = some (Entry.encode d.clock.now p m.warmupTtl)

section Read

variable {m : Manager} {s : Shape α} {key : String} {o : Options} {t : Targets}
  {d d' : Deployment} {T : List (Exchange Tier)} {r : Result (Option α)}

/-- Where no record changes there is the effect of a read, … -/
theorem ReadEffect.of_same {cold : Prop} (hc : d'.clock = d.clock)
    (hrec : ∀ i k, record? m i k d' = record? m i k d) : ReadEffect m key cold d d' :=
  ⟨hc, fun i k _ => hrec i k, .inl (hrec .l2 key), .inl (.inl (hrec .l1 key))⟩

/-- … as there is where one tier was looked at, … -/
theorem ReadEffect.of_looked {cold : Prop} {i : Tier} (hl : Looked m i key d d') :
    ReadEffect m key cold d d' := by
  -- the tier that was looked at keeps its record unless that was stale; the other is untouched
  have hkept (j : Tier) : Kept m j key d d' := by
    by_cases hij : j = i
    · exact hij ▸ hl.self
    · exact .inl (hl.record?_of_ne hij key)
  refine ⟨hl.clock, fun j k hk => ?_, hkept .l2, .inl (hkept .l1)⟩
  by_cases hij : j = i
  · exact hij ▸ hl.other k hk
  · exact hl.record?_of_ne hij k

/-- … and an event changes nothing about it. -/
theorem ReadEffect.note {cold : Prop} (he : ReadEffect m key cold d d') (e : Event) :
    ReadEffect m key cold d (d'.note e) :=
  ⟨he.clock, he.other, he.l2, he.l1⟩

/-- A record after a read was there before it, or is a copy. -/
theorem ReadEffect.of_record? {cold : Prop} (he : ReadEffect m key cold d d') {i : Tier}
    {k : String} {raw : Bytes} (hr : record? m i k d' = some raw) :
    record? m i k d = some raw ∨
      i = .l1 ∧ k = key ∧ ∃ p, found m .l2 key d = .live p ∧
        raw = Entry.encode d.clock.now p m.warmupTtl := by
  by_cases hk : k = key
  · subst hk
    cases i with
    | l2 => exact .inl (he.l2.of_record? hr)
    | l1 =>
      rcases he.l1 with hkept | ⟨-, p, hlive, hcopy⟩
      · exact .inl (hkept.of_record? hr)
      · exact .inr ⟨rfl, rfl, p, hlive, Option.some.inj (hr.symm.trans hcopy)⟩
  · exact .inl (he.other i k hk ▸ hr)

/-- With hosts that have no ceilings, a read touches no record that is live. -/
theorem ReadEffect.same_or_stale (hh : Hosted Store.Plain m d)
    (he : ReadEffect m key ((found m .l1 key d).payload? = none) d d') (i : Tier) (k : String) :
    record? m i k d' = record? m i k d ∨
      ∀ raw, record? m i k d = some raw → Entry.isStale d.clock.now raw = true := by
  by_cases hk : k = key
  · subst hk
    cases i with
    | l2 => exact he.l2.same_or_stale
    | l1 =>
      rcases he.l1 with hkept | ⟨hcold, -⟩
      · exact hkept.same_or_stale
      · -- only what is not live is overwritten by a copy
        refine .inr fun raw hr => Entry.isStale_of_lookup ?_
        rwa [found_of_plain hh, hr] at hcold
  · exact .inl (he.other i k hk)

variable (hd : m.Distinct) (hh : Hosted Store.InProcess m d)
include hd hh

/-- The effect of the part of a read that asks `l2`: only a call that targets `l1` copies. -/
theorem BeyondL1.effect (hb : BeyondL1 (handler m) m s key o t d T r d')
    (ht : ∀ i, t.contains i = true → m.hasTier i = true) :
    ReadEffect m key (t.l1 = true) d d' := by
  cases hb with
  | notAsked => exact .of_same rfl fun _ _ => rfl
  | failed hl2 hr | undecodable hl2 hr =>
    exact .of_looked (serve_get hd hh (ht .l2 hl2) hr).2
  | missed hl2 hr | hit hl2 hr =>
    exact (ReadEffect.of_looked (serve_get hd hh (ht .l2 hl2) hr).2).note _
  | @warmed p a d1 d2 _ hl2 hr _ hw hs =>
    have hl1 : t.l1 = true := l1_of_warms hw
    obtain ⟨hfound, hlook⟩ := serve_get hd hh (ht .l2 hl2) hr
    have hread : ReadEffect m key (t.l1 = true) d d1 := .of_looked hlook
    -- what was read from `l2` is what is live there
    have hlive : found m .l2 key d = .live p :=
      Entry.Found.payload?_eq_some_iff.mp (Except.ok.inj hfound).symm
    have hh1 : Hosted Store.InProcess m d1 := hh.serve Store.closed_inProcess hr
    -- the copy is made at the time of the read, in `l1` only
    obtain ⟨-, hclock, hrec⟩ := serve_set (d := d1.note (.hit key .l2)) hd hh1 (ht .l1 hl1) hs
    refine ReadEffect.note ⟨hclock.trans hlook.clock, fun i k hk => ?_, ?_, ?_⟩ _
    · rw [hrec, if_neg fun h => hk h.2]
      exact hread.other i k hk
    · unfold Kept
      rw [hrec, if_neg fun h => Tier.noConfusion h.1]
      exact hread.l2
    · refine .inr ⟨hl1, p, hlive, ?_⟩
      rw [hrec, if_pos ⟨rfl, rfl⟩]
      exact congrArg (fun c => some (Entry.encode c.now p m.warmupTtl)) hlook.clock

/-- A read is told what is found in the tiers before it, and asks for its key only. -/
theorem BeyondL1.told (hb : BeyondL1 (handler m) m s key o t d T r d')
    (ht : ∀ i, t.contains i = true → m.hasTier i = true) {i : Tier} {k : String}
    {reply : Except Failure (Option Bytes)} (hx : .read i k reply ∈ T) :
    k = key ∧ i = .l2 ∧ reply = .ok (found m .l2 key d).payload? := by
  cases hb with
  | notAsked => cases hx
  | failed hl2 hr | missed hl2 hr | undecodable hl2 hr | hit hl2 hr | warmed hl2 hr =>
    obtain ⟨rfl, rfl, rfl⟩ : i = .l2 ∧ k = key ∧ reply = _ := by simpa using hx
    exact ⟨rfl, rfl, (serve_get hd hh (ht .l2 hl2) hr).1⟩

/-- **The effect of a read**: only a read that finds nothing in `l1` copies. -/
theorem Reading.effect (hr : Reading (handler m) m s key o d T r d') :
    ReadEffect m key ((found m .l1 key d).payload? = none) d d' := by
  cases hr with
  | refused => exact .of_same rfl fun _ _ => rfl
  | beyond hp hl1 hb =>
    have he := hb.effect hd hh fun i hi => hasTier_of_plan hp hi
    -- a call that leaves `l1` out does not copy
    refine ⟨he.clock, he.other, he.l2, he.l1.imp id ?_⟩
    rintro ⟨hl1', -⟩
    exact absurd hl1' (by simp [hl1])
  | failed hp hl1 hg => exact .of_looked (serve_get hd hh (hasTier_of_plan hp (i := .l1) hl1) hg).2
  | hit hp hl1 hg =>
    exact (ReadEffect.of_looked (serve_get hd hh (hasTier_of_plan hp (i := .l1) hl1) hg).2).note _
  | @missed _ _ _ d1 _ hp hl1 hg hb =>
    obtain ⟨hfound, hlook⟩ := serve_get hd hh (hasTier_of_plan hp (i := .l1) hl1) hg
    have hread : ReadEffect m key True d d1 := .of_looked hlook
    have hh1 : Hosted Store.InProcess m (d1.note (.miss key .l1)) :=
      hh.serve Store.closed_inProcess hg
    -- `l1` lost at most what was stale, before `l2` was asked
    have he := hb.effect hd hh1 fun i hi => hasTier_of_plan hp hi
    refine ⟨he.clock.trans hread.clock, fun i k hk => ?_, hread.l2.trans hread.clock he.l2, ?_⟩
    · exact (he.other i k hk).trans (hread.other i k hk)
    · rcases he.l1 with hkept | ⟨-, p, hlive, hcopy⟩
      · exact .inl (hlook.self.trans hread.clock hkept)
      · refine .inr ⟨(Except.ok.inj hfound).symm, p, ?_, hcopy.trans ?_⟩
        · exact (hlook.found_of_ne (by decide) key).symm.trans hlive
        · exact congrArg (fun c => some (Entry.encode c.now p m.warmupTtl)) hread.clock

/-- **A read is told** what is found in the tiers before it, and asks for its key only. -/
theorem Reading.told (hr : Reading (handler m) m s key o d T r d') {i : Tier} {k : String}
    {reply : Except Failure (Option Bytes)} (hx : .read i k reply ∈ T) :
    k = key ∧ reply = .ok (found m i key d).payload? := by
  cases hr with
  | refused => cases hx
  | beyond hp hl1 hb =>
    obtain ⟨hk, rfl, hreply⟩ := hb.told hd hh (fun i hi => hasTier_of_plan hp hi) hx
    exact ⟨hk, hreply⟩
  | failed hp hl1 hg | hit hp hl1 hg =>
    obtain ⟨rfl, rfl, rfl⟩ : i = .l1 ∧ k = key ∧ reply = _ := by simpa using hx
    exact ⟨rfl, (serve_get hd hh (hasTier_of_plan hp (i := .l1) hl1) hg).1⟩
  | @missed _ _ _ d1 _ hp hl1 hg hb =>
    obtain ⟨hfound, hlook⟩ := serve_get hd hh (hasTier_of_plan hp (i := .l1) hl1) hg
    have hh1 : Hosted Store.InProcess m (d1.note (.miss key .l1)) :=
      hh.serve Store.closed_inProcess hg
    rcases List.mem_cons.mp hx with hx | hx
    · obtain ⟨rfl, rfl, rfl⟩ : i = .l1 ∧ k = key ∧ reply = _ := by simpa using hx
      exact ⟨rfl, hfound⟩
    · obtain ⟨hk, rfl, hreply⟩ := hb.told hd hh1 (fun i hi => hasTier_of_plan hp hi) hx
      refine ⟨hk, hreply.trans ?_⟩
      rw [← hlook.found_of_ne (by decide : Tier.l2 ≠ .l1) key]
      rfl

/-- No read of a store in the process fails. -/
theorem get_reads (s : Shape α) (key : String) (o : Options) (i : Tier) (k : String)
    (f : Failure) : .read i k (.error f) ∉ (m.get s key o).trace (handler m) d := by
  intro hx
  cases ((reading (handler m) m s key o d).told hd hh hx).2

/-- What a read returns was live in a tier before it. -/
theorem found_of_get_eq_some (hm : m.Created) {v : α}
    (hr : (d.run m (m.get s key o)).1 = .ok (some v)) :
    ∃ i p, found m i key d = .live p ∧ m.codec.deserialize s p = .ok v := by
  have hread := reading (handler m) m s key o d
  have hf := hread.footprint hm
  rw [show ((m.get s key o).run (handler m) d).1 = .ok (some v) from hr] at hf
  -- a read that returns a value has hit; failures and misses return none
  rcases hf.outcome hf.proper with ⟨i, p, hx⟩ | ⟨i, f, hx⟩ | hall
  · have hfound := Except.ok.inj (hread.told hd hh hx).2
    refine ⟨i, p, Entry.Found.payload?_eq_some_iff.mp hfound.symm, ?_⟩
    rcases hf.of_hit hx with ⟨a, hd, hr⟩ | ⟨f, -, hr⟩
    · cases hr
      exact hd
    · cases hr
  · cases (hread.told hd hh hx).2
  · cases (hf.missed hf.proper).mpr hall

/-- A read of tiers of which one has something live finds something live. -/
theorem get_of_found (hm : m.Created) (s : Shape α) (hp : m.Proper key o) {i : Tier} {p : Bytes}
    (hi : (m.chosen o).contains i = true) (hl : found m i key d = .live p) :
    ∃ j q, found m j key d = .live q ∧
      ∀ v, m.codec.deserialize s q = .ok v → (d.run m (m.get s key o)).1 = .ok (some v) := by
  have hread := reading (handler m) m s key o d
  have hf := hread.footprint hm
  rcases hf.outcome hp with ⟨j, q, hx⟩ | ⟨j, f, hx⟩ | hall
  · have hfound := Except.ok.inj (hread.told hd hh hx).2
    refine ⟨j, q, Entry.Found.payload?_eq_some_iff.mp hfound.symm, fun v hv => ?_⟩
    rw [Deployment.run, hf.hit j q hx, hv]
  · cases (hread.told hd hh hx).2
  · -- a clean miss of the tier that has something
    have hnone := Except.ok.inj (hread.told hd hh (hall i hi)).2
    rw [hl] at hnone
    cases hnone

end Read

/-! ### Writes -/

/-- **What a write does to the records**: in the tiers that it targets, that of its key is made
anew. -/
structure WriteEffect (m : Manager) (key : String) (p : Bytes) (o : Options)
    (d d' : Deployment) : Prop where
  clock : d'.clock = d.clock
  record : ∀ i k, record? m i k d' =
    if k = key ∧ (m.chosen o).contains i = true then
      some (Entry.encode d.clock.now p (m.ttl o i))
    else record? m i k d

section Write

variable {m : Manager} {s : Shape α} {key : String} {a : α} {o : Options} {d d' : Deployment}

/-- A record after a write is of the write, or was there before it. -/
theorem WriteEffect.of_record? {p : Bytes} (he : WriteEffect m key p o d d') {i : Tier} {k : String}
    {raw : Bytes} (hr : record? m i k d' = some raw) :
    (k = key ∧ (m.chosen o).contains i = true ∧ raw = Entry.encode d.clock.now p (m.ttl o i)) ∨
      (¬(k = key ∧ (m.chosen o).contains i = true) ∧ record? m i k d = some raw) := by
  rw [he.record] at hr
  by_cases hk : k = key ∧ (m.chosen o).contains i = true
  · rw [if_pos hk] at hr
    exact .inl ⟨hk.1, hk.2, (Option.some.inj hr).symm⟩
  · rw [if_neg hk] at hr
    exact .inr ⟨hk, hr⟩

/-- Writes to the one tier and then to the other are a write to both. -/
theorem WriteEffect.of_two {i j : Tier} (hij : i ≠ j) {d₁ : Deployment} {p : Bytes}
    (hall : ∀ k, (m.chosen o).contains k = true) (hc₁ : d₁.clock = d.clock)
    (h₁ : ∀ t k, record? m t k d₁ =
      if t = i ∧ k = key then some (Entry.encode d.clock.now p (m.ttl o i)) else record? m t k d)
    (hc : d'.clock = d₁.clock)
    (h : ∀ t k, record? m t k d' =
      if t = j ∧ k = key then some (Entry.encode d₁.clock.now p (m.ttl o j))
      else record? m t k d₁) :
    WriteEffect m key p o d d' := by
  refine ⟨hc.trans hc₁, fun t k => ?_⟩
  rw [h, h₁, hc₁, hall]
  -- of the key, each tier has the record of its own write; other keys are untouched
  by_cases hk : k = key
  · cases i <;> cases j <;> cases t <;> simp [hk] <;> exact absurd rfl hij
  · simp [hk]

variable (hd : m.Distinct) (hh : Hosted Store.InProcess m d)
include hd hh

/-- A write to one tier succeeds, and makes the record of its key there anew. -/
theorem asked_effect {i : Tier} (hi : m.hasTier i = true) {p : Bytes}
    {x : Except Failure Unit × Deployment} (hx : asked (handler m) m key o i p d = x) :
    x.1 = .ok () ∧ Hosted Store.InProcess m (afterWrite (handler m) m key o i p x) ∧
      (afterWrite (handler m) m key o i p x).clock = d.clock ∧
      ∀ j k, record? m j k (afterWrite (handler m) m key o i p x) =
        if j = i ∧ k = key then some (Entry.encode d.clock.now p (m.ttl o i))
        else record? m j k d := by
  obtain ⟨r, d'⟩ := x
  have hh' : Hosted Store.InProcess m d' := hh.serve Store.closed_inProcess hx
  obtain ⟨rfl, hclock, hrec⟩ := serve_set hd hh hi hx
  exact ⟨rfl, hh', hclock, hrec⟩

/-- A write that is refused changes nothing, and any other succeeds. -/
theorem Writing.effect {order : WriteOrder} {T : List (Exchange Tier)}
    {r : Result Unit} (hw : Writing (handler m) m s key a o order d T r d') :
    (∃ e, r = .error e ∧ d' = d) ∨
      (r = .ok () ∧ m.Proper key o ∧ ∃ p, m.codec.serialize s a = .ok p ∧
        WriteEffect m key p o d d') := by
  cases hw with
  | refused | unserializable | untargeted => exact .inl ⟨_, rfl, rfl⟩
  | @single p t i hc hs ht hi =>
    obtain ⟨rfl, hne, hall⟩ := of_targets ht
    obtain ⟨hok, -, hclock, hrec⟩ := asked_effect hd hh (hasTier_of_toList m hi hall) rfl
    obtain ⟨hk, ho⟩ := check_eq_ok_iff.mp hc
    refine .inr ⟨by rw [hok]; rfl, ⟨hk, ho, hne⟩, p, hs, hclock, fun j k => ?_⟩
    rw [hrec]
    -- the one tier is all that the call targets
    have hmem := contains_of_toList hi j
    by_cases hji : j = i
    · subst hji
      simp [hmem]
    · simp [hmem, hji]
  | @l1First p t x1 x2 hc hs ht hi _ h1 h2 =>
    obtain ⟨rfl, hne, htier⟩ := of_targets ht
    have hall : ∀ i, (m.chosen o).contains i = true :=
      fun i => (contains_of_toList hi i).mpr (by cases i <;> simp)
    obtain ⟨hok1, hh1, hclock1, hrec1⟩ := asked_effect hd hh (htier .l1 (hall .l1)) h1
    obtain ⟨hok2, -, hclock2, hrec2⟩ := asked_effect hd hh1 (htier .l2 (hall .l2)) h2
    obtain ⟨hk, ho⟩ := check_eq_ok_iff.mp hc
    rw [hok1, hok2]
    exact .inr ⟨rfl, ⟨hk, ho, hne⟩, p, hs,
      .of_two (by decide : Tier.l1 ≠ .l2) hall hclock1 hrec1 hclock2 hrec2⟩
  | @l2First p t x1 x2 hc hs ht hi _ h2 h1 =>
    obtain ⟨rfl, hne, htier⟩ := of_targets ht
    have hall : ∀ i, (m.chosen o).contains i = true :=
      fun i => (contains_of_toList hi i).mpr (by cases i <;> simp)
    obtain ⟨hok2, hh2, hclock2, hrec2⟩ := asked_effect hd hh (htier .l2 (hall .l2)) h2
    obtain ⟨hok1, -, hclock1, hrec1⟩ := asked_effect hd hh2 (htier .l1 (hall .l1)) h1
    obtain ⟨hk, ho⟩ := check_eq_ok_iff.mp hc
    rw [hok1, hok2]
    exact .inr ⟨rfl, ⟨hk, ho, hne⟩, p, hs,
      .of_two (by decide : Tier.l2 ≠ .l1) hall hclock2 hrec2 hclock1 hrec1⟩

end Write

/-! ### Removals -/

/-- **What a removal does to the records**: that of its key is gone. -/
structure RemoveEffect (m : Manager) (key : String) (d d' : Deployment) : Prop where
  clock : d'.clock = d.clock
  record : ∀ i k, record? m i k d' = if k = key then none else record? m i k d

/-- A record after a removal is of another key, and was there before it. -/
theorem RemoveEffect.of_record? {m : Manager} {key : String} {d d' : Deployment}
    (he : RemoveEffect m key d d') {i : Tier} {k : String} {raw : Bytes}
    (hr : record? m i k d' = some raw) : k ≠ key ∧ record? m i k d = some raw := by
  rw [he.record] at hr
  by_cases hk : k = key
  · rw [if_pos hk] at hr
    cases hr
  · rw [if_neg hk] at hr
    exact ⟨hk, hr⟩

section Remove

variable {m : Manager} {d : Deployment} (hd : m.Distinct) (hh : Hosted Store.InProcess m d)
include hd hh

/-- The effect of a removal from some tiers, none of which fails. -/
theorem Removing.effect {key : String} {ts : List Tier} {T : List (Exchange Tier)}
    {r : Option CacheError} {d' : Deployment} (hw : Removing (handler m) key ts d T r d')
    (hts : ∀ i ∈ ts, m.hasTier i = true) :
    r = none ∧ d'.clock = d.clock ∧
      ∀ i k, record? m i k d' = if i ∈ ts ∧ k = key then none else record? m i k d := by
  -- on the tiers that are left
  induction hw with
  | done => exact ⟨rfl, rfl, fun i k => by simp⟩
  | @removed t ts d d₁ d' _ _ hr _ ih =>
    -- the rest is removed from the state that the tier at the head leaves
    obtain ⟨-, hclock, hrec⟩ := serve_remove hd hh (hts t List.mem_cons_self) hr
    have hh₁ : Hosted Store.InProcess m (d₁.note (.removed key t)) :=
      hh.serve Store.closed_inProcess hr
    obtain ⟨hnone, hclock', hrec'⟩ := ih hh₁ fun i hi => hts i (List.mem_cons_of_mem _ hi)
    refine ⟨hnone, hclock'.trans hclock, fun i k => (hrec' i k).trans ?_⟩
    rw [show record? m i k ((handler m).note (.removed key t) d₁) = record? m i k d₁ from rfl, hrec]
    by_cases hk : k = key
    · by_cases hi : i = t <;> simp [hk, hi]
    · simp [hk]
  | failed hr =>
    obtain ⟨hok, -⟩ := serve_remove hd hh (hts _ List.mem_cons_self) hr
    cases hok

/-- A removal with an empty key is refused, and any other succeeds. -/
theorem delete_effect (key : String) :
    (key = "" ∧ (d.run m (m.delete key)).2 = d) ∨
      (key ≠ "" ∧ RemoveEffect m key d (d.run m (m.delete key)).2) := by
  by_cases hk : key = ""
  · refine .inl ⟨hk, ?_⟩
    simp [delete, hk, Deployment.run]
  · refine .inr ⟨hk, ?_⟩
    obtain ⟨-, hclock, hrec⟩ :=
      (removing (handler m) key m.tiers d).effect hd hh fun i hi => mem_tiers.mp hi
    rw [Deployment.run, run_delete_snd (handler m) m hk d]
    refine ⟨hclock, fun i k => (hrec i k).trans ?_⟩
    -- a tier that is there was asked
    by_cases hi : i ∈ m.tiers
    · simp [hi]
    · -- there was nothing to remove
      have hnone : record? m i k d = none := by
        cases hr : record? m i k d with
        | none => rfl
        | some raw => exact absurd (mem_tiers.mpr (hasTier_of_record? hr)) hi
      simp [hi, hnone]

end Remove

end TwoTier.Manager
