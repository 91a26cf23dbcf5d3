import TwoTier.Proofs.Deployment.Reachable
import TwoTier.Proofs.Store.Sweeping

/-!
# Settled keys

A read may change a store: it drops a stale record, and uses a fresh one. But it does so once. A key
of a store is **settled** (`Store.Settled`) if a read of it changes nothing that any later command
on the key depends on, and `a` is what such a read is told.

* A read settles its key, if the store is timely (`settled_get`), and so does a write
  (`settled_set`): the next read is told what was written, or nothing, where ceilings leave no room
  for records. The same write again then changes nothing (`agreeOn_set_again`).
* What is settled stays so, and is told the same, in any store that agrees on the key
  (`Settled.congr`).

For the tiers of a deployment this means that the order in which they are read does not matter any
more: no read of one tier unsettles another, also where two tiers have one store
(`Deployment.Settled.read`).
-/

namespace TwoTier

namespace Store

/-! ### What a read makes of a record, and makes again -/

section Again

open Ceiling (Limits Timed)

variable {l : Limits} {c : Clock} {r : Timed} {r? : Option Timed}

/-- A record that is held, and was not used later than now, is held once it is used now. -/
theorem isHeld_usedAt (hheld : r.isHeld l c.uptime = true) (hused : r.used ≤ c.uptime) :
    (r.usedAt c.uptime).isHeld l c.uptime = true := by
  obtain ⟨hlast, hlife, hidle⟩ := Timed.isHeld_iff.mp hheld
  refine Timed.isHeld_iff.mpr ⟨hlast, hlife, fun d hd => ?_⟩
  -- the use moves the end of idleness only forward
  have hlt : c.uptime < r.used + d.toNanos := hidle d hd
  show c.uptime < c.uptime + d.toNanos
  omega

/-- What a reader with ceilings is told of a record. -/
def toldOf (l : Limits) (c : Clock) (r? : Option Timed) : Option Bytes :=
  (Entry.lookup c.now ((r?.filter (Timed.isHeld l c.uptime)).map Timed.raw)).payload?

/-- A read leaves a record alone that is not held. -/
theorem afterGet_of_not_held (hf : r?.filter (Timed.isHeld l c.uptime) = none) :
    Timed.afterGet l c r? = r? := by
  unfold Timed.afterGet
  rw [hf]

/-- A read of a record that is held drops it if it is stale, and uses it if not. -/
theorem afterGet_of_held (hf : r?.filter (Timed.isHeld l c.uptime) = some r)
    (hused : r.used ≤ c.uptime) : Timed.afterGet l c r? =
      if Entry.isStale c.now r.raw then none else some (r.usedAt c.uptime) := by
  have hagain := isHeld_usedAt (Option.filter_eq_some_iff.mp hf).2 hused
  unfold Timed.afterGet
  rw [hf]
  dsimp only
  rw [hagain, Bool.and_true]

/-- **A second read** of a record with ceilings does nothing, and is told the same. -/
theorem afterGet_afterGet (hused : ∀ r, r? = some r → r.used ≤ c.uptime) :
    Timed.afterGet l c (Timed.afterGet l c r?) = Timed.afterGet l c r? ∧
      toldOf l c (Timed.afterGet l c r?) = toldOf l c r? := by
  cases hf : r?.filter (Timed.isHeld l c.uptime) with
  | none =>
    rw [afterGet_of_not_held hf]
    exact ⟨afterGet_of_not_held hf, rfl⟩
  | some r =>
    obtain ⟨hr, hheld⟩ := Option.filter_eq_some_iff.mp hf
    have hagain : (some (r.usedAt c.uptime)).filter (Timed.isHeld l c.uptime) =
        some (r.usedAt c.uptime) :=
      Option.filter_eq_some_iff.mpr ⟨rfl, isHeld_usedAt hheld (hused r hr)⟩
    rw [afterGet_of_held hf (hused r hr)]
    rcases Entry.lookup_some c.now r.raw with ⟨hstale, hlookup⟩ | ⟨hfresh, p, hlookup⟩
    · -- the record is gone, as it was to the reader
      rw [if_pos hstale]
      refine ⟨rfl, ?_⟩
      unfold toldOf
      rw [hf, Option.map_some, hlookup]
      rfl
    · -- the record is there, and is used now already
      rw [hfresh, if_neg Bool.false_ne_true]
      have hraw : (r.usedAt c.uptime).raw = r.raw := rfl
      constructor
      · rw [afterGet_of_held hagain (Nat.le_refl _), hraw, hfresh, if_neg Bool.false_ne_true]
        rfl
      · unfold toldOf
        rw [hf, hagain, Option.map_some, Option.map_some, hraw]

/-- A read of a fresh record that was used now changes nothing. -/
theorem afterGet_of_fresh (hr : r? = some r) (hused : r.used = c.uptime)
    (hfresh : Entry.isStale c.now r.raw = false) : Timed.afterGet l c r? = some r := by
  cases hf : r?.filter (Timed.isHeld l c.uptime) with
  | none => rw [afterGet_of_not_held hf, hr]
  | some r' =>
    obtain ⟨hr', -⟩ := Option.filter_eq_some_iff.mp hf
    obtain rfl : r' = r := Option.some.inj (hr'.symm.trans hr)
    have hsame : r'.usedAt c.uptime = r' := by
      rw [Timed.usedAt, ← hused]
    rw [afterGet_of_held hf (Nat.le_of_eq hused), hfresh, if_neg Bool.false_ne_true, hsame]

end Again

/-! ### Settled keys of a store -/

/-- **A key is settled**: a read of it is told `a`, and changes nothing under it. -/
structure Settled (c : Clock) (k : String) (a : Option Bytes) (s : Store) : Prop where
  reply : (s.serve c (.get k)).reply = .ok a
  agree : (s.serve c (.get k)).store.AgreeOn k s

section Settled

variable {s s' : Store} {c : Clock} {k : String} {a : Option Bytes}

theorem Settled.congr (hs : s.Settled c k a) (h : s.AgreeOn k s') : s'.Settled c k a := by
  obtain ⟨hreply, hagree⟩ := h.serve (x := .get k) c rfl
  exact ⟨hreply.symm.trans hs.reply, (hagree.symm.trans hs.agree).trans h⟩

/-- There is one answer. -/
theorem Settled.unique {b : Option Bytes} (ha : s.Settled c k a) (hb : s.Settled c k b) : a = b :=
  Except.ok.inj (ha.reply.symm.trans hb.reply)

/-- A read of a store with ceilings makes of the record of its key what `afterGet` says, … -/
theorem find?_serve_get_ceiling (s : Ceiling) (c : Clock) (k : String) :
    ∃ s' : Ceiling, ((Store.ceiling s).serve c (.get k)).store = .ceiling s' ∧
      s'.limits = s.limits ∧
      s'.records.find? k = Ceiling.Timed.afterGet s.limits c (s.records.find? k) :=
  ⟨_, rfl, s.limits_get c k, (s.find?_get c k k).trans (if_pos rfl)⟩

/-- … and is told what `toldOf` says. -/
theorem reply_serve_get_ceiling (s : Ceiling) (c : Clock) (k : String) :
    ((Store.ceiling s).serve c (.get k)).reply = .ok (toldOf s.limits c (s.records.find? k)) :=
  reply_serve_get (by trivial)

/-- A read of a plain store keeps the record of its key only if that is fresh, … -/
theorem Plain.record?_serve_get (hs : s.Plain) (c : Clock) (k : String) :
    (s.serve c (.get k)).store.record? k = Entry.fresh? c.now (s.record? k) := by
  have hafter := hs.record?_use (c := c) (u := .command (.get k)) (k := k) nofun
  refine hafter.trans ?_
  simp only [Use.onRecord, Use.checks, beq_self_eq_true, if_true]
  rfl

/-- … and is told its payload. -/
theorem Plain.reply_serve_get (hs : s.Plain) (c : Clock) (k : String) :
    (s.serve c (.get k)).reply = .ok (Entry.lookup c.now (s.record? k)).payload? := by
  rw [Store.reply_serve_get hs.inProcess, hs.found]

/-- **A read settles its key.** -/
theorem settled_get (hs : s.Timely c.uptime) (k : String) :
    ∃ a, (s.serve c (.get k)).reply = .ok a ∧ (s.serve c (.get k)).store.Settled c k a := by
  rcases hs.inProcess.plain_or_ceiling with hplain | ⟨s, rfl⟩
  · -- a stale record is dropped once
    have hafter : (s.serve c (.get k)).store.Plain := closed_plain c _ s hplain
    refine ⟨_, hplain.reply_serve_get c k, ?_, ?_⟩
    · rw [hafter.reply_serve_get, hplain.record?_serve_get, Entry.lookup_fresh?]
    · refine .plain (closed_plain c _ _ hafter) hafter ?_
      rw [hafter.record?_serve_get, hplain.record?_serve_get, Entry.fresh?_fresh?]
  · -- and a record that is held is used once, as far as can be told
    obtain ⟨s₁, hs₁, hlimits₁, hfind₁⟩ := find?_serve_get_ceiling s c k
    obtain ⟨s₂, hs₂, hlimits₂, hfind₂⟩ := find?_serve_get_ceiling s₁ c k
    obtain ⟨hsame, htold⟩ := afterGet_afterGet (l := s.limits) (hs k)
    refine ⟨_, reply_serve_get_ceiling s c k, ?_⟩
    rw [hs₁]
    constructor
    · rw [reply_serve_get_ceiling, hlimits₁, hfind₁, htold]
    · rw [hs₂]
      refine .ceiling hlimits₂ ?_
      calc s₂.records.find? k
        _ = Ceiling.Timed.afterGet s₁.limits c (s₁.records.find? k) := hfind₂
        _ = Ceiling.Timed.afterGet s.limits c
              (Ceiling.Timed.afterGet s.limits c (s.records.find? k)) := by rw [hlimits₁, hfind₁]
        _ = Ceiling.Timed.afterGet s.limits c (s.records.find? k) := hsame
        _ = s₁.records.find? k := hfind₁.symm

variable {p : Bytes} {ttl : Duration}

/-- What a write leaves under its key in a store with ceilings. -/
theorem find?_serve_set_ceiling (s : Ceiling) (c : Clock) (k : String) (p : Bytes)
    (ttl : Duration) : ∃ s' : Ceiling, ((Store.ceiling s).serve c (.set k p ttl)).store =
      .ceiling s' ∧ s'.limits = s.limits ∧
      s'.records.find? k = some ⟨Entry.encode c.now p ttl, c.uptime, c.uptime⟩ :=
  ⟨_, rfl, rfl, TextMap.find?_insert_self ..⟩

/-- **A write settles its key.** -/
theorem settled_set (hs : s.InProcess) (c : Clock) (k : String) (p : Bytes) (ttl : Duration) :
    ∃ a, (a = some p ∨ a = none) ∧ (s.serve c (.set k p ttl)).store.Settled c k a := by
  have hnow : c.now ≤ maxReading := c.wall.reading_le
  -- what was just written is live, so a read has nothing to drop
  have hagree : ((s.serve c (.set k p ttl)).store.serve c (.get k)).store.AgreeOn k
      (s.serve c (.set k p ttl)).store := by
    rcases hs.plain_or_ceiling with hplain | ⟨s, rfl⟩
    · have hafter : (s.serve c (.set k p ttl)).store.Plain := closed_plain c _ s hplain
      have hrecord : (s.serve c (.set k p ttl)).store.record? k = some (Entry.encode c.now p ttl) :=
        (record?_serve_set hs p ttl k).trans (if_pos rfl)
      refine .plain (closed_plain c _ _ hafter) hafter ?_
      rw [hafter.record?_serve_get, hrecord, Entry.fresh?_encode hnow]
    · obtain ⟨s₁, hs₁, -, hfind₁⟩ := find?_serve_set_ceiling s c k p ttl
      obtain ⟨s₂, hs₂, hlimits₂, hfind₂⟩ := find?_serve_get_ceiling s₁ c k
      have hfresh : Entry.isStale c.now (Entry.encode c.now p ttl) = false :=
        Entry.isStale_eq_false_iff.mpr ⟨p, Entry.decode_encode hnow p ttl⟩
      rw [hs₁, hs₂]
      refine .ceiling hlimits₂ ?_
      rw [hfind₂, afterGet_of_fresh hfind₁ rfl hfresh, hfind₁]
  -- a read is told the payload, or nothing where a ceiling has ended at once
  rcases reply_get_serve_set hs k p ttl with ⟨hreply, -⟩ | ⟨hreply, -⟩
  · exact ⟨some p, .inl rfl, hreply, hagree⟩
  · exact ⟨none, .inr rfl, hreply, hagree⟩

/-- The same write again changes nothing. -/
theorem agreeOn_set_again (hs : s.InProcess) (c : Clock) (k : String) (p : Bytes)
    (ttl : Duration) :
    ((s.serve c (.set k p ttl)).store.serve c (.set k p ttl)).store.AgreeOn k
      (s.serve c (.set k p ttl)).store := by
  -- the second write makes the same record at the same time
  rcases hs.plain_or_ceiling with hplain | ⟨s, rfl⟩
  · have hafter : (s.serve c (.set k p ttl)).store.Plain := closed_plain c _ s hplain
    refine .plain (closed_plain c _ _ hafter) hafter ?_
    rw [record?_serve_set hafter.inProcess, if_pos rfl, record?_serve_set hs, if_pos rfl]
  · obtain ⟨s₁, hs₁, -, hfind₁⟩ := find?_serve_set_ceiling s c k p ttl
    obtain ⟨s₂, hs₂, hlimits₂, hfind₂⟩ := find?_serve_set_ceiling s₁ c k p ttl
    rw [hs₁, hs₂]
    exact .ceiling hlimits₂ (hfind₂.trans hfind₁.symm)

end Settled

end Store

/-! ### Settled keys of the tiers -/

namespace Deployment

variable {m : Manager} {k : String} {d d' d'' : Deployment} {i j : Tier} {a : Option Bytes}

/-- **A key is settled in a tier** if it is settled in the store behind it. -/
def Settled (m : Manager) (i : Tier) (k : String) (a : Option Bytes) (d : Deployment) : Prop :=
  ∃ r s, m.slot i = some r ∧ d.store? r.id = some s ∧ s.Settled d.clock k a

section Settled

/-- Behind every tier that a hosted manager has there is a store. -/
theorem exists_store {R : Store → Prop} (hh : Hosted R m d) (hi : m.hasTier i = true) :
    ∃ r s, m.slot i = some r ∧ d.store? r.id = some s ∧ R s := by
  obtain ⟨s, hs, hR⟩ := hh i hi
  obtain ⟨r, hr, hs⟩ := Option.bind_eq_some_iff.mp hs
  exact ⟨r, s, hr, hs, hR⟩

theorem Settled.note (hs : Settled m i k a d) (e : Event) :
    Settled m i k a ((handler m).note e d) := hs

/-- **No read unsettles a tier**, whichever it reads. -/
theorem Settled.read {x : Except Failure (Option Bytes)} (hs : Settled m i k a d)
    (hg : (handler m).serve j (.get k) d = (x, d')) : Settled m i k a d' := by
  obtain rfl : ((handler m).serve j (.get k) d).2 = d' := by rw [hg]
  cases hrj : m.slot j with
  | none =>
    rw [serve_of_no_slot hrj]
    exact hs
  | some rj =>
    obtain ⟨r, s, hr, hstore, hset⟩ := hs
    -- the store of the tier is the one that was read, or is untouched by the read
    have hafter : ((handler m).serve j (.get k) d).2.store? r.id =
        some (if r.id = rj.id then (s.serve d.clock (.get k)).store else s) := by
      rw [serve_of_slot hrj]
      exact store?_serve hstore
    refine ⟨r, _, hr, hafter, ?_⟩
    rw [clock_serve]
    split
    · exact hset.congr hset.agree.symm
    · exact hset

/-- **A read settles its tier**, and does not fail. -/
theorem settled_get (hh : Hosted (Store.Timely d.clock.uptime) m d) (hi : m.hasTier i = true)
    {x : Except Failure (Option Bytes)} (hg : (handler m).serve i (.get k) d = (x, d')) :
    (∀ f, x ≠ .error f) ∧ ∀ a, x = .ok a → Settled m i k a d' := by
  obtain ⟨r', s, hr, hs, htimely⟩ := exists_store hh hi
  obtain ⟨a, hreply, hset⟩ := Store.settled_get htimely k
  have hserve : (handler m).serve i (.get k) d = d.absorb r'.id (s.serve d.clock (.get k)) := by
    rw [serve_of_slot hr, serve_of_store hs]
  obtain ⟨rfl, rfl⟩ := Prod.mk.inj (hg.symm.trans hserve)
  rw [hreply]
  refine ⟨nofun, fun b hb => ?_⟩
  obtain rfl : a = b := Except.ok.inj hb
  exact ⟨r', _, hr, TextMap.find?_insert_self .., hset⟩

/-- A read of a settled tier is told what is settled, and changes nothing; also in any deployment
that agrees on the key. -/
theorem Settled.told (hs : Settled m i k a d) (hh : Hosted Store.InProcess m d)
    (hag : AgreeOn m k d' d) :
    ((handler m).serve i (.get k) d').1 = .ok a ∧
      AgreeOn m k ((handler m).serve i (.get k) d').2 d := by
  obtain ⟨r, s, hr, hs', hset⟩ := hs
  obtain ⟨hreply, hafter⟩ := hag.serve (i := i) (x := .get k) rfl
  refine ⟨hreply.trans ?_, hafter.trans (agreeOn_serve hh hr hs' hset.agree)⟩
  rw [serve_of_slot hr, serve_of_store hs']
  exact hset.reply

/-- One store is not settled both to miss and to hit. -/
theorem Settled.id_ne {p : Bytes} {ri rj : StoreRef} (hi : Settled m i k none d)
    (hj : Settled m j k (some p) d) (hri : m.slot i = some ri) (hrj : m.slot j = some rj) :
    rj.id ≠ ri.id := by
  intro hid
  obtain ⟨r, s, hr, hs, hset⟩ := hi
  obtain ⟨r', s', hr', hs', hset'⟩ := hj
  obtain rfl : r = ri := Option.some.inj (hr.symm.trans hri)
  obtain rfl : r' = rj := Option.some.inj (hr'.symm.trans hrj)
  -- on one store both answers would be of one read
  obtain rfl : s' = s := Option.some.inj (hs'.symm.trans (hid ▸ hs))
  cases hset.unique hset'

/-- **A copy unsettles nothing.** After a write of what is settled in the tier `j` to a tier `i`
that was settled to miss, `j` is as it was, `i` is settled again, and to write the same once more
changes nothing. -/
theorem settled_copy {p : Bytes} {ttl : Duration} {r : Except Failure Unit}
    (hh : Hosted Store.InProcess m d) (hi : Settled m i k none d) (hj : Settled m j k (some p) d)
    (hw : (handler m).serve i (.set k p ttl) d = (r, d')) :
    Settled m j k (some p) d' ∧ (∀ k', record? m j k' d' = record? m j k' d) ∧
      (∃ a, (a = some p ∨ a = none) ∧ Settled m i k a d') ∧
      AgreeOn m k ((handler m).serve i (.set k p ttl) d').2 d' := by
  obtain ⟨ri, s, hri, hs, -⟩ := id hi
  obtain ⟨rj, t, hrj, ht, hsetj⟩ := id hj
  have hin : s.InProcess := hh.of_behind (by rw [behind, hri, Option.bind_some, hs])
  have hd' : ((handler m).serve i (.set k p ttl) d).2 = d' := by rw [hw]
  have hh' : Hosted Store.InProcess m d' := hd' ▸ hh.serve Store.closed_inProcess rfl
  have hclock : d'.clock = d.clock := hd' ▸ clock_serve _
  -- the store of `i` takes the write, and that of `j` is another
  have hs' : d'.store? ri.id = some (s.serve d.clock (.set k p ttl)).store := by
    rw [← hd', serve_of_slot hri, store?_serve hs, if_pos rfl]
  have ht' : d'.store? rj.id = d.store? rj.id := by
    rw [← hd', serve_of_slot hri]
    exact store?_serve_of_ne _ d (hi.id_ne hj hri hrj)
  obtain ⟨a, ha, hseti⟩ := Store.settled_set hin d.clock k p ttl
  refine ⟨⟨rj, t, hrj, ht'.trans ht, hclock ▸ hsetj⟩, fun k' => ?_,
    ⟨a, ha, ri, _, hri, hs', hclock ▸ hseti⟩, ?_⟩
  · rw [record?, record?, behind, behind, hrj, Option.bind_some, Option.bind_some, ht']
  · refine agreeOn_serve hh' hri hs' ?_
    rw [hclock]
    exact Store.agreeOn_set_again hin d.clock k p ttl

end Settled

end Deployment

end TwoTier
