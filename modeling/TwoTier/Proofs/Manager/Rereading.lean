import TwoTier.Proofs.Deployment.Contents
import TwoTier.Proofs.Deployment.Settled
import TwoTier.Proofs.Manager.Effects
import TwoTier.Proofs.Manager.Independence

/-!
# Reading again

A read may move the stores: it drops what is stale, uses what has a ceiling, and copies a hit of
`l2` into `l1`. But it does so once (`get_twice`). When a read is over, a second one has **come to
rest** (`Manager.Rests`): the tiers that it would ask are settled, at answers that lead to the same
result.

The two reads need not ask the same tiers. What the first one found in `l2`, the second one finds in
`l1`, if there was a copy and the ceilings of `l1` leave room for it; and if they do not, it copies
once more what it finds, to no effect.
-/

namespace TwoTier.Manager

open Deployment

variable {α : Type}

/-! ### Reads that have come to rest -/

section Rests

variable (m : Manager) (s : Shape α) (key : String) (o : Options)

/-- **The part of a read that asks `l2` has come to rest** at a result. -/
inductive RestsBeyondL1 (t : Targets) (d : Deployment) : Result (Option α) → Prop
  | notAsked (hl2 : t.l2 = false) : RestsBeyondL1 t d (.ok none)
  | missed (hl2 : t.l2 = true) (h : Settled m .l2 key none d) : RestsBeyondL1 t d (.ok none)
  | undecodable {p : Bytes} {e : CacheError} (hl2 : t.l2 = true)
      (h : Settled m .l2 key (some p) d) (hd : m.decode s p = .error e) :
    RestsBeyondL1 t d (.error e)
  /-- A hit that is to be copied has been copied, and nothing changes if it is copied once more. -/
  | hit {p : Bytes} {a : α} (hl2 : t.l2 = true) (h : Settled m .l2 key (some p) d)
      (hd : m.decode s p = .ok a)
      (hcopy : (m.mode.warms t o.targetL1 && m.hasTier .l1) = true →
        AgreeOn m key ((handler m).serve .l1 (.set key p m.warmupTtl) d).2 d) :
    RestsBeyondL1 t d (.ok (some a))

/-- **A read has come to rest** at a result. -/
inductive Rests (d : Deployment) : Result (Option α) → Prop
  | refused {e : CacheError} (hp : m.plan key o .get = .error e) : Rests d (.error e)
  | hit {t : Targets} {p : Bytes} (hp : m.plan key o .get = .ok t) (hl1 : t.l1 = true)
      (h : Settled m .l1 key (some p) d) :
    Rests d ((m.decode s p).map some)
  | beyond {t : Targets} {r : Result (Option α)} (hp : m.plan key o .get = .ok t)
      (hl1 : t.l1 = true → Settled m .l1 key none d) (hb : RestsBeyondL1 m s key o t d r) :
    Rests d r

end Rests

section Again

variable {m : Manager} {s : Shape α} {key : String} {o : Options} {t : Targets}
  {d d' : Deployment} {r : Result (Option α)} (hh : Hosted Store.InProcess m d)
  (hag : AgreeOn m key d' d)
include hh hag

/-- Wherever there is agreement on the key, the part of a read that has come to rest gives its
result, and leaves the agreement. -/
theorem RestsBeyondL1.again (hr : RestsBeyondL1 m s key o t d r) :
    ((m.getBeyondL1 s key o t).run (handler m) d').1 = r ∧
      AgreeOn m key ((m.getBeyondL1 s key o t).run (handler m) d').2 d := by
  rw [getBeyondL1]
  cases hr with
  | notAsked hl2 =>
    rw [hl2]
    exact ⟨rfl, hag.note _⟩
  | missed hl2 h =>
    obtain ⟨hreply, hafter⟩ := h.told hh hag
    rw [if_pos hl2, getFromL2]
    simp only [Script.run_bind, run_readTier, hreply]
    exact ⟨rfl, hafter.note _⟩
  | undecodable hl2 h hd =>
    obtain ⟨hreply, hafter⟩ := h.told hh hag
    rw [if_pos hl2, getFromL2]
    simp only [Script.run_bind, run_readTier, hreply, mapError_ok, hd]
    exact ⟨rfl, hafter⟩
  | @hit p a hl2 h hd hcopy =>
    obtain ⟨hreply, hafter⟩ := h.told hh hag
    rw [if_pos hl2, getFromL2]
    simp only [Script.run_bind, run_readTier, hreply, mapError_ok, hd]
    have hnoted := hafter.note (.hit key .l2)
    cases hw : m.mode.warms t o.targetL1 && m.hasTier .l1 with
    | false => exact ⟨rfl, hnoted⟩
    | true =>
      -- the copy is made once more, from what agrees to what agrees
      have hcopied := (hnoted.serve (i := .l1) (x := .set key p m.warmupTtl) rfl).2.trans (hcopy hw)
      simp only [if_true, Script.run_bind, Script.run_event, run_warm]
      exact ⟨rfl, hcopied.note _⟩

/-- So does the whole read. -/
theorem Rests.again (hr : Rests m s key o d r) :
    ((m.get s key o).run (handler m) d').1 = r ∧
      AgreeOn m key ((m.get s key o).run (handler m) d').2 d := by
  rw [get]
  cases hr with
  | refused hp =>
    rw [hp]
    exact ⟨rfl, hag⟩
  | hit hp hl1 h =>
    obtain ⟨hreply, hafter⟩ := h.told hh hag
    simp only [hp, if_pos hl1, Script.run_bind, run_readTier, hreply]
    exact ⟨rfl, hafter.note _⟩
  | @beyond t _ hp hset hb =>
    rw [hp]
    dsimp only
    cases hl1 : t.l1 with
    | false => exact hb.again hh hag
    | true =>
      obtain ⟨hreply, hafter⟩ := (hset hl1).told hh hag
      simp only [if_true, Script.run_bind, run_readTier, hreply]
      exact hb.again hh (hafter.note _)

end Again

/-! ### Reads come to rest -/

section Coming

variable {m : Manager} {s : Shape α} {key : String} {o : Options} {t : Targets}
  {d d' : Deployment} {T : List (Exchange Tier)} {r : Result (Option α)}

/-- A read of a tier drops nothing but a stale record of its key, in whichever tier. -/
theorem kept_read (hh : Hosted Store.InProcess m d) {i : Tier} {x : Except Failure (Option Bytes)}
    (hg : (handler m).serve i (.get key) d = (x, d')) (j : Tier) : Kept m j key d d' := by
  obtain rfl : ((handler m).serve i (.get key) d).2 = d' := by rw [hg]
  -- the store behind `j` is the one that was read, or was not touched
  rcases behind_serve m i j (.get key) d with hsame | ⟨s, hs, -, hafter⟩
  · exact .inl (by rw [record?, record?, hsame])
  · rw [Kept, record?_of_behind hs, record?_of_behind hafter]
    rcases Store.record?_serve_get (hh.of_behind hs) d.clock key key with
      hsame | ⟨-, hstale, hgone⟩
    · exact .inl hsame
    · exact .inr ⟨hgone, Store.record?_of_found_stale hstale⟩

/-- After a copy of what `l2` has, the read has come to rest. The copy does not go to the store of
`l2`, also if both tiers were to have one: what `l1` misses is not found in `l2` then. -/
theorem rests_of_copied {p : Bytes} {a : α} {x : Except Failure Unit}
    (hh : Hosted Store.InProcess m d) (hp : m.plan key o .get = .ok t) (hl1 : t.l1 = true)
    (hl2 : t.l2 = true) (hset₁ : Settled m .l1 key none d) (hset₂ : Settled m .l2 key (some p) d)
    (hd : m.decode s p = .ok a) (hs : (handler m).serve .l1 (.set key p m.warmupTtl) d = (x, d')) :
    Rests m s key o ((handler m).note (m.warmEvent key x) d') (.ok (some a)) ∧
      record? m .l2 key ((handler m).note (m.warmEvent key x) d') = record? m .l2 key d := by
  have hh' : Hosted Store.InProcess m d' := hh.serve Store.closed_inProcess hs
  obtain ⟨hset₂', hrecords, ⟨b, hb, hset₁'⟩, hcopy⟩ := settled_copy hh hset₁ hset₂ hs
  refine ⟨?_, hrecords key⟩
  rcases hb with rfl | rfl
  · -- the copy is what the next read finds
    have hresult : (m.decode s p).map some = .ok (some a) := by rw [hd]; rfl
    exact hresult ▸ .hit hp hl1 hset₁'
  · -- there is no room for a copy, and the next read makes it once more
    refine .beyond hp (fun _ => hset₁') (.hit hl2 hset₂' hd fun _ => ?_)
    have hnoted : AgreeOn m key ((handler m).note (m.warmEvent key x) d') d' :=
      (AgreeOn.refl hh' key).note _
    exact ((hnoted.serve rfl).2.trans hcopy).trans hnoted.symm

variable (hh : Hosted (Store.Timely d.clock.uptime) m d)
include hh

/-- Once the part of a read that asks `l2` is over, the read has come to rest, if `l1` has settled
before. Of `l2` a stale record is gone at most. -/
theorem BeyondL1.rests (hb : BeyondL1 (handler m) m s key o t d T r d')
    (hp : m.plan key o .get = .ok t) (hl1 : t.l1 = true → Settled m .l1 key none d) :
    Rests m s key o d' r ∧ Kept m .l2 key d d' := by
  have hin : Hosted Store.InProcess m d := hh.imp fun s hs => hs.inProcess
  have htier (hl2 : t.l2 = true) : m.hasTier .l2 = true := hasTier_of_plan hp (i := .l2) hl2
  cases hb with
  | notAsked hl2 => exact ⟨.beyond hp hl1 (.notAsked hl2), .inl rfl⟩
  | @failed f _ hl2 hg => exact absurd rfl ((settled_get hh (htier hl2) hg).1 f)
  | missed hl2 hg =>
    have hset := (settled_get hh (htier hl2) hg).2 none rfl
    exact ⟨.beyond hp (fun h => ((hl1 h).read hg).note _) (.missed hl2 hset), kept_read hin hg .l2⟩
  | @undecodable p _ _ hl2 hg hd =>
    have hset := (settled_get hh (htier hl2) hg).2 (some p) rfl
    exact ⟨.beyond hp (fun h => (hl1 h).read hg) (.undecodable hl2 hset hd), kept_read hin hg .l2⟩
  | @hit p _ _ hl2 hg hd hw =>
    have hset := (settled_get hh (htier hl2) hg).2 (some p) rfl
    refine ⟨.beyond hp (fun h => ((hl1 h).read hg).note _) (.hit hl2 hset hd fun hw' => ?_),
      kept_read hin hg .l2⟩
    -- this hit is not to be copied
    cases hw.symm.trans hw'
  | @warmed p a d₁ d₂ x hl2 hg hd hw hs =>
    have htarget : t.l1 = true := l1_of_warms hw
    have hset := (settled_get hh (htier hl2) hg).2 (some p) rfl
    have hin₁ : Hosted Store.InProcess m d₁ := hin.serve Store.closed_inProcess hg
    obtain ⟨hrests, hsame⟩ := rests_of_copied (d := d₁.note (.hit key .l2)) hin₁ hp htarget hl2
      (((hl1 htarget).read hg).note _) hset hd hs
    refine ⟨hrests, ?_⟩
    rw [Kept, hsame]
    exact kept_read hin hg .l2

/-- **Once it is over, a read has come to rest** at its result. Of `l2` a stale record is gone at
most. -/
theorem Reading.rests (hr : Reading (handler m) m s key o d T r d') :
    Rests m s key o d' r ∧ Kept m .l2 key d d' := by
  have hin : Hosted Store.InProcess m d := hh.imp fun s hs => hs.inProcess
  cases hr with
  | refused hp => exact ⟨.refused hp, .inl rfl⟩
  | beyond hp hl1 hb =>
    refine hb.rests hh hp fun hl1' => ?_
    cases hl1.symm.trans hl1'
  | @failed t f _ hp hl1 hg =>
    exact absurd rfl ((settled_get hh (hasTier_of_plan hp (i := .l1) hl1) hg).1 f)
  | @hit t p _ hp hl1 hg =>
    have hset := (settled_get hh (hasTier_of_plan hp (i := .l1) hl1) hg).2 (some p) rfl
    exact ⟨.hit hp hl1 hset, kept_read hin hg .l2⟩
  | @missed t _ _ d₁ _ hp hl1 hg hb =>
    have hset := (settled_get hh (hasTier_of_plan hp (i := .l1) hl1) hg).2 none rfl
    -- the read of `l1` takes no time
    have hclock : d₁.clock = d.clock := by
      rw [← show ((handler m).serve .l1 (.get key) d).2 = d₁ by rw [hg], clock_serve]
    obtain ⟨hrests, hkept⟩ :=
      BeyondL1.rests (d := d₁.note (.miss key .l1)) (hh.timely_serve hg) hb hp fun _ => hset
    exact ⟨hrests, (kept_read hin hg .l2).trans hclock hkept⟩

end Coming

/-! ### Two reads in a row -/

/-- **Repeating a read changes nothing**, whatever has come about before, and whatever the flags and
the kind of the value are: the second of two reads in a row, at one time, gives what the first has
given, be it a value, a miss, a payload that does not decode, or a refusal. It leaves the records of
both tiers as they are; where there are ceilings, so it does the times at which these were written
and last used. And all that any read does to the records of `l2` is to drop that of its key, if it
is stale. The stores have room: one that gives up records between the two reads, or does not take up
the copy that the first makes, is not meant. -/
theorem get_twice {m : Manager} {d : Deployment} (hd : Reachable m d) (s : Shape α) (key : String)
    (o : Options) :
    let first := d.run m (m.get s key o)
    let second := first.2.run m (m.get s key o)
    second.1 = first.1 ∧
      (∀ i k, record? m i k second.2 = record? m i k first.2) ∧
      (∀ k, AgreeOn m k second.2 first.2) ∧
      (∀ k, k ≠ key → record? m .l2 k first.2 = record? m .l2 k d) ∧
      Kept m .l2 key d first.2 := by
  intro first second
  have hh : Hosted (Store.Timely d.clock.uptime) m d := hd.timely
  have hin : Hosted Store.InProcess m d := hh.imp fun s hs => hs.inProcess
  have hin₁ : Hosted Store.InProcess m first.2 := hin.run Store.closed_inProcess _
  have hasks : (m.get s key o).Asks (About key) := asks_script m (.get s key o)
  obtain ⟨hrests, hkept⟩ := (reading (handler m) m s key o d).rests hh
  obtain ⟨hresult, hkey⟩ := hrests.again hin₁ (.refl hin₁ key)
  -- a read asks about its key only, so other keys agree in any case
  have hagree (k : String) : AgreeOn m k second.2 first.2 := by
    -- the two reads agree on their key as they have come to rest
    by_cases hk : k = key
    · exact hk ▸ hkey
    · exact (AgreeOn.refl hin₁ k).run_other hasks (Ne.symm hk)
  refine ⟨hresult, fun i k => (hagree k).record?_eq i, hagree, fun k hk => ?_, hkept⟩
  exact ((AgreeOn.refl hin k).run_other hasks hk.symm).record?_eq .l2

/-- A value that was written to `l2` alone is copied by the first read, and found in `l1` by the
second. -/
theorem get_twice_copied :
    let m := sample .bothLevels
    let d := (twoFresh.run m (m.set .bool "k" true { targetL1 := some false })).2
    let first := d.run m (m.get .bool "k" {})
    let second := first.2.run m (m.get .bool "k" {})
    Reachable m d ∧ record? m .l1 "k" d = none ∧ first.1 = .ok (some true) ∧
      second.1 = .ok (some true) ∧ record? m .l1 "k" first.2 ≠ none ∧
      record? m .l1 "k" second.2 = record? m .l1 "k" first.2 := by
  intro m d first second
  have hfresh : Reachable m twoFresh := by
    refine .fresh fun i hi => ?_
    obtain ⟨s, hs, hplain⟩ := twoFresh_hosted .bothLevels i hi
    refine ⟨s, hs, hplain.inProcess, fun k => ?_⟩
    rw [← record?_of_behind hs]
    exact twoFresh_blank .bothLevels i k
  have hd : Reachable m d := .run m (m.set .bool "k" true { targetL1 := some false }) hfresh
  obtain ⟨hresult, hrecord, -⟩ := get_twice hd .bool "k" {}
  have hfirst : first.1 = .ok (some true) := by decide +kernel
  exact ⟨hd, by decide +kernel, hfirst, hresult.trans hfirst, by decide +kernel, hrecord .l1 "k"⟩

end TwoTier.Manager
