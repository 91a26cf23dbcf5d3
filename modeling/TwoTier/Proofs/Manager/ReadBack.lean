import TwoTier.Proofs.Deployment.Keeping
import TwoTier.Proofs.Manager.Reading
import TwoTier.Proofs.Manager.Writing
import TwoTier.Proofs.Session

/-!
# Reading back

A write to both tiers succeeds even if one of them fails. This file says what a read finds after it,
over stores that keep what they are given (`Handler.Keeps`): what was written, unless the write to
`l1` failed and `l1` held something older, which then hides the new value from every read.

A write is told of its tiers, and leaves in each the new payload or what it held before
(`Writing.leaves`); a read is told what the tiers hold (`Reading.eq_held`). `get_after_set` puts the
two together, case by case as `ReadBack` lists them.
-/

namespace TwoTier.Manager

variable {σ α : Type}

/-! ### What a write leaves -/

/-- What is held after a write, by the reply to it. -/
def heldAfter (p : Bytes) (old : Option Bytes) : Except Failure Unit → Option Bytes
  | .ok () => some p
  | .error _ => old

/-- **What a write to both tiers leaves**: each tier has its reply, one of them keeps the payload,
and a tier that fails holds what it held before. -/
structure LeftInBoth (m : Manager) (key : String) (o : Options) (p : Bytes)
    (T : List (Exchange Tier)) (reply : Tier → Except Failure Unit)
    (before after : Tier → Option Bytes) : Prop where
  asked : ∀ i, .write i key p (m.ttl o i) (reply i) ∈ T
  told : ∀ i k q ttl x, .write i k q ttl x ∈ T → x = reply i
  kept : ∃ i, reply i = .ok ()
  held : ∀ i, after i = heldAfter p (before i) (reply i)

/-- The two replies and what the tiers hold after them say what the write has left. -/
theorem LeftInBoth.of_replies {m : Manager} {key : String} {o : Options} {p : Bytes}
    {T : List (Exchange Tier)} {x1 x2 : Except Failure Unit} {before after : Tier → Option Bytes}
    (hT : ∀ y, y ∈ T ↔
      y = .write .l1 key p (m.ttl o .l1) x1 ∨ y = .write .l2 key p (m.ttl o .l2) x2)
    (hr : bothResult x1 x2 = .ok ()) (h1 : after .l1 = heldAfter p (before .l1) x1)
    (h2 : after .l2 = heldAfter p (before .l2) x2) :
    LeftInBoth m key o p T (fun | .l1 => x1 | .l2 => x2) before after where
  asked i := by
    rw [hT]
    cases i
    · exact .inl rfl
    · exact .inr rfl
  told i k q ttl x hx := by
    rcases (hT _).mp hx with hx | hx <;> cases hx <;> rfl
  kept := by
    rcases bothResult_eq_ok_iff.mp hr with hr | hr
    · exact ⟨.l1, hr⟩
    · exact ⟨.l2, hr⟩
  held i := by
    cases i
    · exact h1
    · exact h2

section Keeps

variable {h : Handler Tier σ} {I : σ → Prop} {held : Tier → String → σ → Option Bytes} {m : Manager}
  {s : Shape α} {key : String} {a : α} {o : Options} {st st' : σ} {T : List (Exchange Tier)}

section Write

variable (hk : h.Keeps I held) (hI : I st)
include hk hI

/-- After a write to one tier, that tier holds the payload if it has succeeded, and all else is held
as before. -/
theorem held_afterWrite {i : Tier} {p : Bytes} {x : Except Failure Unit × σ}
    (hx : asked h m key o i p st = x) :
    I (afterWrite h m key o i p x) ∧ ∀ j, held j key (afterWrite h m key o i p x) =
      if j = i then heldAfter p (held j key st) x.1 else held j key st := by
  subst hx
  have hI' := hk.serve i (.set key p (m.ttl o i)) st hI
  unfold afterWrite
  -- a write that fails leaves what was held, in the tier itself too
  cases hr : (asked h m key o i p st).1 with
  | ok u =>
    refine ⟨hk.note _ _ hI', fun j => ?_⟩
    have hset := hk.written i key p (m.ttl o i) st hI hr j key
    simpa only [hk.held_note, and_true, heldAfter] using hset
  | error f =>
    refine ⟨hI', fun j => ?_⟩
    have hset := hk.unwritten i key p (m.ttl o i) st f hI hr j key
    simpa only [heldAfter, ite_self] using hset

/-- The events after the two writes change nothing that is held. -/
theorem held_afterBoth (r1 r2 : Except Failure Unit) :
    I (afterBoth h key r1 r2 st) ∧
      ∀ j, held j key (afterBoth h key r1 r2 st) = held j key st := by
  unfold afterBoth
  split
  · exact ⟨hk.note _ _ hI, fun j => hk.held_note ..⟩
  · exact ⟨hk.note _ _ hI, fun j => hk.held_note ..⟩
  · exact ⟨hI, fun j => rfl⟩

/-- A write to both tiers that succeeds leaves the payload in one of them at least. -/
theorem Writing.leaves {order : WriteOrder} {r : Result Unit} (hboth : m.chosen o = ⟨true, true⟩)
    (hr : r = .ok ()) (hw : Writing h m s key a o order st T r st') :
    I st' ∧ ∃ p reply, m.codec.serialize s a = .ok p ∧
      LeftInBoth m key o p T reply (fun i => held i key st) (fun i => held i key st') := by
  cases hw with
  | refused | unserializable | untargeted => cases hr
  | single _ _ ht hi =>
    -- both tiers are targeted, and not one
    obtain ⟨rfl, -, -⟩ := of_targets ht
    rw [hboth] at hi
    cases hi
  | @l1First p _ x1 x2 _ hs _ _ _ h1 h2 =>
    -- neither write touches what the other tier holds
    obtain ⟨hI1, hheld1⟩ := held_afterWrite hk hI h1
    obtain ⟨hI2, hheld2⟩ := held_afterWrite hk hI1 h2
    obtain ⟨hI', hheld⟩ := held_afterBoth hk hI2 x1.1 x2.1
    refine ⟨hI', p, _, hs, .of_replies (by simp) hr ?_ ?_⟩
    · simp [hheld, hheld2, hheld1]
    · simp [hheld, hheld2, hheld1]
  | @l2First p _ x1 x2 _ hs _ _ _ h2 h1 =>
    obtain ⟨hI2, hheld2⟩ := held_afterWrite hk hI h2
    obtain ⟨hI1, hheld1⟩ := held_afterWrite hk hI2 h1
    obtain ⟨hI', hheld⟩ := held_afterBoth hk hI1 x1.1 x2.1
    refine ⟨hI', p, _, hs, .of_replies (by simp [or_comm]) hr ?_ ?_⟩
    · simp [hheld, hheld2, hheld1]
    · simp [hheld, hheld2, hheld1]

end Write

/-! ### What a read is told -/

section Read

variable {t : Targets} {r : Result (Option α)} (hk : h.Keeps I held) (hI : I st)
include hk hI

/-- The read of the second tier is told what that holds. -/
theorem BeyondL1.eq_held (hb : BeyondL1 h m s key o t st T r st') {i : Tier} {k : String}
    {found : Option Bytes} (hx : .read i k (.ok found) ∈ T) : found = held .l2 key st := by
  cases hb with
  | notAsked => cases hx
  | failed => simp at hx
  | missed _ hr | undecodable _ hr | hit _ hr | warmed _ hr =>
    obtain ⟨-, -, rfl⟩ : i = .l2 ∧ k = key ∧ found = _ := by simpa using hx
    exact hk.read .l2 key st _ hI (by rw [hr])

/-- A read is told what the tiers hold before it. -/
theorem Reading.eq_held (hr : Reading h m s key o st T r st') {i : Tier} {k : String}
    {found : Option Bytes} (hx : .read i k (.ok found) ∈ T) : found = held i key st := by
  cases hr with
  | refused => cases hx
  | beyond _ _ hb =>
    obtain ⟨rfl, -, -⟩ := hb.read hx
    exact hb.eq_held hk hI hx
  | failed => simp at hx
  | hit _ _ hr =>
    obtain ⟨rfl, -, rfl⟩ : i = .l1 ∧ k = key ∧ found = _ := by simpa using hx
    exact hk.read .l1 key st _ hI (by rw [hr])
  | @missed _ _ _ st₁ _ _ _ hr hb =>
    rcases List.mem_cons.mp hx with hx | hx
    · obtain ⟨rfl, -, rfl⟩ : i = .l1 ∧ k = key ∧ found = _ := by simpa using hx
      exact hk.read .l1 key st _ hI (by rw [hr])
    · -- the read of `l1` before it has changed nothing that is held
      obtain ⟨rfl, -, -⟩ := hb.read hx
      have hst₁ : st₁ = (h.serve .l1 (.get key) st).2 := by rw [hr]
      have hI₁ : I (h.note (.miss key .l1) st₁) := by
        rw [hst₁]
        exact hk.note _ _ (hk.serve _ _ st hI)
      rw [hb.eq_held hk hI₁ hx, hk.held_note, hst₁, hk.held_read .l1 key .l2 key st hI]

end Read

end Keeps

/-! ### Reading back what was written -/

/-- A write to a tier has failed. -/
def FailedIn (i : Tier) (T : List (Exchange Tier)) : Prop :=
  ∃ k p ttl f, .write i k p ttl (.error f) ∈ T

/-- **What is read back** after a write of `v` to both tiers that succeeded: `old` is what `l1` held
before it, `T` is the trace of the write, and `G` and `r` are the trace and the result of the
read. -/
structure ReadBack (m : Manager) (s : Shape α) (key : String) (v : α) (o : Options)
    (old : Option Bytes) (T G : List (Exchange Tier)) (r : Result (Option α)) : Prop where
  /-- If the write to `l1` failed and `l1` held something, then that is read, whether it decodes or
  not, and `l2` is not asked. -/
  stale : FailedIn .l1 T → ∀ q, old = some q →
    (r = match m.codec.deserialize s q with
      | .ok b => .ok (some b)
      | .error f => .error (.deserialization m.codec.name f)) ∧
    ∀ x ∈ G, x.store = .l1
  /-- In all other cases the value is read. -/
  fresh : ¬(FailedIn .l1 T ∧ old.isSome = true) → r = .ok (some v)
  /-- If the write to `l1` failed and `l1` held nothing, the value is read in `l2`, and an attempt
  is made to copy it into `l1` exactly if the mode is that of both tiers and the call left `l1`
  open. -/
  far : FailedIn .l1 T → old = none → ∃ p, .read .l2 key (.ok (some p)) ∈ G ∧
    ((∃ reply, .write .l1 key p m.warmupTtl reply ∈ G) ↔
      m.mode = .bothLevels ∧ o.targetL1 = none)

section ReadBack

variable {h : Handler Tier σ} {I : σ → Prop} {held : Tier → String → σ → Option Bytes} {m : Manager}
  {s : Shape α} {key : String} {a : α} {o : Options} {st : σ} {T : List (Exchange Tier)}

/-- A write that succeeds was carried out. -/
theorem WriteFootprint.proper (hf : m.WriteFootprint s key a o T (.ok ()))
    (hne : (m.chosen o).isEmpty = false) : m.Proper key o where
  key_ne hk := by cases (hf.emptyKey hk).2
  allowed ho := by
    by_cases hk : key = ""
    · cases (hf.emptyKey hk).2
    · cases (hf.oversteps hk ho).2
  chooses := hne

section Left

variable {p : Bytes} {reply : Tier → Except Failure Unit} {before after : Tier → Option Bytes}
  (hl : LeftInBoth m key o p T reply before after)
include hl

/-- A tier has failed exactly if its reply is an error. -/
theorem LeftInBoth.failedIn_iff (i : Tier) : FailedIn i T ↔ ∃ f, reply i = .error f := by
  constructor
  · rintro ⟨k, q, ttl, f, hx⟩
    exact ⟨f, (hl.told i k q ttl _ hx).symm⟩
  · rintro ⟨f, hr⟩
    exact ⟨key, p, m.ttl o i, f, hr ▸ hl.asked i⟩

/-- A tier that has failed is as it was, … -/
theorem LeftInBoth.of_failed {i : Tier} (hfail : FailedIn i T) : after i = before i := by
  obtain ⟨f, hr⟩ := (hl.failedIn_iff i).mp hfail
  rw [hl.held i, hr, heldAfter]

/-- … and one that has not has the payload, … -/
theorem LeftInBoth.of_not_failed {i : Tier} (hok : ¬FailedIn i T) : after i = some p := by
  cases hr : reply i with
  | error f => exact absurd ((hl.failedIn_iff i).mpr ⟨f, hr⟩) hok
  | ok u => rw [hl.held i, hr, heldAfter]

/-- … as at least one of them does. -/
theorem LeftInBoth.l2_of_failed_l1 (hfail : FailedIn .l1 T) : after .l2 = some p := by
  -- if both had failed, the write would not have succeeded
  refine hl.of_not_failed fun hfail2 => ?_
  obtain ⟨f1, h1⟩ := (hl.failedIn_iff .l1).mp hfail
  obtain ⟨f2, h2⟩ := (hl.failedIn_iff .l2).mp hfail2
  obtain ⟨i, hi⟩ := hl.kept
  cases i
  · cases h1.symm.trans hi
  · cases h2.symm.trans hi

end Left

section Told

variable {r : Result (Option α)} {G : List (Exchange Tier)} {after : Tier → Option Bytes}
  (hf : m.ReadFootprint s key o G r) (hp : m.Proper key o) (hboth : m.chosen o = ⟨true, true⟩)
  (htold : ∀ i k found, .read i k (.ok found) ∈ G → found = after i)
include hf hp hboth htold

/-- What `l1` holds ends a read. -/
theorem ReadFootprint.store_eq_l1 {q : Bytes} (h1 : after .l1 = some q) :
    ∀ x ∈ G, x.store = .l1 := by
  -- `l2` is read after a clean miss only, and nothing is copied without a read of `l2`
  have hnever (k : String) (reply : Except Failure (Option Bytes)) : .read .l2 k reply ∉ G := by
    intro hx
    obtain ⟨rfl, -⟩ := hf.read_chosen .l2 k reply hx
    rcases ((hf.read_l2 hp).mp ⟨reply, hx⟩).2 with hl1 | hmiss
    · rw [hboth] at hl1
      cases hl1
    · cases h1.symm.trans (htold .l1 k none hmiss).symm
  intro x hx
  match x, hf.only x hx with
  | .read .l1 k reply, _ => rfl
  | .read .l2 k reply, _ => exact absurd hx (hnever k reply)
  | .write i k p ttl reply, _ => exact absurd (hf.write_l1 i k p ttl reply hx).2.2.2 (hnever key _)

variable (hreads : ∀ i k f, .read i k (.error f) ∉ G)
include hreads

/-- `l1` is read first, and tells what it holds. -/
theorem ReadFootprint.read_l1_held : .read .l1 key (.ok (after .l1)) ∈ G := by
  obtain ⟨reply, hx⟩ := (hf.read_l1 hp).mpr (by rw [hboth])
  -- no store fails to read here
  cases reply with
  | error f => exact absurd hx (hreads .l1 key f)
  | ok found =>
    obtain rfl := htold .l1 key found hx
    exact hx

/-- `l2` is read if `l1` holds nothing, and tells what it holds. -/
theorem ReadFootprint.read_l2_held (h1 : after .l1 = none) :
    .read .l2 key (.ok (after .l2)) ∈ G := by
  have hmiss := hf.read_l1_held hp hboth htold hreads
  rw [h1] at hmiss
  obtain ⟨reply, hx⟩ := (hf.read_l2 hp).mpr ⟨by rw [hboth], .inr hmiss⟩
  cases reply with
  | error f => exact absurd hx (hreads .l2 key f)
  | ok found =>
    obtain rfl := htold .l2 key found hx
    exact hx

/-- A read that is told what a write has left reads it back. -/
theorem LeftInBoth.readBack {p : Bytes} {reply : Tier → Except Failure Unit}
    {before : Tier → Option Bytes} (hl : LeftInBoth m key o p T reply before after) {v : α}
    (hv : m.codec.deserialize s p = .ok v) : ReadBack m s key v o (before .l1) T G r where
  stale hfail q hq := by
    have hafter : after .l1 = some q := (hl.of_failed hfail).trans hq
    have hnear := hf.read_l1_held hp hboth htold hreads
    rw [hafter] at hnear
    exact ⟨hf.hit .l1 q hnear, hf.store_eq_l1 hp hboth htold hafter⟩
  fresh hnot := by
    -- the tier that is read is one that has the payload
    have hread : ∃ i, .read i key (.ok (some p)) ∈ G := by
      by_cases hfail : FailedIn .l1 T
      · have hnone : after .l1 = none := by
          rw [hl.of_failed hfail]
          exact Option.not_isSome_iff_eq_none.mp fun hold => hnot ⟨hfail, hold⟩
        have hfar := hf.read_l2_held hp hboth htold hreads hnone
        exact ⟨.l2, hl.l2_of_failed_l1 hfail ▸ hfar⟩
      · have hnear := hf.read_l1_held hp hboth htold hreads
        exact ⟨.l1, hl.of_not_failed hfail ▸ hnear⟩
    obtain ⟨i, hx⟩ := hread
    rw [hf.hit i p hx, hv]
  far hfail hnone := by
    have hfar := hf.read_l2_held hp hboth htold hreads ((hl.of_failed hfail).trans hnone)
    rw [hl.l2_of_failed_l1 hfail] at hfar
    refine ⟨p, hfar, ?_⟩
    constructor
    · rintro ⟨reply, hx⟩
      obtain ⟨q, b, -, -, hmode, hflag⟩ := hf.writes.mp ⟨_, _, _, _, _, hx⟩
      exact ⟨hmode, hflag⟩
    · rintro ⟨hmode, hflag⟩
      obtain ⟨i, k, q, ttl, reply, hx⟩ := hf.writes.mpr ⟨p, v, hfar, hv, hmode, hflag⟩
      obtain ⟨rfl, rfl, rfl, hq⟩ := hf.write_l1 i k q ttl reply hx
      -- what is copied is what was read
      have hqp : some q = some p :=
        (htold .l2 k (some q) hq).trans (htold .l2 k (some p) hfar).symm
      cases hqp
      exact ⟨reply, hx⟩

end Told

/-- **Reading back.** Over stores that keep what they are given, a read after a write to both tiers
that succeeded returns the value, unless `l1` failed to write and held something older. -/
theorem get_after_set (hm : m.Created) (hk : h.Keeps I held) (hI : I st)
    (hboth : m.chosen o = ⟨true, true⟩) {v : α} (hv : (⟨s, v⟩ : Typed).RoundTrips m.codec)
    (hset : ((m.set s key v o).run h st).1 = .ok ()) {st' : σ}
    (hst' : ((m.set s key v o).run h st).2 = st')
    (hreads : ∀ i k f, .read i k (.error f) ∉ (m.get s key o).trace h st') :
    ReadBack m s key v o (held .l1 key st) ((m.set s key v o).trace h st)
      ((m.get s key o).trace h st') ((m.get s key o).run h st').1 := by
  have hw := writing h m s key v o m.writeOrder st
  rw [← set, hset, hst'] at hw
  -- what the write has left, in whichever order it went
  obtain ⟨hI', p, reply, hs, hl⟩ := hw.leaves hk hI hboth rfl
  have hp : m.Proper key o := (hw.footprint hm).proper (by rw [hboth]; rfl)
  have hread := reading h m s key o st'
  have hf := hread.footprint hm
  exact hl.readBack hf hp hboth (fun i k found hx => hread.eq_held hk hI' hx) hreads (hv p hs)

end ReadBack

/-- Two recording stores, of which the one in the process has an older value and refuses writes. -/
def staleNear : Deployment where
  clock := ⟨⟨0⟩, 0⟩
  stores := TextMap.ofList
    [("far", .recording { name := "Far" }),
      ("near", .recording
        { name := "Near"
          data := TextMap.ofList [("k", ([0], defaultTtl))]
          setFault := some { text := "full" } })]

theorem staleNear_keeping (mode : Mode) :
    Deployment.Hosted (Store.Keeping staleNear.clock) (sample mode) staleNear := by
  intro i _
  cases i
  · exact ⟨_, rfl, trivial⟩
  · exact ⟨_, rfl, trivial⟩

/-- The write succeeds, and the older value is still read. -/
theorem get_after_set_staleNear :
    let m := sample .bothLevels
    let h := Deployment.handler m
    let st' := ((m.set .bool "k" true {}).run h staleNear).2
    m.Created ∧ m.Distinct ∧ Deployment.Hosted (Store.Keeping staleNear.clock) m staleNear ∧
      m.chosen {} = ⟨true, true⟩ ∧ (⟨Shape.bool, true⟩ : Typed).RoundTrips m.codec ∧
      ((m.set .bool "k" true {}).run h staleNear).1 = .ok () ∧
      (m.get .bool "k" {}).trace h st' = [.read .l1 "k" (.ok (some [0]))] ∧
      ((m.get .bool "k" {}).run h st').1 = .ok (some false) := by
  intro m h st'
  have hm : m.Created := sample_created .bothLevels
  have hd : m.Distinct := sample_distinct .bothLevels
  have hkeeping := staleNear_keeping .bothLevels
  have hv : (⟨Shape.bool, true⟩ : Typed).RoundTrips m.codec := by
    intro p hp
    cases hp
    rfl
  have htrace : (m.get .bool "k" {}).trace h st' = [.read .l1 "k" (.ok (some [0]))] := rfl
  have hreads (i : Tier) (k : String) (f : Failure) :
      .read i k (.error f) ∉ (m.get .bool "k" {}).trace h st' := by
    rw [htrace]
    simp
  have hback := get_after_set hm (Deployment.handler_keeps hd) hkeeping rfl hv rfl rfl hreads
  have hfail : FailedIn .l1 ((m.set .bool "k" true {}).trace h staleNear) :=
    ⟨"k", [1], defaultTtl, { text := "full" }, List.mem_cons_self⟩
  exact ⟨hm, hd, hkeeping, rfl, hv, rfl, htrace, (hback.stale hfail [0] rfl).1⟩

end TwoTier.Manager
