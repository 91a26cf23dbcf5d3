import TwoTier.Proofs.Session.Moves

/-!
# Where records come from

Every record in the tiers of a session goes back to a write in its history. `Origin` says how: the
record is what the write has put into a tier that it targeted, or it is a copy in `l1` of what the
write has put into `l2`, made no later than that was live. There is no copy of a copy, so a copy
outlives what it was made from by the time to live of copies at most (`Origin.live`).

`Sourced` is the invariant that every record has an origin among the writes that were made since its
key was last deleted. Every move keeps it (`Sourced.move`), so it holds throughout a session that
begins with empty tiers, whatever the calls, their flags and the turns of the clock, and it bounds
how stale the answer to a read can be (`Session.provenance`).
-/

namespace TwoTier

open Deployment Manager

/-- **The origin of a record**: how a write of a payload can have led to a record in a tier. -/
inductive Origin (m : Manager) (w : Write) (p : Bytes) : Tier → Bytes → Prop
  | written {i : Tier} (hi : (m.chosen w.options).contains i = true) :
    Origin m w p i (Entry.encode w.now p (m.ttl w.options i))
  /-- The copy was made at reading `n`, when the record in `l2` was live. -/
  | copied {n : Nat} (h2 : (m.chosen w.options).l2 = true)
      (hn : n ≤ Entry.deadline w.now (m.ttl w.options .l2)) :
    Origin m w p .l1 (Entry.encode n p m.warmupTtl)

/-- A reading at which a write may still be read: it has its own time to live in the tiers that it
targets, and what was put into `l2` may have been copied at the end of that. -/
def Write.InTime (m : Manager) (w : Write) (n : Nat) : Prop :=
  ((m.chosen w.options).l1 = true ∧ n ≤ w.now + (m.ttl w.options .l1).toNanos) ∨
    ((m.chosen w.options).l2 = true ∧
      n ≤ w.now + (m.ttl w.options .l2).toNanos + m.warmupTtl.toNanos)

/-- **Every record has an origin** among the writes since its key was last deleted. -/
def Sourced (m : Manager) (H : List Mark) (d : Deployment) : Prop :=
  ∀ i k raw, record? m i k d = some raw →
    ∃ w ∈ since k H, ∃ p, w.Encodes m p ∧ Origin m w p i raw

/-! ### Origins -/

section Origin

variable {m : Manager} {w : Write} {p q raw : Bytes} {i : Tier} {n : Nat}

/-- No record is without a deadline. -/
theorem Origin.deadlineOf_pos (hm : m.Created) (ho : Origin m w p i raw) :
    0 < Entry.deadlineOf raw := by
  cases ho with
  | written =>
    rw [Entry.deadlineOf_encode]
    exact Entry.deadline_pos (hm.ttl_pos ..)
  | copied =>
    rw [Entry.deadlineOf_encode]
    exact Entry.deadline_pos hm.warmupTtl_pos

/-- A live record in `l2` is within the time to live of the write that it comes from. -/
theorem Origin.live_l2 (hm : m.Created) (ho : Origin m w p .l2 raw)
    (hl : Entry.decode n raw = .live q) :
    q = p ∧ (m.chosen w.options).l2 = true ∧ n ≤ Entry.deadline w.now (m.ttl w.options .l2) := by
  cases ho with
  | written h2 =>
    -- in `l2` there are no copies
    obtain ⟨hp, hn⟩ := Entry.encode_live (hm.ttl_pos ..) hl
    exact ⟨hp, h2, hn⟩

/-- **Bounded staleness**: a live record has the payload of the write that it comes from, and is in
time for it. -/
theorem Origin.live (hm : m.Created) (ho : Origin m w p i raw)
    (hl : Entry.decode n raw = .live q) : q = p ∧ w.InTime m n := by
  cases ho with
  | written hi =>
    obtain ⟨hp, hn⟩ := Entry.encode_live (hm.ttl_pos ..) hl
    have hle := Entry.deadline_le_add w.now (hm.ttl_pos w.options i)
    refine ⟨hp, ?_⟩
    -- in `l1` the bound is the write's own, in `l2` it is so even without a copy
    cases i with
    | l1 => exact .inl ⟨hi, by omega⟩
    | l2 => exact .inr ⟨hi, by omega⟩
  | @copied n' h2 hn' =>
    obtain ⟨hp, hn⟩ := Entry.encode_live hm.warmupTtl_pos hl
    refine ⟨hp, .inr ⟨h2, ?_⟩⟩
    calc n ≤ Entry.deadline n' m.warmupTtl := hn
      _ ≤ n' + m.warmupTtl.toNanos := Entry.deadline_le_add n' hm.warmupTtl_pos
      _ ≤ Entry.deadline w.now (m.ttl w.options .l2) + m.warmupTtl.toNanos := by omega
      _ ≤ w.now + (m.ttl w.options .l2).toNanos + m.warmupTtl.toNanos :=
        Nat.add_le_add_right (Entry.deadline_le_add w.now (hm.ttl_pos ..)) _

end Origin

/-! ### The invariant -/

section Invariant

variable {m : Manager} {H M : List Mark} {d d' : Deployment}

/-- Empty tiers have no record to account for. -/
theorem Sourced.empty (hb : Blank m d) : Sourced m H d := by
  intro i k raw hr
  rw [hb i k] at hr
  cases hr

/-- **Every move keeps the origins.** -/
theorem Sourced.move (hm : m.Created) (hs : Sourced m H d) {Q : Write → Prop}
    (h : Move m Q d M d') : Sourced m (M ++ H) d' := by
  intro i k raw hr
  -- a read may copy; a write adds itself; a removal forgets its own key only
  cases h with
  | read he =>
    rcases he.of_record? hr with hr | ⟨rfl, rfl, p, hlive, rfl⟩
    · exact hs i k raw hr
    · -- a copy goes back to the write that its original comes from
      obtain ⟨raw₂, hr₂, hl₂⟩ := record?_of_found_live hlive
      obtain ⟨w, hw, q, hq, ho⟩ := hs .l2 k raw₂ hr₂
      obtain ⟨rfl, h2, hn⟩ := ho.live_l2 hm hl₂
      exact ⟨w, hw, p, hq, .copied h2 hn⟩
  | @write w p _ _ _ hw hnow he =>
    rcases he.of_record? hr with ⟨hk, hi, rfl⟩ | ⟨-, hr⟩
    · refine ⟨w, ?_, p, hw, hnow ▸ .written hi⟩
      rw [List.singleton_append, since_stored_self hk.symm]
      exact List.mem_cons_self
    · obtain ⟨v, hv, hrest⟩ := hs i k raw hr
      exact ⟨v, mem_since_stored hv, hrest⟩
  | @remove key _ he =>
    obtain ⟨hk, hr⟩ := he.of_record? hr
    rw [List.singleton_append, since_of_ne (x := .deleted key) hk.symm]
    exact hs i k raw hr

end Invariant

/-- **Provenance and bounded staleness.** In a session that begins with empty tiers in the process,
whatever the calls, their flags and the turns of the clock: what a call is told by a tier, the read
in `getOrCompute` included, is the payload of a write of its key that was not deleted since, and the
reading is in time for that write; every record has an origin among those writes; and none is
without a deadline. -/
theorem Session.provenance {m : Manager} (hm : m.Created) (hd : m.Distinct) {d : Deployment}
    (hh : Hosted Store.InProcess m d) (hb : Blank m d) (steps : List Step) {S : Session}
    (hS : Session.run m ⟨d, []⟩ steps = S) :
    (∀ (r : Request) i k p, .read i k (.ok (some p)) ∈ r.trace m S.deployment →
      ∃ w ∈ since k S.history, w.Encodes m p ∧ w.InTime m S.deployment.clock.now) ∧
    Sourced m S.history S.deployment ∧
    ∀ i k raw, record? m i k S.deployment = some raw → 0 < Entry.deadlineOf raw := by
  subst hS
  obtain ⟨hs, hh'⟩ :=
    Session.run_induction (P := fun d H => Sourced m H d) (Q := fun _ => True)
      (C := fun _ _ => True) hd Store.closed_inProcess (fun _ h => h)
      (fun _ h hs => hs.move hm h) (fun _ hs => hs) steps ⟨d, []⟩ hh (fun _ _ _ _ => trivial)
      (clocked_true ..) (.empty hb)
  refine ⟨fun r i k p hx => ?_, hs, fun i k raw hr => ?_⟩
  · -- a reply is what is found, and what is found is a live record
    obtain ⟨-, hreply⟩ := r.told hd hh' hx
    have hfound := Entry.Found.payload?_eq_some_iff.mp (Except.ok.inj hreply).symm
    obtain ⟨raw, hr, hl⟩ := record?_of_found_live hfound
    obtain ⟨w, hw, q, hq, ho⟩ := hs i k raw hr
    obtain ⟨rfl, htime⟩ := ho.live hm hl
    exact ⟨w, hw, hq, htime⟩
  · obtain ⟨w, -, p, -, ho⟩ := hs i k raw hr
    exact ho.deadlineOf_pos hm

/-- A write for one second near and five minutes far, and two seconds after it. -/
def twoSecondsLater : List Step :=
  [.request (.set .bool "k" true { l1Ttl := some (.ofSecs 1) }), .clock ⟨⟨2000000000⟩, 2000000000⟩]

/-- The record near is stale, and that far is found; it comes from the write. -/
theorem Session.provenance_twoSecondsLater :
    (sample .bothLevels).Created ∧ (sample .bothLevels).Distinct ∧
      Hosted Store.InProcess (sample .bothLevels) twoFresh ∧ Blank (sample .bothLevels) twoFresh ∧
      (Request.get .bool "k" {}).trace (sample .bothLevels)
          (Session.run (sample .bothLevels) ⟨twoFresh, []⟩ twoSecondsLater).deployment =
        [.read .l1 "k" (.ok none), .read .l2 "k" (.ok (some [1])),
          .write .l1 "k" [1] defaultTtl (.ok ())] ∧
      ∃ w ∈ since "k" (Session.run (sample .bothLevels) ⟨twoFresh, []⟩ twoSecondsLater).history,
        w.Encodes (sample .bothLevels) [1] ∧ w.InTime (sample .bothLevels) 2000000000 := by
  have hh : Hosted Store.InProcess (sample .bothLevels) twoFresh :=
    (twoFresh_hosted .bothLevels).imp fun _ h => h.inProcess
  have htrace : (Request.get .bool "k" {}).trace (sample .bothLevels)
      (Session.run (sample .bothLevels) ⟨twoFresh, []⟩ twoSecondsLater).deployment =
        [.read .l1 "k" (.ok none), .read .l2 "k" (.ok (some [1])),
          .write .l1 "k" [1] defaultTtl (.ok ())] := rfl
  obtain ⟨hhit, -⟩ := Session.provenance (sample_created .bothLevels) (sample_distinct _) hh
    (twoFresh_blank _) twoSecondsLater rfl
  exact ⟨sample_created _, sample_distinct _, hh, twoFresh_blank _, htrace,
    hhit (.get .bool "k" {}) .l2 "k" [1] (by rw [htrace]; simp)⟩

end TwoTier
