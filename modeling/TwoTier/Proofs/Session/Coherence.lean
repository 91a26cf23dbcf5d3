import TwoTier.Proofs.Session.Lodged

/-!
# Two tiers that agree

In the mode of both tiers, as long as no call has a flag for a tier, every write reaches both tiers
and every removal too, so that all the two tiers can differ in is what is missing, and until when it
is live. Two invariants say so:

* `Coherent`: every record has the payload of the latest write of its key, which was not deleted
  since;
* `Fresh`: what the latest write has put into a tier is still there, or something that is live for
  longer, unless its time to live is over. This takes stores without ceilings, and a clock that
  never goes back, and is what `Lodged` says of writes to both tiers.

Every move keeps them (`Coherent.move`, `Fresh.move`). So the tiers never hold different payloads
for a key, a read returns nothing but the latest value, and does return it for as long as one of the
two tiers was asked to keep it (`Session.coherence`).
-/

namespace TwoTier

open Deployment Manager

/-- A call without a flag for a tier, and whose value its codec can take apart again. -/
structure Request.Ordinary (m : Manager) (r : Request) : Prop where
  flagless : r.options.hasOverride = false
  roundTrips : ∀ v, r.value? = some v → v.RoundTrips m.codec

/-- A write by such a call. -/
structure Write.Ordinary (m : Manager) (w : Write) : Prop where
  flagless : w.options.hasOverride = false
  roundTrips : w.value.RoundTrips m.codec

theorem Request.Ordinary.offers {m : Manager} {r : Request} (hr : r.Ordinary m) {w : Write}
    (h : r.Offers w) : w.Ordinary m :=
  ⟨by rw [h.options, hr.flagless], hr.roundTrips _ h.value⟩

/-- In the mode of both tiers, a call without flags targets both. -/
theorem Manager.chosen_of_flagless {m : Manager} (hmode : m.mode = .bothLevels) {o : Options}
    (ho : o.hasOverride = false) : m.chosen o = ⟨true, true⟩ := by
  rw [chosen_eq_targets ho, hmode]
  rfl

/-- … so it targets each of them. -/
theorem Manager.contains_of_flagless {m : Manager} (hmode : m.mode = .bothLevels) {o : Options}
    (ho : o.hasOverride = false) (i : Tier) : (m.chosen o).contains i = true := by
  rw [chosen_of_flagless hmode ho]
  cases i <;> rfl

/-- Under a key that is not empty, it is refused for nothing. -/
theorem Manager.proper_of_flagless {m : Manager} (hmode : m.mode = .bothLevels) {key : String}
    (hk : key ≠ "") {o : Options} (ho : o.hasOverride = false) : m.Proper key o where
  key_ne := hk
  allowed hov := absurd hov.1 (by rw [ho]; decide)
  chooses := by
    rw [chosen_of_flagless hmode ho]
    rfl

/-! ### Coherence -/

/-- **Every record has the payload of the latest write of its key**, and what was written can be
read back. -/
structure Coherent (m : Manager) (H : List Mark) (d : Deployment) : Prop where
  stored : ∀ w, .stored w ∈ H → w.Ordinary m ∧ m.Proper w.key w.options
  record : ∀ i k raw, record? m i k d = some raw → ∃ w p, latest? k H = some w ∧ w.Encodes m p ∧
    ∃ n ttl, raw = Entry.encode n p ttl

section Coherent

variable {m : Manager} {H M : List Mark} {d d' : Deployment}

/-- The latest write under a key is in the history, under that key. -/
theorem mem_of_latest? {k : String} {w : Write} (h : latest? k H = some w) :
    .stored w ∈ H ∧ w.key = k := by
  obtain ⟨newer, older, rfl, hk, -⟩ := latest?_eq_some_iff.mp h
  exact ⟨List.mem_append_right _ List.mem_cons_self, hk⟩

/-- Empty tiers are coherent before anything was stored. -/
theorem Coherent.empty (hb : Blank m d) : Coherent m [] d := by
  refine ⟨fun w hw => (by cases hw), fun i k raw hr => ?_⟩
  rw [hb i k] at hr
  cases hr

/-- A record of coherent tiers is long enough for a deadline. -/
theorem Coherent.deadlineWidth_le (hc : Coherent m H d) {i : Tier} {k : String} {raw : Bytes}
    (hr : record? m i k d = some raw) : Entry.deadlineWidth ≤ raw.length := by
  obtain ⟨-, -, -, -, n, ttl, rfl⟩ := hc.record i k raw hr
  rw [Entry.length_encode]
  exact Nat.le_add_right ..

/-- What is live is what was written last. -/
theorem Coherent.found_live (hc : Coherent m H d) {i : Tier} {k : String} {p : Bytes}
    (hl : found m i k d = .live p) : ∃ w, latest? k H = some w ∧ w.Encodes m p := by
  obtain ⟨raw, hr, hlive⟩ := record?_of_found_live hl
  obtain ⟨w, q, hw, hq, n, ttl, rfl⟩ := hc.record i k raw hr
  obtain ⟨-, -, hp⟩ := Entry.decode_eq_live_iff.mp hlive
  rw [Entry.payloadOf_encode] at hp
  exact ⟨w, hw, hp ▸ hq⟩

/-- Two records of one key have the same payload. -/
theorem Coherent.payloadOf_eq (hc : Coherent m H d) {k : String} {raw₁ raw₂ : Bytes}
    (h₁ : record? m .l1 k d = some raw₁) (h₂ : record? m .l2 k d = some raw₂) :
    Entry.payloadOf raw₁ = Entry.payloadOf raw₂ := by
  obtain ⟨w, p, hw, hp, n, ttl, rfl⟩ := hc.record .l1 k raw₁ h₁
  obtain ⟨w', p', hw', hp', n', ttl', rfl⟩ := hc.record .l2 k raw₂ h₂
  obtain rfl : w = w' := Option.some.inj (hw.symm.trans hw')
  obtain rfl : p = p' := Except.ok.inj (hp.symm.trans hp')
  rw [Entry.payloadOf_encode, Entry.payloadOf_encode]

/-- A read returns nothing but what was stored last. -/
theorem Coherent.get_eq_some (hm : m.Created) (hd : m.Distinct)
    (hh : Hosted Store.InProcess m d) (hc : Coherent m H d) {α : Type} {s : Shape α} {k : String}
    {o : Options} {v : α} (hget : (d.run m (m.get s k o)).1 = .ok (some v)) :
    ∃ w p, latest? k H = some w ∧ w.Encodes m p ∧ m.codec.deserialize s p = .ok v ∧
      ∀ a, w.value = ⟨s, a⟩ → v = a := by
  obtain ⟨i, p, hlive, hv⟩ := found_of_get_eq_some hd hh hm hget
  obtain ⟨w, hw, hp⟩ := hc.found_live hlive
  refine ⟨w, p, hw, hp, hv, fun a ha => ?_⟩
  -- the value was one that reads back, so nothing else can be read of its payload
  have hback := (hc.stored w (mem_of_latest? hw).1).1.roundTrips p hp
  rw [ha] at hback
  exact Except.ok.inj (hv.symm.trans hback)

/-- **Every move keeps coherence.** -/
theorem Coherent.move (hmode : m.mode = .bothLevels) (hc : Coherent m H d)
    (h : Move m (Write.Ordinary m) d M d') : Coherent m (M ++ H) d' := by
  -- a move is a read, a write, or a removal
  cases h with
  | read he =>
    refine ⟨hc.stored, fun i k raw hr => ?_⟩
    rcases he.of_record? hr with hr | ⟨rfl, rfl, p, hlive, rfl⟩
    · exact hc.record i k raw hr
    · -- the copy has the payload, but not the deadline, of its original
      obtain ⟨w, hw, hp⟩ := hc.found_live hlive
      exact ⟨w, p, hw, hp, _, _, rfl⟩
  | @write w p _ hQ hp hw hnow he =>
    refine ⟨?_, fun i k raw hr => ?_⟩
    · intro v hv
      rcases List.mem_cons.mp hv with hv | hv
      · cases hv
        exact ⟨hQ, hp⟩
      · exact hc.stored v hv
    · rcases he.of_record? hr with ⟨hk, -, rfl⟩ | ⟨hk, hr⟩
      · exact ⟨w, p, latest?_stored_self hk.symm, hw, _, _, rfl⟩
      · -- both tiers are targeted, so the key is another
        have hne : w.key ≠ k := by
          rintro rfl
          exact hk ⟨rfl, contains_of_flagless hmode hQ.flagless i⟩
        rw [List.singleton_append, latest?_of_ne (x := .stored w) hne]
        exact hc.record i k raw hr
  | @remove key _ he =>
    refine ⟨fun w hw => hc.stored w (by simpa using hw), fun i k raw hr => ?_⟩
    -- what is left is not of the key that was removed
    obtain ⟨hk, hr⟩ := he.of_record? hr
    rw [List.singleton_append, latest?_of_ne (x := .deleted key) hk.symm]
    exact hc.record i k raw hr

end Coherent

/-! ### Freshness -/

/-- **What the latest write has put into a tier is there**, or something that is live for longer,
unless its deadline has passed. -/
def Fresh (m : Manager) (H : List Mark) (d : Deployment) : Prop :=
  ∀ k w, latest? k H = some w → ∀ i,
    (∃ raw, record? m i k d = some raw ∧ w.deadline m i ≤ Entry.deadlineOf raw) ∨
      w.deadline m i < d.clock.now

section Fresh

variable {m : Manager} {H M : List Mark} {d d' : Deployment} {k : String} {w : Write} {i : Tier}

/-- Of records that agree, freshness says what the latest write has left. -/
theorem Fresh.lodged (hf : Fresh m H d) (hc : Coherent m H d) : Lodged m H d := by
  intro k w hw i _
  refine (hf k w hw i).imp ?_ id
  rintro ⟨raw, hr, hle⟩
  obtain ⟨w', p, hw', hp, n, ttl, rfl⟩ := hc.record i k raw hr
  obtain rfl : w = w' := Option.some.inj (hw.symm.trans hw')
  refine ⟨_, hr, hc.deadlineWidth_le hr, ?_, hle⟩
  rwa [Entry.payloadOf_encode]

/-- In the mode of both tiers, without flags, that is all that freshness says. -/
theorem Lodged.fresh (hmode : m.mode = .bothLevels) (hc : Coherent m H d) (hl : Lodged m H d) :
    Fresh m H d := by
  intro k w hw i
  have hordinary := (hc.stored w (mem_of_latest? hw).1).1
  refine (hl k w hw i (contains_of_flagless hmode hordinary.flagless i)).imp ?_ id
  rintro ⟨raw, hr, -, -, hle⟩
  exact ⟨raw, hr, hle⟩

/-- **Every move keeps freshness**, with hosts that have no ceilings. -/
theorem Fresh.move (hmode : m.mode = .bothLevels) (hh : Hosted Store.Plain m d)
    (hc : Coherent m H d) (hf : Fresh m H d) (h : Move m (Write.Ordinary m) d M d') :
    Fresh m (M ++ H) d' :=
  ((hf.lodged hc).move hh h).fresh hmode (hc.move hmode h)

theorem Fresh.forward (hf : Fresh m H d) {c : Clock} (hle : d.clock.now ≤ c.now) :
    Fresh m H { d with clock := c } :=
  fun k w hw i => (hf k w hw i).imp id fun hlt => Nat.lt_of_lt_of_le hlt hle

/-- A read returns what was stored last for as long as one of the tiers was asked to keep it. -/
theorem Fresh.get (hm : m.Created) (hmode : m.mode = .bothLevels) (hd : m.Distinct)
    (hh : Hosted Store.Plain m d) (hc : Coherent m H d) (hf : Fresh m H d) {o : Options}
    (hw : latest? k H = some w) (ho : o.hasOverride = false)
    (hn : d.clock.now ≤ w.now + (m.ttl w.options i).toNanos) :
    (d.run m (m.get w.value.shape k o)).1 = .ok (some w.value.value) := by
  obtain ⟨hmem, rfl⟩ := mem_of_latest? hw
  obtain ⟨hordinary, hp⟩ := hc.stored w hmem
  have hh' : Hosted Store.InProcess m d := hh.imp fun _ h => h.inProcess
  obtain ⟨p, -, hlive⟩ := (hf.lodged hc).found_live hh hw
    (contains_of_flagless hmode hordinary.flagless i) (Write.le_deadline hm hn)
  -- the read goes through both tiers, and may find a copy in the other one first
  obtain ⟨j, q, hlive', hget⟩ :=
    get_of_found hd hh' hm w.value.shape (proper_of_flagless hmode hp.key_ne ho)
      (contains_of_flagless hmode ho i) hlive
  -- whichever tier it was found in, it is what was stored last
  obtain ⟨w', hw', hq⟩ := hc.found_live hlive'
  obtain rfl : w = w' := Option.some.inj (hw.symm.trans hw')
  exact hget _ (hordinary.roundTrips q hq)

end Fresh

/-! ### The theorem -/

/-- **Coherence and freshness of two tiers.** In a session that begins with empty tiers in the
process, in the mode of both tiers and without flags: two records of one key have the same payload;
what a read returns is what was stored last under its key, which was not deleted since; and if the
stores have no ceilings and room for what they are given, and the wall clock never goes back, what
was stored last is returned for as long as one of the tiers was asked to keep it. -/
theorem Session.coherence {m : Manager} (hm : m.Created) (hmode : m.mode = .bothLevels)
    (hd : m.Distinct) {d : Deployment} (hh : Hosted Store.InProcess m d) (hb : Blank m d)
    (steps : List Step) (hr : ∀ r, .request r ∈ steps → r.Ordinary m) {S : Session}
    (hS : Session.run m ⟨d, []⟩ steps = S) :
    (∀ k raw₁ raw₂, record? m .l1 k S.deployment = some raw₁ →
      record? m .l2 k S.deployment = some raw₂ → Entry.payloadOf raw₁ = Entry.payloadOf raw₂) ∧
    (∀ {α : Type} (s : Shape α) k o v, (S.deployment.run m (m.get s k o)).1 = .ok (some v) →
      ∃ w p, latest? k S.history = some w ∧ w.Encodes m p ∧ m.codec.deserialize s p = .ok v ∧
        ∀ a, w.value = ⟨s, a⟩ → v = a) ∧
    (Hosted Store.Plain m d → Clocked Clock.Forward d.clock steps →
      ∀ k w o, latest? k S.history = some w → o.hasOverride = false →
        ∀ i, S.deployment.clock.now ≤ w.now + (m.ttl w.options i).toNanos →
          (S.deployment.run m (m.get w.value.shape k o)).1 = .ok (some w.value.value)) := by
  subst hS
  -- every write of the session is that of an ordinary call
  have hQ : ∀ r, .request r ∈ steps → ∀ w, r.Offers w → w.Ordinary m :=
    fun r hmem w hw => (hr r hmem).offers hw
  -- coherence is kept by every move, whatever the clock does
  obtain ⟨hc, hh'⟩ :=
    Session.run_induction (P := fun d H => Coherent m H d) (C := fun _ _ => True) hd
      Store.closed_inProcess (fun _ h => h) (fun _ h hc => hc.move hmode h)
      (fun _ hc => ⟨hc.stored, hc.record⟩) steps ⟨d, []⟩ hh hQ (clocked_true ..) (.empty hb)
  refine ⟨fun k raw₁ raw₂ => hc.payloadOf_eq, fun s k o v => hc.get_eq_some hm hd hh', ?_⟩
  -- freshness takes more, and is carried along with coherence
  intro hplain hclock k w o hw ho i hn
  obtain ⟨⟨-, hf⟩, hplain'⟩ :=
    Session.run_induction (P := fun d H => Coherent m H d ∧ Fresh m H d) (C := Clock.Forward) hd
      Store.closed_plain (fun _ h => h.inProcess)
      (fun hh h hcf => ⟨hcf.1.move hmode h, hcf.2.move hmode hh hcf.1 h⟩)
      (fun hle hcf => ⟨⟨hcf.1.stored, hcf.1.record⟩, hcf.2.forward hle⟩) steps ⟨d, []⟩ hplain hQ
      hclock ⟨.empty hb, fun k w hw => by cases hw⟩
  exact hf.get hm hmode hd hplain' hc hw ho hn

/-- A write for one second near and five minutes far, and a read two seconds after it. -/
def readAgain : List Step :=
  [.request (.set .bool "k" true { l1Ttl := some (.ofSecs 1) }), .clock ⟨⟨2000000000⟩, 2000000000⟩,
    .request (.get .bool "k" {})]

theorem readAgain_ordinary (r : Request) (hr : .request r ∈ readAgain) :
    r.Ordinary (sample .bothLevels) := by
  simp only [readAgain, List.mem_cons, Step.request.injEq, reduceCtorEq, List.not_mem_nil,
    or_false, false_or] at hr
  rcases hr with rfl | rfl
  · refine ⟨rfl, fun v hv p hp => ?_⟩
    cases hv
    have hp' : (.ok [1] : Except CodecFailure Bytes) = .ok p := hp
    cases hp'
    rfl
  · exact ⟨rfl, fun v hv => by cases hv⟩

/-- The record near is a copy of that far, with a deadline of its own; the read after it, too,
returns what was written. -/
theorem Session.coherence_readAgain :
    (sample .bothLevels).Created ∧ (sample .bothLevels).mode = .bothLevels ∧
      (sample .bothLevels).Distinct ∧ Hosted Store.InProcess (sample .bothLevels) twoFresh ∧
      Hosted Store.Plain (sample .bothLevels) twoFresh ∧ Blank (sample .bothLevels) twoFresh ∧
      (∀ r, .request r ∈ readAgain → r.Ordinary (sample .bothLevels)) ∧
      Clocked Clock.Forward twoFresh.clock readAgain ∧
      ∀ S, Session.run (sample .bothLevels) ⟨twoFresh, []⟩ readAgain = S →
        record? (sample .bothLevels) .l1 "k" S.deployment =
          some (Entry.encode 2000000000 [1] defaultTtl) ∧
        record? (sample .bothLevels) .l2 "k" S.deployment = some (Entry.encode 0 [1] defaultTtl) ∧
        Entry.payloadOf (Entry.encode 2000000000 [1] defaultTtl) =
          Entry.payloadOf (Entry.encode 0 [1] defaultTtl) ∧
        (S.deployment.run (sample .bothLevels) ((sample .bothLevels).get .bool "k" {})).1 =
          .ok (some true) := by
  have hplain : Hosted Store.Plain (sample .bothLevels) twoFresh := twoFresh_hosted .bothLevels
  have hh : Hosted Store.InProcess (sample .bothLevels) twoFresh :=
    hplain.imp fun _ h => h.inProcess
  have hclock : Clocked Clock.Forward twoFresh.clock readAgain := ⟨Nat.zero_le _, trivial⟩
  refine ⟨sample_created _, rfl, sample_distinct _, hh, hplain, twoFresh_blank _,
    readAgain_ordinary, hclock, ?_⟩
  rintro S rfl
  obtain ⟨hagree, -, hfresh⟩ := Session.coherence (sample_created .bothLevels) rfl
    (sample_distinct _) hh (twoFresh_blank _) readAgain readAgain_ordinary rfl
  refine ⟨rfl, rfl, hagree "k" _ _ rfl rfl, ?_⟩
  exact hfresh hplain hclock "k" ⟨"k", ⟨.bool, true⟩, { l1Ttl := some (.ofSecs 1) }, 0⟩ {} rfl rfl
    .l2 (by decide)

end TwoTier
