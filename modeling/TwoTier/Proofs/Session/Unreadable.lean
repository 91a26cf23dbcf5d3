import TwoTier.Proofs.Session.Lodged

/-!
# Values that cannot be read back

A codec may make a payload of a value and refuse that payload afterwards (`Typed.Unreadable`). The
manager does not find out when it writes: the write succeeds as any other, and every read fails that
is told of the payload, from whichever tier, without looking further and without copying it
(`ReadFootprint.of_undecodable`).

For how long reads are told of it is a matter of the records, whatever their payloads are. `Lodged`
says until when the payload is in a tier; that nothing else can be there instead is the invariant
`Sole`: what is in a tier is of the latest write, if that wrote the tier and nothing else can get
there (`Write.Rules`).

So the manager **swallows** the value (`Manager.Swallows`): it takes it, and every read until the
deadline, or until the next write or removal, returns the failure to decode it.
-/

namespace TwoTier

open Deployment Manager

/-- A codec makes a payload of the value, and refuses it with the failure `f`. -/
def Typed.Unreadable (c : Codec) (v : Typed) (f : CodecFailure) : Prop :=
  ∃ p, c.serialize v.shape v.value = .ok p ∧ c.deserialize v.shape p = .error f

/-! ### Single calls -/

namespace Manager

variable {σ α : Type} {m : Manager} {s : Shape α} {key : String} {a : α} {o : Options} {p : Bytes}
  {f : CodecFailure} {i : Tier}

/-- A read that is told of a payload which does not decode fails with that, and writes nothing. -/
theorem ReadFootprint.of_undecodable {T : List (Exchange Tier)} {r : Result (Option α)}
    (hf : m.ReadFootprint s key o T r) (hd : m.codec.deserialize s p = .error f)
    (hx : .read i key (.ok (some p)) ∈ T) :
    r = .error (.deserialization m.codec.name f) ∧ ∀ x ∈ T, x.isRead = true := by
  have hr : r = .error (.deserialization m.codec.name f) := by rw [hf.hit i p hx, hd]
  refine ⟨hr, fun x hmem => ?_⟩
  rcases hf.only x hmem with hread | hwrite
  · exact hread
  · -- a copy would be of a payload that decodes, and then the read would have its value
    cases x with
    | write j k q ttl reply =>
      obtain ⟨q, b, hl2, hq, -⟩ := hf.writes.mp ⟨j, k, q, ttl, reply, hmem⟩
      have hok := hf.hit .l2 q hl2
      rw [hq, hr] at hok
      cases hok
    | read | removal | health => cases hwrite

/-- A write succeeds exactly if a store takes the payload. -/
theorem set_eq_ok_iff (hm : m.Created) (hp : m.Proper key o) (hs : m.codec.serialize s a = .ok p)
    (h : Handler Tier σ) (st : σ) :
    ((m.set s key a o).run h st).1 = .ok () ↔
      ∃ i, .write i key p (m.ttl o i) (.ok ()) ∈ (m.set s key a o).trace h st := by
  obtain ⟨reply, hT, hok, -⟩ := ((set_footprint hm s key a o h st).1).written hp p hs
  rw [hok]
  constructor
  · rintro ⟨i, hi, hr⟩
    refine ⟨i, hT.mem_iff.mpr (List.mem_map.mpr ⟨i, Targets.mem_toList.mpr hi, ?_⟩)⟩
    rw [hr]
  · rintro ⟨i, hx⟩
    obtain ⟨j, hj, heq⟩ := List.mem_map.mp (hT.mem_iff.mp hx)
    obtain ⟨rfl, -, -, -, hr⟩ := Exchange.write.inj heq
    exact ⟨j, Targets.mem_toList.mp hj, hr⟩

section Hosted

variable {d : Deployment} (hm : m.Created) (hd : m.Distinct) (hh : Hosted Store.InProcess m d)
include hm hd hh

/-- Stores in the process take every payload, so the first write decides the result. -/
theorem Writing.eq_ok {order : WriteOrder} {T : List (Exchange Tier)} {r : Result Unit}
    {d' : Deployment} (hw : Writing (handler m) m s key a o order d T r d')
    (hp : m.Proper key o) (hs : m.codec.serialize s a = .ok p) : r = .ok () := by
  -- it is not refused, and whatever it targets takes the payload
  cases hw with
  | refused hc =>
    rw [check_eq_ok_iff.mpr ⟨hp.key_ne, hp.allowed⟩] at hc
    cases hc
  | unserializable _ hs' =>
    rw [hs] at hs'
    cases hs'
  | untargeted _ _ ht =>
    rw [hm.targets_eq hp.allowed, hp.chooses, if_neg Bool.false_ne_true] at ht
    cases ht
  | single _ _ ht hi =>
    obtain ⟨rfl, -, hall⟩ := of_targets ht
    rw [(asked_effect hd hh (hasTier_of_toList m hi hall) rfl).1]
    rfl
  | l1First _ _ ht hi _ h1 _ =>
    obtain ⟨rfl, -, hall⟩ := of_targets ht
    have h1' := hall .l1 ((contains_of_toList hi .l1).mpr (by simp))
    exact bothResult_eq_ok_iff.mpr (.inl (asked_effect hd hh h1' h1).1)
  | l2First _ _ ht hi _ h2 _ =>
    obtain ⟨rfl, -, hall⟩ := of_targets ht
    have h2' := hall .l2 ((contains_of_toList hi .l2).mpr (by simp))
    exact bothResult_eq_ok_iff.mpr (.inr (asked_effect hd hh h2' h2).1)

/-- A read is told of what is live in a tier that it targets, if nothing else is live in `l1`, which
it asks first. -/
theorem exists_told (s : Shape α) (hp : m.Proper key o) (hi : (m.chosen o).contains i = true)
    (hl : found m i key d = .live p)
    (hfirst : i = .l2 → (m.chosen o).l1 = true → ∀ q, found m .l1 key d = .live q → q = p) :
    ∃ j, .read j key (.ok (some p)) ∈ (m.get s key o).trace (handler m) d := by
  have hread := reading (handler m) m s key o d
  have hf := hread.footprint hm
  have htold : ∀ j, (∃ reply, .read j key reply ∈ (m.get s key o).trace (handler m) d) →
      .read j key (.ok (found m j key d).payload?) ∈ (m.get s key o).trace (handler m) d := by
    rintro j ⟨reply, hx⟩
    rw [← (hread.told hd hh hx).2]
    exact hx
  -- a tier that is asked has something live
  have hlive : ∀ j, (∃ reply, .read j key reply ∈ (m.get s key o).trace (handler m) d) →
      found m j key d = .live p →
      ∃ j, .read j key (.ok (some p)) ∈ (m.get s key o).trace (handler m) d := by
    intro j hj hlj
    have hx := htold j hj
    rw [Entry.Found.payload?_eq_some_iff.mpr hlj] at hx
    exact ⟨j, hx⟩
  cases i with
  | l1 => exact hlive .l1 ((hf.read_l1 hp).mpr hi) hl
  | l2 =>
    -- `l2` is read if `l1` is left out, or has nothing; what `l1` has is the payload too
    cases hl1 : (m.chosen o).l1 with
    | false => exact hlive .l2 ((hf.read_l2 hp).mpr ⟨hi, .inl hl1⟩) hl
    | true =>
      have hasked := (hf.read_l1 hp).mpr hl1
      cases hq : (found m .l1 key d).payload? with
      | none =>
        have hmiss := htold .l1 hasked
        rw [hq] at hmiss
        exact hlive .l2 ((hf.read_l2 hp).mpr ⟨hi, .inr hmiss⟩) hl
      | some q =>
        have hlq := Entry.Found.payload?_eq_some_iff.mp hq
        exact hlive .l1 hasked (hfirst rfl hl1 q hlq ▸ hlq)

end Hosted

end Manager

/-! ### What is left of the latest write -/

/-- A write **rules** a tier if nothing but what it wrote can be there: it wrote the tier, and what
may be copied into `l1`, too. -/
def Write.Rules (m : Manager) (w : Write) (i : Tier) : Prop :=
  (m.chosen w.options).contains i = true ∧
    (i = .l1 → m.hasTier .l2 = true → (m.chosen w.options).l2 = true)

/-- **Every record in a tier that the latest write of its key rules is of that write.** -/
def Sole (m : Manager) (H : List Mark) (d : Deployment) : Prop :=
  ∀ k w, latest? k H = some w → ∀ i, w.Rules m i → ∀ raw, record? m i k d = some raw →
    w.Encodes m (Entry.payloadOf raw)

section Sole

variable {m : Manager} {H M : List Mark} {d d' : Deployment} {k : String} {w : Write} {i : Tier}
  {p : Bytes}

theorem Sole.empty : Sole m [] d := fun _ _ hw => by cases hw

/-- What is live in such a tier is the payload of that write. -/
theorem Sole.found_live (hs : Sole m H d) (hw : latest? k H = some w) (hi : w.Rules m i)
    (hl : found m i k d = .live p) : w.Encodes m p := by
  obtain ⟨raw, hr, hlive⟩ := record?_of_found_live hl
  obtain ⟨-, -, rfl⟩ := Entry.decode_eq_live_iff.mp hlive
  exact hs k w hw i hi raw hr

/-- A write that rules `l1` rules `l2`, if something is there. -/
theorem Write.Rules.of_copied (hi : w.Rules m .l1) (hl : found m .l2 k d = .live p) :
    w.Rules m .l2 := by
  obtain ⟨raw, hr, -⟩ := record?_of_found_live hl
  exact ⟨hi.2 rfl (hasTier_of_record? hr), nofun⟩

/-- **Every move keeps the records of the latest write alone.** -/
theorem Sole.move {Q : Write → Prop} (hs : Sole m H d) (h : Move m Q d M d') :
    Sole m (M ++ H) d' := by
  intro k w hw i hi raw hr
  -- a read may copy, a write replaces, and a removal takes away
  cases h with
  | read he =>
    rcases he.of_record? hr with hr | ⟨rfl, rfl, p, hlive, rfl⟩
    · exact hs k w hw i hi raw hr
    · -- a copy has the payload of its original, which is of the same write
      rw [Entry.payloadOf_encode]
      exact hs.found_live hw (hi.of_copied hlive) hlive
  | @write v p _ _ _ hv hnow he =>
    -- a write of the key is the latest from now on; any other leaves it alone
    by_cases hk : v.key = k
    · rw [List.singleton_append, latest?_stored_self hk] at hw
      cases hw
      rw [he.record, if_pos ⟨hk.symm, hi.1⟩] at hr
      cases hr
      rw [Entry.payloadOf_encode]
      exact hv
    · rw [List.singleton_append, latest?_of_ne (x := .stored v) hk] at hw
      rw [he.record, if_neg fun h => hk h.1.symm] at hr
      exact hs k w hw i hi raw hr
  | @remove key _ he =>
    obtain ⟨hk, hr⟩ := he.of_record? hr
    rw [List.singleton_append, latest?_of_ne (x := .deleted key) hk.symm] at hw
    exact hs k w hw i hi raw hr

end Sole

/-! ### Values that are swallowed -/

/-- **A manager swallows a value**: it takes the value, and reads of it end in the failure `e`. -/
structure Manager.Swallows (m : Manager) (v : Typed) (e : CacheError) : Prop where
  /-- A write of the value succeeds exactly if a store takes the payload, … -/
  set : ∀ {σ : Type} (h : Handler Tier σ) (st : σ) (key : String) (o : Options), m.Proper key o →
    (((m.set v.shape key v.value o).run h st).1 = .ok () ↔
      ∃ i p, .write i key p (m.ttl o i) (.ok ()) ∈ (m.set v.shape key v.value o).trace h st)
  /-- … as stores in the process do. -/
  set_hosted : m.Distinct → ∀ d, Hosted Store.InProcess m d → ∀ key o, m.Proper key o →
    (d.run m (m.set v.shape key v.value o)).1 = .ok ()
  /-- A read that is told of the payload by a tier fails, and writes nothing. -/
  get : ∀ {σ : Type} (h : Handler Tier σ) (st : σ) (key : String) (o : Options) (i : Tier) p,
    m.codec.serialize v.shape v.value = .ok p →
    .read i key (.ok (some p)) ∈ (m.get v.shape key o).trace h st →
      ((m.get v.shape key o).run h st).1 = .error e ∧
        ∀ x ∈ (m.get v.shape key o).trace h st, x.isRead = true
  /-- Whatever has been done since the value was written to all tiers, neither a write nor a removal
  of its key among it: a read of a tier in which there is something live fails. -/
  get_live : m.Distinct → ∀ d, Hosted Store.InProcess m d → ∀ steps S,
    Session.run m ⟨d, []⟩ steps = S → ∀ key w, latest? key S.history = some w → w.value = v →
    (∀ i, m.hasTier i = true → (m.chosen w.options).contains i = true) →
    ∀ o, m.Proper key o →
      (∃ i p, (m.chosen o).contains i = true ∧ found m i key S.deployment = .live p) →
        (S.deployment.run m (m.get v.shape key o)).1 = .error e
  /-- If the stores have no ceilings and room for what they are given, and the clock never goes
  back, a read of a tier that was written fails for as long as the tier was asked to keep the value;
  of the two tiers, `l1` must have been written to be read before `l2`. -/
  get_lasting : m.Distinct → ∀ d, Hosted Store.Plain m d → ∀ steps S,
    Session.run m ⟨d, []⟩ steps = S → Clocked Clock.Forward d.clock steps →
    ∀ key w, latest? key S.history = some w → w.value = v → ∀ o, m.Proper key o →
    ∀ i, (m.chosen o).contains i = true → (m.chosen w.options).contains i = true →
      (i = .l2 → (m.chosen o).l1 = true → (m.chosen w.options).l1 = true) →
      S.deployment.clock.now ≤ w.now + (m.ttl w.options i).toNanos →
        (S.deployment.run m (m.get v.shape key o)).1 = .error e

section Swallows

variable {m : Manager} {H : List Mark} {d : Deployment} {k : String} {w : Write} {o : Options}
  {f : CodecFailure} {i : Tier} {p : Bytes} (hm : m.Created) (hd : m.Distinct)
  (hu : w.value.Unreadable m.codec f)
include hm hd hu

/-- A read that is told of nothing but the payload of such a write fails. -/
theorem Write.get_of_live (hh : Hosted Store.InProcess m d) (hp : m.Proper k o)
    (hi : (m.chosen o).contains i = true) (hl : found m i k d = .live p) (hw : w.Encodes m p)
    (hfirst : i = .l2 → (m.chosen o).l1 = true → ∀ q, found m .l1 k d = .live q →
      w.Encodes m q) :
    (d.run m (m.get w.value.shape k o)).1 = .error (.deserialization m.codec.name f) := by
  obtain ⟨p', hp', hf⟩ := hu
  obtain rfl : p' = p := Except.ok.inj (hp'.symm.trans hw)
  obtain ⟨j, hx⟩ := exists_told hm hd hh w.value.shape hp hi hl fun hi2 h1 q hq =>
    Except.ok.inj ((hfirst hi2 h1 q hq).symm.trans hp')
  exact ((reading (handler m) m w.value.shape k o d).footprint hm).of_undecodable hf hx |>.1

/-- While the latest write rules all tiers, a read that finds something live fails. -/
theorem Sole.get (hh : Hosted Store.InProcess m d) (hs : Sole m H d) (hw : latest? k H = some w)
    (hall : ∀ i, m.hasTier i = true → (m.chosen w.options).contains i = true)
    (hp : m.Proper k o) (hi : (m.chosen o).contains i = true) (hl : found m i k d = .live p) :
    (d.run m (m.get w.value.shape k o)).1 = .error (.deserialization m.codec.name f) := by
  have hrules : ∀ j q, found m j k d = .live q → w.Rules m j := by
    intro j q hq
    obtain ⟨raw, hr, -⟩ := record?_of_found_live hq
    exact ⟨hall j (hasTier_of_record? hr), fun _ => hall .l2⟩
  exact Write.get_of_live hm hd hu hh hp hi hl (hs.found_live hw (hrules i p hl) hl)
    fun _ _ q hq => hs.found_live hw (hrules .l1 q hq) hq

/-- As long as the latest write has left its payload in a tier, a read of that fails. -/
theorem Lodged.get (hh : Hosted Store.Plain m d) (hs : Sole m H d) (hl : Lodged m H d)
    (hw : latest? k H = some w) (hp : m.Proper k o) (hi : (m.chosen o).contains i = true)
    (hwi : (m.chosen w.options).contains i = true)
    (hbefore : i = .l2 → (m.chosen o).l1 = true → (m.chosen w.options).l1 = true)
    (hn : d.clock.now ≤ w.now + (m.ttl w.options i).toNanos) :
    (d.run m (m.get w.value.shape k o)).1 = .error (.deserialization m.codec.name f) := by
  obtain ⟨p, hwp, hlive⟩ := hl.found_live hh hw hwi (Write.le_deadline hm hn)
  refine Write.get_of_live hm hd hu (hh.imp fun _ h => h.inProcess) hp hi hlive hwp ?_
  -- both tiers were written, so what `l1` has is of the write, too
  rintro rfl h1 q hq
  have hrules : w.Rules m .l1 := ⟨hbefore rfl h1, fun _ _ => hwi⟩
  exact hs.found_live hw hrules hq

end Swallows

/-- **A value whose payload the codec refuses is swallowed.** -/
theorem Manager.swallows {m : Manager} (hm : m.Created) {v : Typed} {f : CodecFailure}
    (hu : v.Unreadable m.codec f) : m.Swallows v (.deserialization m.codec.name f) where
  set h st key o hp := by
    obtain ⟨p, hs, -⟩ := hu
    rw [set_eq_ok_iff hm hp hs]
    constructor
    · rintro ⟨i, hx⟩
      exact ⟨i, p, hx⟩
    · rintro ⟨i, q, hx⟩
      obtain ⟨-, hs', -⟩ := (writing h m v.shape key v.value o m.writeOrder st).write hx
      obtain rfl : p = q := Except.ok.inj (hs.symm.trans hs')
      exact ⟨i, hx⟩
  set_hosted hd d hh key o hp := by
    obtain ⟨p, hs, -⟩ := hu
    exact (writing (handler m) m v.shape key v.value o m.writeOrder d).eq_ok hm hd hh hp hs
  get h st key o i p hs hx := by
    obtain ⟨p', hs', hf⟩ := hu
    obtain rfl : p' = p := Except.ok.inj (hs'.symm.trans hs)
    exact (get_footprint hm v.shape key o h st).1.of_undecodable hf hx
  get_live hd d hh steps S hS key w hw hv hall o hp := by
    rintro ⟨i, p, hi, hl⟩
    subst hS hv
    obtain ⟨hs, hh'⟩ := Session.run_induction (P := fun d H => Sole m H d) (Q := fun _ => True)
      (C := fun _ _ => True) hd Store.closed_inProcess (fun _ h => h) (fun _ h hs => hs.move h)
      (fun _ hs => hs) steps ⟨d, []⟩ hh (fun _ _ _ _ => trivial) (clocked_true ..) .empty
    exact hs.get hm hd hu hh' hw hall hp hi hl
  get_lasting hd d hh steps S hS hC key w hw hv o hp i hi hwi hbefore hn := by
    subst hS hv
    -- both invariants are carried through the session
    obtain ⟨⟨hs, hl⟩, hh'⟩ :=
      Session.run_induction (P := fun d H => Sole m H d ∧ Lodged m H d) (Q := fun _ => True)
        (C := Clock.Forward) hd Store.closed_plain (fun _ h => h.inProcess)
        (fun hh h hsl => ⟨hsl.1.move h, hsl.2.move hh h⟩)
        (fun hle hsl => ⟨hsl.1, hsl.2.forward hle⟩) steps ⟨d, []⟩ hh (fun _ _ _ _ => trivial) hC
        ⟨.empty, .empty⟩
    exact hl.get hm hd hu hh' hs hw hp hi hwi hbefore hn

end TwoTier
