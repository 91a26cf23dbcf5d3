import TwoTier.Proofs.Deployment.Recalling
import TwoTier.Proofs.Manager.Lifetimes
import TwoTier.Proofs.Manager.Refusal
import TwoTier.Proofs.Session.Moves

/-!
# Computing what is missing

What reading through does is decided by its read: `Manager.ThroughRules` says, for each of its
results, whether the caller's function runs, what is asked of the stores beyond the read, and what
is returned. The failure to store what was computed is the only one that is passed over.

What was computed is then in the stores that the call targets, and nothing else is: its read has
found nothing there (`Reading.held_of_miss`), and its write puts nothing else there
(`Writing.of_held`). So over stores that recall what they hold (`Handler.Recalls`) the same call
finds it again for as long as one of them holds anything (`getOrCompute_of_held`).
-/

namespace TwoTier.Manager

variable {σ α : Type}

/-! ### The ways it can go, by the result of the read -/

section Ways

variable {m : Manager} {h : Handler Tier σ} {s : Shape α} {key : String} {o : Options}
  {outcome : Except Failure α} {st st' : σ} {T : List (Exchange Tier)} {r : Result α}

/-- A read that writes returns a value. -/
theorem ReadFootprint.of_write {r : Result (Option α)} (hf : m.ReadFootprint s key o T r) {i : Tier}
    {k : String} {p : Bytes} {ttl : Duration} {reply : Except Failure Unit}
    (hx : .write i k p ttl reply ∈ T) : ∃ a, r = .ok (some a) := by
  obtain ⟨q, a, hhit, hd, -, -⟩ := hf.writes.mp ⟨i, k, p, ttl, reply, hx⟩
  exact ⟨a, by rw [hf.hit .l2 q hhit, hd]⟩

/-- A read that returns no value writes nothing. -/
theorem ReadFootprint.isWrite_eq_false {r : Result (Option α)} (hf : m.ReadFootprint s key o T r)
    (hr : ∀ a, r ≠ .ok (some a)) : ∀ x ∈ T, x.isWrite = false := by
  intro x hx
  cases x with
  | read | removal | health => rfl
  | write i k p ttl reply =>
    obtain ⟨a, ha⟩ := hf.of_write hx
    exact absurd ha (hr a)

variable (hw : Through m h s key o outcome st T r st')
include hw

/-- Its read has failed: this is all that happens. -/
theorem Through.of_failed {e : CacheError} (hr : ((m.get s key o).run h st).1 = .error e) :
    T = (m.get s key o).trace h st ∧ r = .error e ∧ st' = ((m.get s key o).run h st).2 := by
  cases hw with
  | failed hr' =>
    cases hr.symm.trans hr'
    exact ⟨rfl, rfl, rfl⟩
  | found hr' | notComputed hr' | stored hr' | notStored hr' => cases hr.symm.trans hr'

/-- Its read has found a value, which is returned. -/
theorem Through.of_found {a : α} (hr : ((m.get s key o).run h st).1 = .ok (some a)) :
    T = (m.get s key o).trace h st ∧ r = .ok a ∧ st' = ((m.get s key o).run h st).2 := by
  cases hw with
  | found hr' =>
    cases hr.symm.trans hr'
    exact ⟨rfl, rfl, rfl⟩
  | failed hr' | notComputed hr' | stored hr' | notStored hr' => cases hr.symm.trans hr'

/-- Its read has missed, and the caller's function has failed. -/
theorem Through.of_notComputed (hr : ((m.get s key o).run h st).1 = .ok none) {f : Failure}
    (ho : outcome = .error f) : T = (m.get s key o).trace h st ∧ r = .error (.compute f) := by
  cases hw with
  | notComputed _ ho' =>
    cases ho.symm.trans ho'
    exact ⟨rfl, rfl⟩
  | failed hr' | found hr' => cases hr.symm.trans hr'
  | stored _ ho' | notStored _ ho' => cases ho.symm.trans ho'

/-- Its read has missed, and the caller's function has given a value, which is written and returned.
-/
theorem Through.of_computed (hr : ((m.get s key o).run h st).1 = .ok none) {a : α}
    (ho : outcome = .ok a) :
    T = (m.get s key o).trace h st ++ (m.set s key a o).trace h (computed m h s key o st) ∧
      r = .ok a := by
  -- the value is returned whether or not its write has come through
  cases hw with
  | stored _ ho' | notStored _ ho' =>
    cases ho.symm.trans ho'
    exact ⟨rfl, rfl⟩
  | failed hr' | found hr' => cases hr.symm.trans hr'
  | notComputed _ ho' => cases ho.symm.trans ho'

/-- A write that succeeds is the last that happens. -/
theorem Through.of_stored (hr : ((m.get s key o).run h st).1 = .ok none) {a : α}
    (ho : outcome = .ok a)
    (hs : ((m.set s key a o).run h (computed m h s key o st)).1 = .ok ()) :
    st' = ((m.set s key a o).run h (computed m h s key o st)).2 := by
  cases hw with
  | stored _ ho' =>
    cases ho.symm.trans ho'
    rfl
  | notStored _ ho' hs' =>
    cases ho.symm.trans ho'
    cases hs.symm.trans hs'
  | failed hr' | found hr' => cases hr.symm.trans hr'
  | notComputed _ ho' => cases ho.symm.trans ho'

end Ways

/-- Reading through does not run the caller's function if its read finds a value. -/
theorem computations_getOrCompute_of_some (h : Handler Tier σ) {m : Manager} (s : Shape α)
    {key : String} {o : Options} (st : σ) (outcome : Except Failure α) {a : α}
    (hr : ((m.get s key o).run h st).1 = .ok (some a)) :
    (m.getOrCompute s key o outcome).computations h st = 0 := by
  simp only [getOrCompute, Script.computations_bind, computations_get, hr,
    Script.computations_pure, Nat.zero_add]

/-! ### The rules -/

/-- **What reading through does**, by the result of its read. -/
structure ThroughRules (m : Manager) (h : Handler Tier σ) (s : Shape α) (key : String)
    (o : Options) (st : σ) : Prop where
  /-- The caller's function runs once if the read misses, … -/
  computes : ∀ outcome, ((m.get s key o).run h st).1 = .ok none →
    (m.getOrCompute s key o outcome).computations h st = 1
  /-- … and else does not. -/
  spares : ∀ outcome, ((m.get s key o).run h st).1 ≠ .ok none →
    (m.getOrCompute s key o outcome).computations h st = 0
  /-- A value that the read has found is returned, and nothing is done beyond the read, … -/
  found : ∀ outcome a, ((m.get s key o).run h st).1 = .ok (some a) →
    (m.getOrCompute s key o outcome).trace h st = (m.get s key o).trace h st ∧
      (m.getOrCompute s key o outcome).run h st = (.ok a, ((m.get s key o).run h st).2)
  /-- … a failure of the read is that of the call, and nothing is written, … -/
  failed : ∀ outcome e, ((m.get s key o).run h st).1 = .error e →
    (m.getOrCompute s key o outcome).trace h st = (m.get s key o).trace h st ∧
      (m.getOrCompute s key o outcome).run h st = (.error e, ((m.get s key o).run h st).2) ∧
      ∀ x ∈ (m.get s key o).trace h st, x.isWrite = false
  /-- … and so is a failure of the caller's function. -/
  uncomputed : ∀ f, ((m.get s key o).run h st).1 = .ok none →
    (m.getOrCompute s key o (.error f)).trace h st = (m.get s key o).trace h st ∧
      ((m.getOrCompute s key o (.error f)).run h st).1 = .error (.compute f) ∧
      ∀ x ∈ (m.get s key o).trace h st, x.isWrite = false
  /-- A value that was computed is returned, whatever comes of its write, and that is all that is
  written. -/
  computed : ∀ a, ((m.get s key o).run h st).1 = .ok none →
    (m.getOrCompute s key o (.ok a)).trace h st =
        (m.get s key o).trace h st ++ (m.set s key a o).trace h (m.computed h s key o st) ∧
      ((m.getOrCompute s key o (.ok a)).run h st).1 = .ok a ∧
      ∀ x ∈ (m.get s key o).trace h st, x.isWrite = false

/-- Reading through follows its rules, over any stores. -/
theorem throughRules {m : Manager} (hm : m.Created) (h : Handler Tier σ) (s : Shape α)
    (key : String) (o : Options) (st : σ) : m.ThroughRules h s key o st := by
  have hf := (reading h m s key o st).footprint hm
  have hw (outcome : Except Failure α) := readThrough m h s key o outcome st
  refine ⟨fun outcome => computations_getOrCompute_of_none h s st outcome, fun outcome hr => ?_,
    fun outcome a hr => ?_, fun outcome e hr => ?_, fun f hr => ?_, fun a hr => ?_⟩
  · -- a read that does not miss has failed or has found a value
    cases hget : ((m.get s key o).run h st).1 with
    | error e => exact computations_getOrCompute_of_error h s st outcome hget
    | ok found =>
      cases found with
      | none => exact absurd hget hr
      | some a => exact computations_getOrCompute_of_some h s st outcome hget
  · obtain ⟨hT, hr', hst⟩ := (hw outcome).of_found hr
    exact ⟨hT, Prod.ext hr' hst⟩
  · obtain ⟨hT, hr', hst⟩ := (hw outcome).of_failed hr
    exact ⟨hT, Prod.ext hr' hst, hf.isWrite_eq_false fun a => by rw [hr]; nofun⟩
  · -- the caller's function has failed; its read has missed and so written nothing
    obtain ⟨hT, hr'⟩ := (hw (.error f)).of_notComputed hr rfl
    exact ⟨hT, hr', hf.isWrite_eq_false fun a => by rw [hr]; nofun⟩
  · obtain ⟨hT, hr'⟩ := (hw (.ok a)).of_computed hr rfl
    exact ⟨hT, hr', hf.isWrite_eq_false fun a => by rw [hr]; nofun⟩

/-! ### What is held after it -/

section Held

variable {h : Handler Tier σ} {m : Manager} {I : σ → Prop} {key : String}
  {held : Tier → σ → Option Bytes} {s : Shape α} {o : Options} {st st' : σ}
  {T : List (Exchange Tier)} (hr : h.Recalls (m.hasTier · = true) I key held) (hI : I st)
include hr hI

/-- A read that finds nothing in a tier leaves everything that is held. -/
theorem held_of_serve_get {i : Tier} (hi : m.hasTier i = true) {st₁ : σ}
    (hs : h.serve i (.get key) st = (.ok none, st₁)) (e : Event) :
    held i st = none ∧ I (h.note e st₁) ∧ ∀ j, held j (h.note e st₁) = held j st := by
  have hread := hr.read i st hi hI
  have hI₁ := hr.serve i (.get key) st hI
  rw [hs] at hread hI₁
  have hnone : held i st = none := (Except.ok.inj hread).symm
  have hsame (j : Tier) := hr.held_read i j st hI hnone
  rw [hs] at hsame
  exact ⟨hnone, hr.note e st₁ hI₁, fun j => (hr.held_note ..).trans (hsame j)⟩

/-- A read is told what the tiers hold. -/
theorem BeyondL1.told_held {t : Targets} {r : Result (Option α)}
    (hb : BeyondL1 h m s key o t st T r st') (ht : t.l2 = true → m.hasTier .l2 = true) {i : Tier}
    {reply : Except Failure (Option Bytes)} (hx : .read i key reply ∈ T) :
    reply = .ok (held i st) := by
  cases hb with
  | notAsked => cases hx
  | failed hl2 hs | missed hl2 hs | undecodable hl2 hs | hit hl2 hs | warmed hl2 hs =>
    -- the one read among the exchanges is that of the second tier
    obtain ⟨rfl, rfl⟩ : i = .l2 ∧ reply = _ := by simpa using hx
    have hread := hr.read .l2 st (ht hl2) hI
    rw [hs] at hread
    exact hread

/-- Whatever a read is told by a tier, the tier holds. -/
theorem Reading.told_held {r : Result (Option α)} (hw : Reading h m s key o st T r st') {i : Tier}
    {reply : Except Failure (Option Bytes)} (hx : .read i key reply ∈ T) :
    reply = .ok (held i st) := by
  cases hw with
  | refused => cases hx
  | beyond hp _ hb => exact hb.told_held hr hI (fun hl2 => hasTier_of_plan hp (i := .l2) hl2) hx
  | failed hp hl1 hs | hit hp hl1 hs =>
    obtain ⟨rfl, rfl⟩ : i = .l1 ∧ reply = _ := by simpa using hx
    have hread := hr.read .l1 st (hasTier_of_plan hp (i := .l1) hl1) hI
    rw [hs] at hread
    exact hread
  | missed hp hl1 hs hb =>
    obtain ⟨hnone, hI₁, hsame⟩ :=
      held_of_serve_get hr hI (hasTier_of_plan hp (i := .l1) hl1) hs (.miss key .l1)
    -- the read of the first tier, or one after it, when everything is still held as before
    rcases List.mem_cons.mp hx with hx | hx
    · cases hx
      rw [hnone]
    · rw [hb.told_held hr hI₁ (fun hl2 => hasTier_of_plan hp (i := .l2) hl2) hx, hsame]

/-- A read that misses leaves everything that is held. -/
theorem BeyondL1.held_of_miss {t : Targets} {r : Result (Option α)}
    (hb : BeyondL1 h m s key o t st T r st') (ht : t.l2 = true → m.hasTier .l2 = true)
    (hmiss : r = .ok none) : I st' ∧ ∀ i, held i st' = held i st := by
  cases hb with
  | notAsked => exact ⟨hr.note _ st hI, fun i => hr.held_note ..⟩
  | missed hl2 hs =>
    obtain ⟨-, hI', hsame⟩ := held_of_serve_get hr hI (ht hl2) hs (.missEverywhere key)
    exact ⟨hI', hsame⟩
  | failed | undecodable | hit | warmed => cases hmiss

/-- A read that misses has left both tiers as they were. -/
theorem Reading.held_of_miss {r : Result (Option α)} (hw : Reading h m s key o st T r st')
    (hmiss : r = .ok none) : I st' ∧ ∀ i, held i st' = held i st := by
  cases hw with
  | refused | failed => cases hmiss
  | beyond hp _ hb =>
    exact hb.held_of_miss hr hI (fun hl2 => hasTier_of_plan hp (i := .l2) hl2) hmiss
  | @hit _ p =>
    -- a hit is a value or a failure to decode, and no miss
    rw [map_decode] at hmiss
    split at hmiss <;> cases hmiss
  | missed hp hl1 hs hb =>
    obtain ⟨-, hI₁, hsame⟩ :=
      held_of_serve_get hr hI (hasTier_of_plan hp (i := .l1) hl1) hs (.miss key .l1)
    obtain ⟨hI', hsame'⟩ :=
      hb.held_of_miss hr hI₁ (fun hl2 => hasTier_of_plan hp (i := .l2) hl2) hmiss
    exact ⟨hI', fun i => (hsame' i).trans (hsame i)⟩

/-- After one write a tier holds the payload, or what it held before. -/
theorem recalls_afterWrite {i : Tier} {p : Bytes} {x : Except Failure Unit × σ}
    (hx : asked h m key o i p st = x) :
    I (afterWrite h m key o i p x) ∧
      ∀ j q, held j (afterWrite h m key o i p x) = some q → q = p ∨ held j st = some q := by
  subst hx
  have hI' := hr.serve i (.set key p (m.ttl o i)) st hI
  have hwritten (j : Tier) (q : Bytes) := hr.held_write i p (m.ttl o i) j q st hI
  unfold afterWrite
  split
  · exact ⟨hr.note _ _ hI', fun j q hq => hwritten j q ((hr.held_note ..).symm.trans hq)⟩
  · exact ⟨hI', hwritten⟩

/-- The events after two writes change nothing that is held. -/
theorem recalls_afterBoth (r1 r2 : Except Failure Unit) :
    I (afterBoth h key r1 r2 st) ∧ ∀ j, held j (afterBoth h key r1 r2 st) = held j st := by
  unfold afterBoth
  split
  · exact ⟨hr.note _ _ hI, fun j => hr.held_note ..⟩
  · exact ⟨hr.note _ _ hI, fun j => hr.held_note ..⟩
  · exact ⟨hI, fun j => rfl⟩

/-- What is held after a write is what was written, or was held before. -/
theorem Writing.of_held {a : α} {order : WriteOrder} {r : Result Unit}
    (hw : Writing h m s key a o order st T r st') :
    I st' ∧ ∀ j q, held j st' = some q → m.codec.serialize s a = .ok q ∨ held j st = some q := by
  cases hw with
  | refused | unserializable | untargeted => exact ⟨hI, fun j q hq => .inr hq⟩
  | single _ hs =>
    obtain ⟨hI', hheld⟩ := recalls_afterWrite hr hI rfl
    refine ⟨hI', fun j q hq => ?_⟩
    rcases hheld j q hq with rfl | hq₀
    · exact .inl hs
    · exact .inr hq₀
  | l1First _ hs _ _ _ h1 h2 | l2First _ hs _ _ _ h1 h2 =>
    -- each of the two writes leaves the payload, or what was there before it
    obtain ⟨hI₁, hheld₁⟩ := recalls_afterWrite hr hI h1
    obtain ⟨hI₂, hheld₂⟩ := recalls_afterWrite hr hI₁ h2
    obtain ⟨hI', hheld'⟩ := recalls_afterBoth hr hI₂ _ _
    refine ⟨hI', fun j q hq => ?_⟩
    rcases hheld₂ j q ((hheld' j).symm.trans hq) with rfl | hq₁
    · exact .inl hs
    · rcases hheld₁ j q hq₁ with rfl | hq₀
      · exact .inl hs
      · exact .inr hq₀

/-- What is held after reading through was held before it, or is the value that was computed. -/
theorem Through.of_held {a : α} {r : Result α} (hw : Through m h s key o (.ok a) st T r st')
    (hmiss : ((m.get s key o).run h st).1 = .ok none) :
    I st' ∧ ∀ j q, held j st' = some q → m.codec.serialize s a = .ok q ∨ held j st = some q := by
  obtain ⟨hI₁, hsame⟩ := (reading h m s key o st).held_of_miss hr hI hmiss
  have hcomputed : I (computed m h s key o st) := hr.compute _ (hr.note _ _ hI₁)
  obtain ⟨hI₂, hheld⟩ :=
    (writing h m s key a o m.writeOrder (computed m h s key o st)).of_held hr hcomputed
  -- the caller's function has nothing to do with the stores
  have hbefore (j : Tier) : held j (computed m h s key o st) = held j st :=
    (hr.held_compute ..).trans ((hr.held_note ..).trans (hsame j))
  -- the write comes after the computation, whatever comes of it
  cases hw with
  | failed hr' | found hr' => cases hmiss.symm.trans hr'
  | notComputed _ ho => cases ho
  | stored _ ho =>
    cases ho
    exact ⟨hI₂, fun j q hq => hbefore j ▸ hheld j q hq⟩
  | notStored _ ho =>
    cases ho
    refine ⟨hr.note _ _ hI₂, fun j q hq => ?_⟩
    rw [hr.held_note] at hq
    exact hbefore j ▸ hheld j q hq

/-- **What was computed is found again**, for as long as a tier that the call targets holds
anything. -/
theorem get_of_computed (hm : m.Created) {v : α} (hv : (⟨s, v⟩ : Typed).RoundTrips m.codec)
    (hmiss : ((m.get s key o).run h st).1 = .ok none) {st₁ st₂ : σ}
    (hst₁ : ((m.getOrCompute s key o (.ok v)).run h st).2 = st₁) (hI₂ : I st₂)
    (hstill : ∀ i q, (m.chosen o).contains i = true → held i st₂ = some q → held i st₁ = some q)
    (hsome : ∃ i q, (m.chosen o).contains i = true ∧ held i st₂ = some q) :
    ((m.get s key o).run h st₂).1 = .ok (some v) := by
  have hread := reading h m s key o st
  have hf := hread.footprint hm
  rw [hmiss] at hf
  -- after the call, all that is held in the tiers that it targets is the value
  have hheld (i : Tier) (q : Bytes) (hi : (m.chosen o).contains i = true)
      (hq : held i st₂ = some q) : m.codec.serialize s v = .ok q := by
    have hw := readThrough m h s key o (.ok v) st
    rw [hst₁] at hw
    have hnone := hread.told_held hr hI ((hf.missed hf.proper).mp rfl i hi)
    rcases (hw.of_held hr hI hmiss).2 i q (hstill i q hi hq) with hs | hq₀
    · exact hs
    · cases (Except.ok.inj hnone).trans hq₀
  have hread₂ := reading h m s key o st₂
  have hf₂ := hread₂.footprint hm
  -- the second read ends with a hit, a failure, or a miss everywhere
  rcases hf₂.outcome hf.proper with ⟨i, p, hx⟩ | ⟨i, f, hx⟩ | hall
  · -- whichever tier it is found in, it is the value
    have hp := Except.ok.inj (hread₂.told_held hr hI₂ hx)
    have hs := hheld i p (hf₂.read_chosen i key _ hx).2 hp.symm
    rw [hf₂.hit i p hx, hv p hs]
  · -- no tier that recalls fails to answer
    cases hread₂.told_held hr hI₂ hx
  · -- a tier that holds something does not miss
    obtain ⟨i, q, hi, hq⟩ := hsome
    cases (Except.ok.inj (hread₂.told_held hr hI₂ (hall i hi))).trans hq

end Held

/-! ### In the process -/

section InProcess

open Deployment

variable {m : Manager} {s : Shape α} {key : String} {o : Options} {d : Deployment} {v : α}
  (hd : m.Distinct) (hmiss : ((m.get s key o).run (handler m) d).1 = .ok none)
  (hset : ((m.set s key v o).run (handler m) (computed m (handler m) s key o d)).1 = .ok ())
include hd hmiss hset

/-- A value that was computed and stored is recorded in every tier that the call targets. -/
theorem record?_of_computed (hh : Hosted Store.InProcess m d) :
    ∃ p, m.codec.serialize s v = .ok p ∧ ∀ i, (m.chosen o).contains i = true →
      record? m i key ((m.getOrCompute s key o (.ok v)).run (handler m) d).2 =
        some (Entry.encode d.clock.now p (m.ttl o i)) := by
  have hclock : (computed m (handler m) s key o d).clock = d.clock :=
    ((reading (handler m) m s key o d).effect hd hh).clock
  have hh' : Hosted Store.InProcess m (computed m (handler m) s key o d) :=
    hh.run Store.closed_inProcess (m.get s key o)
  have hwrite := (writing (handler m) m s key v o m.writeOrder
    (computed m (handler m) s key o d)).effect hd hh'
  rw [← set, hset] at hwrite
  -- the write has succeeded, so every tier that it targets has the record
  rcases hwrite with ⟨e, he, -⟩ | ⟨-, -, p, hs, he⟩
  · cases he
  · refine ⟨p, hs, fun i hi => ?_⟩
    rw [(readThrough m (handler m) s key o (.ok v) d).of_stored hmiss rfl hset, he.record,
      if_pos ⟨rfl, hi⟩, hclock]

/-- What a tier without ceilings holds of it at any other time it has held from the beginning. -/
theorem held_of_setClock (hh : Hosted Store.Plain m d) {c : Clock} {i : Tier} {q : Bytes}
    (hi : (m.chosen o).contains i = true)
    (hq : held m i key (((m.getOrCompute s key o (.ok v)).run (handler m) d).2.setClock c) =
      some q) :
    held m i key ((m.getOrCompute s key o (.ok v)).run (handler m) d).2 = some q := by
  obtain ⟨p, -, hrecord⟩ :=
    record?_of_computed hd hmiss hset (hh.imp fun _ hs => hs.inProcess)
  have hclock : ((m.getOrCompute s key o (.ok v)).run (handler m) d).2.clock = d.clock :=
    clock_run _
  have hh₁ : Hosted Store.Plain m ((m.getOrCompute s key o (.ok v)).run (handler m) d).2 :=
    hh.run Store.closed_plain (m.getOrCompute s key o (.ok v))
  generalize ((m.getOrCompute s key o (.ok v)).run (handler m) d).2 = d₁ at *
  have hr := hrecord i hi
  obtain ⟨s₁, hs₁, hraw⟩ := Option.bind_eq_some_iff.mp hr
  have hplain := hh₁.of_behind hs₁
  have hnow : d.clock.now ≤ maxReading := d.clock.wall.reading_le
  -- a record has one payload, and it is live when it is made
  rw [held_of_behind (d := d₁.setClock c) hs₁] at hq
  obtain ⟨raw, hraw', hlive⟩ := Store.exists_record?_of_held hplain.inProcess hq
  cases hraw.symm.trans hraw'
  obtain ⟨rfl, -⟩ := Entry.decode_encode_eq_live_iff.mp hlive
  rw [held_of_behind hs₁, Store.held_of_inProcess hplain.inProcess, hplain.found, hraw, hclock,
    Entry.lookup_encode hnow]
  rfl

end InProcess

/-- **Reading through.** It does what its read decides, whatever the stores do. Over stores that
recall what they hold, a call after one that has computed a value returns that value and does not
run the caller's function, if a tier that it targets still holds anything and what these tiers hold
they have held since. -/
theorem reading_through {m : Manager} (hm : m.Created) (h : Handler Tier σ) (s : Shape α)
    (key : String) (o : Options) (st : σ) :
    m.ThroughRules h s key o st ∧
      ∀ {I : σ → Prop} {held : Tier → σ → Option Bytes},
        h.Recalls (m.hasTier · = true) I key held → I st →
        ∀ v, (⟨s, v⟩ : Typed).RoundTrips m.codec → ((m.get s key o).run h st).1 = .ok none →
        ∀ st₁ st₂, ((m.getOrCompute s key o (.ok v)).run h st).2 = st₁ → I st₂ →
        (∀ i q, (m.chosen o).contains i = true → held i st₂ = some q → held i st₁ = some q) →
        (∃ i q, (m.chosen o).contains i = true ∧ held i st₂ = some q) → ∀ outcome,
          ((m.getOrCompute s key o outcome).run h st₂).1 = .ok v ∧
            (m.getOrCompute s key o outcome).computations h st₂ = 0 := by
  refine ⟨throughRules hm h s key o st, ?_⟩
  intro I held hr hI v hv hmiss st₁ st₂ hst₁ hI₂ hstill hsome outcome
  have hget := get_of_computed hr hI hm hv hmiss hst₁ hI₂ hstill hsome
  have hrules := throughRules hm h s key o st₂
  refine ⟨by rw [(hrules.found outcome v hget).2], hrules.spares outcome ?_⟩
  rw [hget]
  nofun

/-- A second for `l1`, and the default for `l2`. -/
def shortNear : Options := { l1Ttl := some (.ofSecs 1) }

/-- Two seconds after the beginning of 1970. -/
def twoSecondsIn : Clock := ⟨⟨2000000000⟩, 2000000000⟩

/-- What was computed is found again at any time at which a tier holds it, and so after two seconds,
when `l1` does not any more. -/
theorem reading_through_twoFresh :
    let m := sample .bothLevels
    let h := Deployment.handler m
    m.Created ∧ Deployment.Hosted Store.Plain m twoFresh ∧
      h.Recalls (m.hasTier · = true) (Deployment.Hosted Store.Plain m) "k"
        (Deployment.held m · "k") ∧
      (⟨Shape.bool, true⟩ : Typed).RoundTrips m.codec ∧
      ((m.get .bool "k" shortNear).run h twoFresh).1 = .ok none ∧
      (m.getOrCompute .bool "k" shortNear (.ok true)).computations h twoFresh = 1 ∧
      ∀ d₁, ((m.getOrCompute .bool "k" shortNear (.ok true)).run h twoFresh).2 = d₁ →
        (∀ c i q, Deployment.held m i "k" (d₁.setClock c) = some q → ∀ outcome,
          ((m.getOrCompute .bool "k" shortNear outcome).run h (d₁.setClock c)).1 = .ok true ∧
            (m.getOrCompute .bool "k" shortNear outcome).computations h (d₁.setClock c) = 0) ∧
        Deployment.held m .l1 "k" (d₁.setClock twoSecondsIn) = none ∧
        Deployment.held m .l2 "k" (d₁.setClock twoSecondsIn) = some [1] := by
  intro m h
  have hm : m.Created := sample_created .bothLevels
  have hd : m.Distinct := sample_distinct .bothLevels
  have hh := twoFresh_hosted .bothLevels
  have hrecalls : h.Recalls (m.hasTier · = true) (Deployment.Hosted Store.Plain m) "k"
      (Deployment.held m · "k") :=
    Deployment.handler_recalls m Store.closed_plain fun _ hs => hs.recalling "k"
  have hv : (⟨Shape.bool, true⟩ : Typed).RoundTrips m.codec := by
    intro p hp
    cases hp
    rfl
  have hmiss : ((m.get .bool "k" shortNear).run h twoFresh).1 = .ok none := rfl
  have hset : ((m.set .bool "k" true shortNear).run h
      (m.computed h .bool "k" shortNear twoFresh)).1 = .ok () := by decide +kernel
  obtain ⟨hrules, hagain⟩ := reading_through hm h .bool "k" shortNear twoFresh
  refine ⟨hm, hh, hrecalls, hv, hmiss, hrules.computes _ hmiss, fun d₁ hd₁ => ⟨?_, ?_, ?_⟩⟩
  · intro c i q hq outcome
    have hh₁ : Deployment.Hosted Store.Plain m d₁ := by
      rw [← hd₁]
      exact hh.run Store.closed_plain (m.getOrCompute .bool "k" shortNear (.ok true))
    have hall (i : Tier) : (m.chosen shortNear).contains i = true := by cases i <;> rfl
    have hstill {i : Tier} {q : Bytes} :=
      held_of_setClock (i := i) (c := c) (q := q) hd hmiss hset hh (hall i)
    rw [hd₁] at hstill
    exact hagain hrecalls hh true hv hmiss d₁ (d₁.setClock c) hd₁ (hh₁.setClock c)
      (fun i q _ hq => hstill hq) ⟨i, q, hall i, hq⟩ outcome
  · rw [← hd₁]
    decide +kernel
  · rw [← hd₁]
    decide +kernel

end TwoTier.Manager
