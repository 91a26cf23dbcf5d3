import TwoTier.Proofs.Manager.Created
import TwoTier.Proofs.Script.Trace

/-!
# The footprint of a read

Everything that `Manager.get` can do, whatever the stores answer. `Manager.Reading` lists the ways
in which a read can go, one rule a way, each with its trace, its result and the state it leaves;
`Manager.BeyondL1` does so for the part that asks `l2`. Every run is one of them (`reading`), so a
fact about all reads is a case distinction over the rules.

`get_footprint` is that fact for the footprint: `Manager.ReadFootprint` says which stores a read
asks, what it writes, and how the replies make its result.
-/

namespace TwoTier.Manager

variable {σ α : Type}

/-! ### The ways in which a read can go -/

section Ways

variable (h : Handler Tier σ) (m : Manager) (s : Shape α) (key : String) (o : Options)

/-- The event that ends an attempt to copy a payload into `l1`. -/
def warmEvent : Except Failure Unit → Event
  | .ok () => .warmed key m.warmupTtl
  | .error f => .warmupFailed key f.text

/-- The ways in which the part of a read that asks `l2` can go from a state: the trace, the result,
and the state it leaves. -/
inductive BeyondL1 (t : Targets) (st : σ) :
    List (Exchange Tier) → Result (Option α) → σ → Prop
  | notAsked (hl2 : t.l2 = false) :
    BeyondL1 t st [] (.ok none) (h.note (.missWithoutL2 key) st)
  | failed {f : Failure} {st' : σ} (hl2 : t.l2 = true)
      (hr : h.serve .l2 (.get key) st = (.error f, st')) :
    BeyondL1 t st [.read .l2 key (.error f)] (.error (.tier .l2 .get f)) st'
  | missed {st' : σ} (hl2 : t.l2 = true) (hr : h.serve .l2 (.get key) st = (.ok none, st')) :
    BeyondL1 t st [.read .l2 key (.ok none)] (.ok none) (h.note (.missEverywhere key) st')
  | undecodable {p : Bytes} {e : CacheError} {st' : σ} (hl2 : t.l2 = true)
      (hr : h.serve .l2 (.get key) st = (.ok (some p), st')) (hd : m.decode s p = .error e) :
    BeyondL1 t st [.read .l2 key (.ok (some p))] (.error e) st'
  | hit {p : Bytes} {a : α} {st' : σ} (hl2 : t.l2 = true)
      (hr : h.serve .l2 (.get key) st = (.ok (some p), st')) (hd : m.decode s p = .ok a)
      (hw : (m.mode.warms t o.targetL1 && m.hasTier .l1) = false) :
    BeyondL1 t st [.read .l2 key (.ok (some p))] (.ok (some a)) (h.note (.hit key .l2) st')
  | warmed {p : Bytes} {a : α} {st' st'' : σ} {r : Except Failure Unit} (hl2 : t.l2 = true)
      (hr : h.serve .l2 (.get key) st = (.ok (some p), st')) (hd : m.decode s p = .ok a)
      (hw : (m.mode.warms t o.targetL1 && m.hasTier .l1) = true)
      (hs : h.serve .l1 (.set key p m.warmupTtl) (h.note (.hit key .l2) st') = (r, st'')) :
    BeyondL1 t st [.read .l2 key (.ok (some p)), .write .l1 key p m.warmupTtl r] (.ok (some a))
      (h.note (m.warmEvent key r) st'')

/-- The ways in which a read can go from a state: the trace, the result, and the state it leaves. -/
inductive Reading (st : σ) : List (Exchange Tier) → Result (Option α) → σ → Prop
  | refused {e : CacheError} (hp : m.plan key o .get = .error e) : Reading st [] (.error e) st
  | beyond {t : Targets} {T : List (Exchange Tier)} {r : Result (Option α)} {st' : σ}
      (hp : m.plan key o .get = .ok t) (hl1 : t.l1 = false)
      (hb : BeyondL1 h m s key o t st T r st') :
    Reading st T r st'
  | failed {t : Targets} {f : Failure} {st' : σ} (hp : m.plan key o .get = .ok t)
      (hl1 : t.l1 = true) (hr : h.serve .l1 (.get key) st = (.error f, st')) :
    Reading st [.read .l1 key (.error f)] (.error (.tier .l1 .get f)) st'
  | hit {t : Targets} {p : Bytes} {st' : σ} (hp : m.plan key o .get = .ok t)
      (hl1 : t.l1 = true) (hr : h.serve .l1 (.get key) st = (.ok (some p), st')) :
    Reading st [.read .l1 key (.ok (some p))] ((m.decode s p).map some)
      (h.note (.hit key .l1) st')
  | missed {t : Targets} {T : List (Exchange Tier)} {r : Result (Option α)} {st' st'' : σ}
      (hp : m.plan key o .get = .ok t) (hl1 : t.l1 = true)
      (hr : h.serve .l1 (.get key) st = (.ok none, st'))
      (hb : BeyondL1 h m s key o t (h.note (.miss key .l1) st') T r st'') :
    Reading st (.read .l1 key (.ok none) :: T) r st''

end Ways

section Runs

variable (h : Handler Tier σ) (m : Manager) (s : Shape α) (key : String) (o : Options)

/-- Reading a tier returns what its store answers, named for the tier. -/
theorem run_readTier (t : Tier) (st : σ) :
    (readTier key t).run h st =
      ((h.serve t (.get key) st).1.mapError (.tier t .get), (h.serve t (.get key) st).2) := by
  rw [readTier, Script.run_bind, Script.run_command]
  cases hr : (h.serve t (.get key) st).1 with
  | error f => rfl
  | ok found => rfl

/-- It is one exchange. -/
theorem trace_readTier (t : Tier) (st : σ) :
    (readTier key t).trace h st = [.read t key (h.serve t (.get key) st).1] := by
  rw [readTier, Script.trace_bind, Script.trace_command, Script.run_command]
  cases hr : (h.serve t (.get key) st).1 with
  | error f => rfl
  | ok found => rfl

/-- A copy into `l1` returns nothing: whether the store took it is only reported. -/
theorem run_warm (p : Bytes) (st : σ) :
    (m.warm key p).run h st =
      ((), h.note (m.warmEvent key (h.serve .l1 (.set key p m.warmupTtl) st).1)
        (h.serve .l1 (.set key p m.warmupTtl) st).2) := by
  rw [warm, Script.run_bind, Script.run_command]
  cases hr : (h.serve .l1 (.set key p m.warmupTtl) st).1 with
  | error f => rfl
  | ok u => rfl

/-- It is one exchange too, even if the store fails. -/
theorem trace_warm (p : Bytes) (st : σ) :
    (m.warm key p).trace h st =
      [.write .l1 key p m.warmupTtl (h.serve .l1 (.set key p m.warmupTtl) st).1] := by
  rw [warm, Script.trace_bind, Script.trace_command, Script.run_command]
  cases hr : (h.serve .l1 (.set key p m.warmupTtl) st).1 with
  | error f => rfl
  | ok u => rfl

/-- Every run of the part that asks `l2` goes one of the ways. -/
theorem beyondL1 (t : Targets) (st : σ) :
    BeyondL1 h m s key o t st ((m.getBeyondL1 s key o t).trace h st)
      ((m.getBeyondL1 s key o t).run h st).1 ((m.getBeyondL1 s key o t).run h st).2 := by
  rw [getBeyondL1]
  cases hl2 : t.l2 with
  | false => exact .notAsked hl2
  | true =>
    -- what `l2` answers decides how it goes on
    rw [if_pos rfl, getFromL2]
    simp only [Script.run_bind, Script.trace_bind, run_readTier, trace_readTier]
    rcases hr : h.serve .l2 (.get key) st with ⟨r, st'⟩
    cases r with
    | error f => exact .failed hl2 hr
    | ok found =>
      cases found with
      | none => exact .missed hl2 hr
      | some p =>
        rw [mapError_ok]
        dsimp only
        cases hd : m.decode s p with
        | error e => exact .undecodable hl2 hr hd
        | ok a =>
          -- the payload is good, and is copied if the tiers and the call allow it
          cases hw : m.mode.warms t o.targetL1 && m.hasTier .l1 with
          | false => exact .hit hl2 hr hd hw
          | true =>
            simp only [Script.run_bind, Script.trace_bind, Script.run_event, Script.trace_event,
              run_warm, trace_warm, if_true]
            exact .warmed hl2 hr hd hw rfl

/-- **Every read goes one of the ways.** -/
theorem reading (st : σ) :
    Reading h m s key o st ((m.get s key o).trace h st) ((m.get s key o).run h st).1
      ((m.get s key o).run h st).2 := by
  rw [get]
  cases hp : m.plan key o .get with
  | error e => exact .refused hp
  | ok t =>
    dsimp only
    cases hl1 : t.l1 with
    | false =>
      rw [if_neg Bool.false_ne_true]
      exact .beyond hp hl1 (beyondL1 h m s key o t st)
    | true =>
      -- only a clean miss of `l1` leads to `l2`
      rw [if_pos rfl]
      simp only [Script.run_bind, Script.trace_bind, run_readTier, trace_readTier]
      rcases hr : h.serve .l1 (.get key) st with ⟨r, st'⟩
      cases r with
      | error f => exact .failed hp hl1 hr
      | ok found =>
        cases found with
        | some p => exact .hit hp hl1 hr
        | none => exact .missed hp hl1 hr (beyondL1 h m s key o t _)

end Runs

/-! ### What the ways have in common -/

section Common

variable {h : Handler Tier σ} {m : Manager} {s : Shape α} {key : String} {o : Options}
  {t : Targets} {st st' : σ} {T : List (Exchange Tier)} {r : Result (Option α)}

/-- A copy is made in the mode of both tiers only, and without a flag for `l1`. -/
theorem mode_of_warms (hw : (m.mode.warms t o.targetL1 && m.hasTier .l1) = true) :
    m.mode = .bothLevels ∧ o.targetL1 = none := by
  simp only [Mode.warms, Bool.and_eq_true, beq_iff_eq, Option.isNone_iff_eq_none] at hw
  exact ⟨hw.1.1.2, hw.1.2⟩

/-- A payload is good for a read if the codec decodes it. -/
theorem decode_eq_ok_iff {p : Bytes} {a : α} :
    m.decode s p = .ok a ↔ m.codec.deserialize s p = .ok a := by
  unfold decode
  cases m.codec.deserialize s p <;> simp

/-- The result of a hit. -/
theorem map_decode (p : Bytes) :
    (m.decode s p).map some =
      match m.codec.deserialize s p with
      | .ok a => .ok (some a)
      | .error f => .error (.deserialization m.codec.name f) := by
  unfold decode
  cases m.codec.deserialize s p <;> rfl

/-- Beyond `l1` only `l2` is read, and only if it is targeted. -/
theorem BeyondL1.read (hb : BeyondL1 h m s key o t st T r st') {i : Tier} {k : String}
    {reply : Except Failure (Option Bytes)} (hx : .read i k reply ∈ T) :
    i = .l2 ∧ k = key ∧ t.l2 = true := by
  cases hb with
  | notAsked => cases hx
  | failed hl2 | missed hl2 | undecodable hl2 | hit hl2 | warmed hl2 =>
    obtain ⟨rfl, rfl, -⟩ : i = .l2 ∧ k = key ∧ reply = _ := by simpa using hx
    exact ⟨rfl, rfl, hl2⟩

/-- Where `l2` is targeted, it is read. -/
theorem BeyondL1.exists_read (hb : BeyondL1 h m s key o t st T r st') (hl2 : t.l2 = true) :
    ∃ reply, .read .l2 key reply ∈ T := by
  cases hb with
  | notAsked hl2' => exact absurd hl2 (by simp [hl2'])
  | failed | missed | undecodable | hit | warmed => exact ⟨_, List.mem_cons_self⟩

/-- It is read once at most, and `l1` not at all. -/
theorem BeyondL1.countP_read (hb : BeyondL1 h m s key o t st T r st') (i : Tier) :
    T.countP (fun x => x.isRead && x.store == i) ≤ if i = .l2 then 1 else 0 := by
  cases hb <;> cases i <;> simp [Exchange.isRead, Exchange.store]

/-- Beyond `l1` nothing is written but a copy of what `l2` has. -/
theorem BeyondL1.write (hb : BeyondL1 h m s key o t st T r st') {i : Tier} {k : String} {p : Bytes}
    {ttl : Duration} {reply : Except Failure Unit} (hx : .write i k p ttl reply ∈ T) :
    i = .l1 ∧ k = key ∧ ttl = m.warmupTtl ∧ .read .l2 key (.ok (some p)) ∈ T ∧
      (∃ a, m.codec.deserialize s p = .ok a) ∧ m.mode = .bothLevels ∧ o.targetL1 = none := by
  cases hb with
  | notAsked | failed | missed | undecodable | hit => simp at hx
  | warmed _ _ hd hw =>
    obtain ⟨rfl, rfl, rfl, rfl, rfl⟩ :
        i = .l1 ∧ k = key ∧ p = _ ∧ ttl = m.warmupTtl ∧ reply = _ := by
      simpa using hx
    exact ⟨rfl, rfl, rfl, List.mem_cons_self, ⟨_, decode_eq_ok_iff.mp hd⟩, mode_of_warms hw⟩

/-- A payload of `l2` that decodes is copied, if the tiers and the call allow it. -/
theorem BeyondL1.exists_write (hb : BeyondL1 h m s key o t st T r st') {p : Bytes} {a : α}
    (hx : .read .l2 key (.ok (some p)) ∈ T) (hd : m.codec.deserialize s p = .ok a)
    (hw : (m.mode.warms t o.targetL1 && m.hasTier .l1) = true) :
    ∃ reply, .write .l1 key p m.warmupTtl reply ∈ T := by
  have hd' := decode_eq_ok_iff.mpr hd
  cases hb with
  | notAsked | failed | missed => simp at hx
  | undecodable _ _ hd₂ =>
    -- there is one payload in the trace, so it both decodes and does not
    obtain rfl : p = _ := by simpa using hx
    rw [hd'] at hd₂
    cases hd₂
  | hit _ _ _ hw₂ => exact absurd hw (by simp [hw₂])
  | @warmed p' _ _ _ reply =>
    obtain rfl : p = p' := by simpa using hx
    exact ⟨reply, by simp⟩

/-- There is one copy at most. -/
theorem BeyondL1.countP_write (hb : BeyondL1 h m s key o t st T r st') :
    T.countP Exchange.isWrite ≤ 1 := by
  cases hb <;> simp [Exchange.isWrite]

/-- Nothing else is asked. -/
theorem BeyondL1.only (hb : BeyondL1 h m s key o t st T r st') :
    ∀ x ∈ T, x.isRead = true ∨ x.isWrite = true := by
  cases hb <;> simp [Exchange.isRead, Exchange.isWrite]

/-- The result beyond `l1`, by what `l2` answers. -/
theorem BeyondL1.result (hb : BeyondL1 h m s key o t st T r st') :
    (∀ p, .read .l2 key (.ok (some p)) ∈ T → r = (m.decode s p).map some) ∧
      (∀ f, .read .l2 key (.error f) ∈ T → r = .error (.tier .l2 .get f)) ∧
      (r = .ok none ↔ (t.l2 = true → .read .l2 key (.ok none) ∈ T)) := by
  cases hb with
  | notAsked hl2 =>
    refine ⟨by simp, by simp, fun _ h2 => ?_, fun _ => rfl⟩
    rw [hl2] at h2
    cases h2
  | failed hl2 | missed hl2 => exact ⟨by simp, by simp, by simp [hl2]⟩
  -- a payload was found, and the trace has no other to be confused with
  | undecodable hl2 _ hd =>
    refine ⟨fun p hx => ?_, by simp, by simp [hl2]⟩
    obtain rfl : p = _ := by simpa using hx
    rw [hd]
    rfl
  | hit hl2 _ hd | warmed hl2 _ hd =>
    refine ⟨fun p hx => ?_, by simp, by simp [hl2]⟩
    obtain rfl : p = _ := by simpa using hx
    rw [hd]
    rfl

/-- A read asks for its key only, and only tiers that it targets. -/
theorem Reading.read (hm : m.Created) (hr : Reading h m s key o st T r st') {i : Tier} {k : String}
    {reply : Except Failure (Option Bytes)} (hx : .read i k reply ∈ T) :
    k = key ∧ (m.chosen o).contains i = true := by
  cases hr with
  | refused => cases hx
  | beyond hp _ hb =>
    obtain ⟨rfl, hk, hl2⟩ := hb.read hx
    -- what the plan targets are the tiers that were chosen
    obtain ⟨-, -, rfl, -⟩ := hm.of_plan hp
    exact ⟨hk, hl2⟩
  | failed hp hl1 | hit hp hl1 =>
    obtain ⟨rfl, rfl, -⟩ : i = .l1 ∧ k = key ∧ reply = _ := by simpa using hx
    obtain ⟨-, -, rfl, -⟩ := hm.of_plan hp
    exact ⟨rfl, hl1⟩
  | missed hp hl1 _ hb =>
    obtain ⟨-, -, rfl, -⟩ := hm.of_plan hp
    rcases List.mem_cons.mp hx with hx | hx
    · obtain ⟨rfl, rfl, -⟩ : i = .l1 ∧ k = key ∧ reply = _ := by simpa using hx
      exact ⟨rfl, hl1⟩
    · obtain ⟨rfl, hk, hl2⟩ := hb.read hx
      exact ⟨hk, hl2⟩

/-- **No tier is read twice.** -/
theorem Reading.countP_read (hr : Reading h m s key o st T r st') (i : Tier) :
    T.countP (fun x => x.isRead && x.store == i) ≤ 1 := by
  cases hr with
  | refused => simp
  | beyond _ _ hb => exact Nat.le_trans (hb.countP_read i) (by split <;> omega)
  | failed | hit => cases i <;> simp [Exchange.isRead, Exchange.store]
  | missed _ _ _ hb =>
    -- the read of `l1` is the only one of `l1`, and the others are of `l2`
    have hT := hb.countP_read i
    cases i <;> simpa [List.countP_cons, Exchange.isRead, Exchange.store] using hT

/-- `l2` is read exactly if it is targeted, and `l1` is not or has a clean miss. -/
theorem Reading.exists_read_l2_iff (hm : m.Created) (hk : key ≠ "") (ho : ¬m.Oversteps o)
    (hr : Reading h m s key o st T r st') :
    (∃ reply, .read .l2 key reply ∈ T) ↔
      (m.chosen o).l2 = true ∧ ((m.chosen o).l1 = false ∨ .read .l1 key (.ok none) ∈ T) := by
  cases hr with
  | refused hp =>
    -- only an empty choice of tiers is refused here
    have hl2 : (m.chosen o).l2 = false := by
      rw [hm.plan_eq hk ho] at hp
      cases he : (m.chosen o).isEmpty with
      | true => exact (by simpa [Targets.isEmpty] using he : _ ∧ _).2
      | false => simp [he] at hp
    simp [hl2]
  -- where `l1` is not targeted, `l2` is asked at once
  | beyond hp hl1 hb =>
    obtain ⟨-, -, rfl, -⟩ := hm.of_plan hp
    constructor
    · rintro ⟨reply, hx⟩
      exact ⟨(hb.read hx).2.2, .inl hl1⟩
    · rintro ⟨hl2, -⟩
      exact hb.exists_read hl2
  -- hit hp hl1 => | a failure or a hit of `l1` is the end of it
  | failed hp hl1 | hit hp hl1 =>
    obtain ⟨-, -, rfl, -⟩ := hm.of_plan hp
    simp [hl1]
  -- a clean miss of `l1` goes on to `l2`
  | missed hp hl1 _ hb =>
    obtain ⟨-, -, rfl, -⟩ := hm.of_plan hp
    constructor
    · rintro ⟨reply, hx⟩
      refine ⟨?_, .inr List.mem_cons_self⟩
      rcases List.mem_cons.mp hx with hx | hx
      · simp at hx
      · exact (hb.read hx).2.2
    · rintro ⟨hl2, -⟩
      obtain ⟨reply, hx⟩ := hb.exists_read hl2
      exact ⟨reply, List.mem_cons_of_mem _ hx⟩

/-- **The result of a read**: a hit is decoded, a failure is that of its tier, and a read misses if
every tier that it targets does. -/
theorem Reading.result (hm : m.Created) (hr : Reading h m s key o st T r st') :
    (∀ i p, .read i key (.ok (some p)) ∈ T → r = (m.decode s p).map some) ∧
      (∀ i f, .read i key (.error f) ∈ T → r = .error (.tier i .get f)) ∧
      (m.plan key o .get = .ok (m.chosen o) →
        (r = .ok none ↔ ∀ i, (m.chosen o).contains i = true → .read i key (.ok none) ∈ T)) := by
  cases hr with
  | refused hp =>
    refine ⟨by simp, by simp, fun hp' => ?_⟩
    rw [hp'] at hp
    cases hp
  -- `l1` is not targeted, so all that counts is what `l2` answers
  | beyond hp hl1 hb =>
    obtain ⟨hhit, hfail, hmiss⟩ := hb.result
    obtain ⟨-, -, rfl, -⟩ := hm.of_plan hp
    refine ⟨fun i p hx => ?_, fun i f hx => ?_, fun _ => ?_⟩
    · obtain ⟨rfl, -, -⟩ := hb.read hx
      exact hhit p hx
    · obtain ⟨rfl, -, -⟩ := hb.read hx
      exact hfail f hx
    · rw [hmiss]
      constructor
      · intro hall i hi
        cases i
        · exact absurd hi (by simp [Targets.contains, hl1])
        · exact hall hi
      · exact fun hall hl2 => hall .l2 hl2
  | failed hp hl1 =>
    obtain ⟨-, -, rfl, -⟩ := hm.of_plan hp
    refine ⟨by simp, by simp, fun _ => ?_⟩
    simp only [reduceCtorEq, false_iff]
    exact fun hall => by simpa using hall .l1 hl1
  | hit hp hl1 =>
    obtain ⟨-, -, rfl, -⟩ := hm.of_plan hp
    refine ⟨by simp, by simp, fun _ => ?_⟩
    constructor
    · -- a hit is never a miss, decoded or not
      intro hnone
      rw [map_decode] at hnone
      split at hnone <;> cases hnone
    · exact fun hall => by simpa using hall .l1 hl1
  -- the miss of `l1` is the first of the misses, and the rest is what `l2` answers
  | missed hp hl1 _ hb =>
    obtain ⟨hhit, hfail, hmiss⟩ := hb.result
    obtain ⟨-, -, rfl, -⟩ := hm.of_plan hp
    refine ⟨fun i p hx => ?_, fun i f hx => ?_, fun _ => ?_⟩
    · rcases List.mem_cons.mp hx with hx | hx
      · simp at hx
      · obtain ⟨rfl, -, -⟩ := hb.read hx
        exact hhit p hx
    · rcases List.mem_cons.mp hx with hx | hx
      · simp at hx
      · obtain ⟨rfl, -, -⟩ := hb.read hx
        exact hfail f hx
    · rw [hmiss]
      constructor
      · intro hall i hi
        cases i
        · exact List.mem_cons_self
        · exact List.mem_cons_of_mem _ (hall hi)
      · intro hall hl2
        simpa using hall .l2 hl2

/-- `l1` is read exactly if it is targeted. -/
theorem Reading.exists_read_l1_iff (hm : m.Created) (hk : key ≠ "") (ho : ¬m.Oversteps o)
    (hr : Reading h m s key o st T r st') :
    (∃ reply, .read .l1 key reply ∈ T) ↔ (m.chosen o).l1 = true := by
  constructor
  · rintro ⟨reply, hx⟩
    exact (hr.read hm hx).2
  · intro hl1
    -- a call that is refused has an empty choice, which has no `l1`
    cases hr with
    | refused hp =>
      rw [hm.plan_eq hk ho, if_neg (by simp [Targets.isEmpty, hl1])] at hp
      cases hp
    | beyond hp hl1' =>
      obtain ⟨-, -, rfl, -⟩ := hm.of_plan hp
      exact absurd hl1 (by simp [hl1'])
    | failed | hit | missed => exact ⟨_, List.mem_cons_self⟩

/-- A read writes nothing but a copy of what `l2` has into `l1`. -/
theorem Reading.write (hr : Reading h m s key o st T r st') {i : Tier} {k : String} {p : Bytes}
    {ttl : Duration} {reply : Except Failure Unit} (hx : .write i k p ttl reply ∈ T) :
    i = .l1 ∧ k = key ∧ ttl = m.warmupTtl ∧ .read .l2 key (.ok (some p)) ∈ T ∧
      (∃ a, m.codec.deserialize s p = .ok a) ∧ m.mode = .bothLevels ∧ o.targetL1 = none := by
  cases hr with
  | refused | failed | hit => simp at hx
  | beyond _ _ hb => exact hb.write hx
  | missed _ _ _ hb =>
    obtain ⟨hi, hk, httl, hl2, hrest⟩ := hb.write (by simpa using hx)
    exact ⟨hi, hk, httl, List.mem_cons_of_mem _ hl2, hrest⟩

/-- In the mode of both tiers, an `l2` payload that decodes is copied unless the call has a flag for
`l1`. -/
theorem Reading.exists_write (hm : m.Created) (hr : Reading h m s key o st T r st') {p : Bytes}
    {a : α} (hx : .read .l2 key (.ok (some p)) ∈ T) (hd : m.codec.deserialize s p = .ok a)
    (hmode : m.mode = .bothLevels) (hflag : o.targetL1 = none) :
    ∃ reply, .write .l1 key p m.warmupTtl reply ∈ T := by
  have hl1 : (m.chosen o).l1 = true := by rw [chosen, hmode, hflag]; rfl
  -- the conditions under which a hit is copied hold all at once
  have hw (ho : ¬m.Oversteps o) :
      (m.mode.warms (m.chosen o) o.targetL1 && m.hasTier .l1) = true := by
    have htier := hm.hasTier ho (t := .l1) hl1
    simp [Mode.warms, hl1, hmode, hflag, htier]
  cases hr with
  | refused | failed | hit => simp at hx
  | beyond hp hl1' hb =>
    obtain ⟨-, ho, rfl, -⟩ := hm.of_plan hp
    exact hb.exists_write hx hd (hw ho)
  | missed hp _ _ hb =>
    obtain ⟨-, ho, rfl, -⟩ := hm.of_plan hp
    obtain ⟨reply, hmem⟩ := hb.exists_write (by simpa using hx) hd (hw ho)
    exact ⟨reply, List.mem_cons_of_mem _ hmem⟩

/-- **There is one write at most.** -/
theorem Reading.countP_write (hr : Reading h m s key o st T r st') :
    T.countP Exchange.isWrite ≤ 1 := by
  cases hr with
  | refused | failed | hit => simp [Exchange.isWrite]
  | beyond _ _ hb => exact hb.countP_write
  | missed _ _ _ hb => simpa [List.countP_cons, Exchange.isWrite] using hb.countP_write

/-- A read removes nothing, and asks for no health. -/
theorem Reading.only (hr : Reading h m s key o st T r st') :
    ∀ x ∈ T, x.isRead = true ∨ x.isWrite = true := by
  cases hr with
  | refused | failed | hit => simp [Exchange.isRead]
  | beyond _ _ hb => exact hb.only
  | missed _ _ _ hb => simpa [Exchange.isRead] using hb.only

end Common

/-! ### The footprint -/

/-- **The footprint of a read**: what its trace and its result have to do with each other. -/
structure ReadFootprint (m : Manager) (s : Shape α) (key : String) (o : Options)
    (T : List (Exchange Tier)) (r : Result (Option α)) : Prop where
  /-- Misuse ends a read before any store is asked: an empty key first, … -/
  emptyKey : key = "" → T = [] ∧ r = .error .emptyKey
  /-- … then a flag where there is one tier, … -/
  oversteps : key ≠ "" → m.Oversteps o → T = [] ∧ r = .error .overrideNotAllowed
  /-- … then a choice of no tier. -/
  noTarget : key ≠ "" → ¬m.Oversteps o → (m.chosen o).isEmpty = true →
    T = [] ∧ r = .error (.noTarget .get)
  /-- Nothing is removed, and no store is asked for its health. -/
  only : ∀ x ∈ T, x.isRead = true ∨ x.isWrite = true
  /-- A tier is read once at most, … -/
  read_once : ∀ i, T.countP (fun x => x.isRead && x.store == i) ≤ 1
  /-- … under the key of the call, and only if it is targeted. -/
  read_chosen : ∀ i k reply, .read i k reply ∈ T → k = key ∧ (m.chosen o).contains i = true
  /-- `l1` is read whenever it is targeted, … -/
  read_l1 : m.Proper key o → ((∃ reply, .read .l1 key reply ∈ T) ↔ (m.chosen o).l1 = true)
  /-- … and `l2` if it is targeted, and `l1` is not or has a clean miss. -/
  read_l2 : m.Proper key o → ((∃ reply, .read .l2 key reply ∈ T) ↔
    (m.chosen o).l2 = true ∧ ((m.chosen o).l1 = false ∨ .read .l1 key (.ok none) ∈ T))
  /-- The payload that was found is decoded, … -/
  hit : ∀ i p, .read i key (.ok (some p)) ∈ T →
    r = match m.codec.deserialize s p with
      | .ok a => .ok (some a)
      | .error f => .error (.deserialization m.codec.name f)
  /-- … a failure is that of the tier that failed, … -/
  failed : ∀ i f, .read i key (.error f) ∈ T → r = .error (.tier i .get f)
  /-- … and a read misses exactly if every targeted tier does. -/
  missed : m.Proper key o →
    (r = .ok none ↔ ∀ i, (m.chosen o).contains i = true → .read i key (.ok none) ∈ T)
  /-- There is one write at most, … -/
  write_once : T.countP Exchange.isWrite ≤ 1
  /-- … of what was found in `l2`, into `l1`, … -/
  write_l1 : ∀ i k p ttl reply, .write i k p ttl reply ∈ T →
    i = .l1 ∧ k = key ∧ ttl = m.warmupTtl ∧ .read .l2 key (.ok (some p)) ∈ T
  /-- … exactly if that decoded, the mode is that of both tiers, and the call left `l1` open. -/
  writes : (∃ i k p ttl reply, .write i k p ttl reply ∈ T) ↔
    ∃ p a, .read .l2 key (.ok (some p)) ∈ T ∧ m.codec.deserialize s p = .ok a ∧
      m.mode = .bothLevels ∧ o.targetL1 = none

section Footprint

variable {m : Manager} {s : Shape α} {key : String} {o : Options}

/-- **Every way of reading meets the footprint.** The fields of refused calls exclude all ways but
one; the others are facts about all ways. -/
theorem Reading.footprint (hm : m.Created) {h : Handler Tier σ} {st st' : σ}
    {T : List (Exchange Tier)} {r : Result (Option α)} (hr : Reading h m s key o st T r st') :
    m.ReadFootprint s key o T r where
  emptyKey hk := by
    subst hk
    -- of all ways only the refusal is open to a call with an empty key
    cases hr with
    | refused hp =>
      rw [plan_empty] at hp
      cases hp
      exact ⟨rfl, rfl⟩
    | beyond hp | failed hp | hit hp | missed hp => exact absurd rfl (hm.of_plan hp).1
  oversteps hk ho := by
    cases hr with
    | refused hp =>
      rw [plan_oversteps hk ho] at hp
      cases hp
      exact ⟨rfl, rfl⟩
    | beyond hp | failed hp | hit hp | missed hp => exact absurd ho (hm.of_plan hp).2.1
  noTarget hk ho he := by
    have hplan : m.plan key o .get = _ := hm.plan_eq hk ho
    rw [if_pos he] at hplan
    cases hr with
    | refused hp =>
      rw [hplan] at hp
      cases hp
      exact ⟨rfl, rfl⟩
    | beyond hp | failed hp | hit hp | missed hp =>
      rw [hplan] at hp
      cases hp
  only := hr.only
  read_once := hr.countP_read
  read_chosen _ _ _ hx := hr.read hm hx
  read_l1 hp := hr.exists_read_l1_iff hm hp.key_ne hp.allowed
  read_l2 hp := hr.exists_read_l2_iff hm hp.key_ne hp.allowed
  hit i p hx := by rw [(hr.result hm).1 i p hx, map_decode]
  failed := (hr.result hm).2.1
  missed hp := by
    have hplan : m.plan key o .get = _ := hm.plan_eq hp.key_ne hp.allowed
    rw [hp.chooses, if_neg Bool.false_ne_true] at hplan
    exact (hr.result hm).2.2 hplan
  write_once := hr.countP_write
  write_l1 _ _ _ _ _ hx :=
    have hw := hr.write hx
    ⟨hw.1, hw.2.1, hw.2.2.1, hw.2.2.2.1⟩
  writes := by
    constructor
    · rintro ⟨i, k, p, ttl, reply, hx⟩
      obtain ⟨-, -, -, hl2, ⟨a, hd⟩, hmode, hflag⟩ := hr.write hx
      exact ⟨p, a, hl2, hd, hmode, hflag⟩
    · rintro ⟨p, a, hl2, hd, hmode, hflag⟩
      obtain ⟨reply, hx⟩ := hr.exists_write hm hl2 hd hmode hflag
      exact ⟨_, _, _, _, _, hx⟩

/-- A read that succeeds was carried out. -/
theorem ReadFootprint.proper {T : List (Exchange Tier)} {x : Option α}
    (hf : m.ReadFootprint s key o T (.ok x)) : m.Proper key o := by
  have hk : key ≠ "" := by
    intro hk
    cases (hf.emptyKey hk).2
  have ho : ¬m.Oversteps o := by
    intro ho
    cases (hf.oversteps hk ho).2
  refine ⟨hk, ho, ?_⟩
  cases he : (m.chosen o).isEmpty with
  | false => rfl
  | true => cases (hf.noTarget hk ho he).2

/-- A read that is told of a payload returns its value, or why it has none. -/
theorem ReadFootprint.of_hit {T : List (Exchange Tier)} {r : Result (Option α)}
    (hf : m.ReadFootprint s key o T r) {i : Tier} {p : Bytes}
    (hx : .read i key (.ok (some p)) ∈ T) :
    (∃ a, m.codec.deserialize s p = .ok a ∧ r = .ok (some a)) ∨
      ∃ f, m.codec.deserialize s p = .error f ∧ r = .error (.deserialization m.codec.name f) := by
  have hr := hf.hit i p hx
  cases hd : m.codec.deserialize s p with
  | ok a =>
    rw [hd] at hr
    exact .inl ⟨a, rfl, hr⟩
  | error f =>
    rw [hd] at hr
    exact .inr ⟨f, rfl, hr⟩

/-- In a read that is carried out some tier has a payload, or some tier fails, or all miss. -/
theorem ReadFootprint.outcome {T : List (Exchange Tier)} {r : Result (Option α)}
    (hf : m.ReadFootprint s key o T r) (hp : m.Proper key o) :
    (∃ i p, .read i key (.ok (some p)) ∈ T) ∨ (∃ i f, .read i key (.error f) ∈ T) ∨
      ∀ i, (m.chosen o).contains i = true → .read i key (.ok none) ∈ T := by
  -- some reply is more than a clean miss, or all of them are clean misses
  by_cases hex : ∃ i reply, .read i key reply ∈ T ∧ reply ≠ .ok none
  · obtain ⟨i, reply, hx, hne⟩ := hex
    match reply, hne with
    | .error f, _ => exact .inr (.inl ⟨i, f, hx⟩)
    | .ok (some p), _ => exact .inl ⟨i, p, hx⟩
    | .ok none, hne => exact absurd rfl hne
  · -- every read is a clean miss, so none of the targeted tiers was left out
    have hclean : ∀ i reply, .read i key reply ∈ T → .read i key (.ok none) ∈ T := by
      intro i reply hx
      by_cases hne : reply = .ok none
      · exact hne ▸ hx
      · exact absurd ⟨i, reply, hx, hne⟩ hex
    refine .inr (.inr fun i hi => ?_)
    have hl1 : (m.chosen o).l1 = true → .read .l1 key (.ok none) ∈ T := by
      intro h1
      obtain ⟨reply, hx⟩ := (hf.read_l1 hp).mpr h1
      exact hclean _ _ hx
    cases i with
    | l1 => exact hl1 hi
    | l2 =>
      have hbefore : (m.chosen o).l1 = false ∨ .read .l1 key (.ok none) ∈ T := by
        cases h1 : (m.chosen o).l1 with
        | false => exact .inl rfl
        | true => exact .inr (hl1 h1)
      obtain ⟨reply, hx⟩ := (hf.read_l2 hp).mpr ⟨hi, hbefore⟩
      exact hclean _ _ hx

/-- The replies to its reads alone make the result of a read. -/
theorem ReadFootprint.result_eq {T T' : List (Exchange Tier)} {r r' : Result (Option α)}
    (hf : m.ReadFootprint s key o T r) (hf' : m.ReadFootprint s key o T' r')
    (hreads : T'.filter Exchange.isRead = T.filter Exchange.isRead) : r' = r := by
  -- the two traces have the same reads
  have hmem : ∀ {i k reply}, .read i k reply ∈ T → .read i k reply ∈ T' := by
    intro i k reply hx
    have hx' : .read i k reply ∈ T'.filter Exchange.isRead := by
      rw [hreads]
      exact List.mem_filter.mpr ⟨hx, rfl⟩
    exact (List.mem_filter.mp hx').1
  -- a call that is refused does not depend on replies, and any other follows the first that counts
  by_cases hk : key = ""
  · rw [(hf.emptyKey hk).2, (hf'.emptyKey hk).2]
  by_cases ho : m.Oversteps o
  · rw [(hf.oversteps hk ho).2, (hf'.oversteps hk ho).2]
  cases he : (m.chosen o).isEmpty with
  | true => rw [(hf.noTarget hk ho he).2, (hf'.noTarget hk ho he).2]
  | false =>
    have hp : m.Proper key o := ⟨hk, ho, he⟩
    rcases hf.outcome hp with ⟨i, p, hx⟩ | ⟨i, f, hx⟩ | hall
    · rw [hf.hit i p hx, hf'.hit i p (hmem hx)]
    · rw [hf.failed i f hx, hf'.failed i f (hmem hx)]
    · rw [(hf.missed hp).mpr hall, (hf'.missed hp).mpr fun i hi => hmem (hall i hi)]

/-- **The footprint of a read.** Whatever the stores answer, a read of a created manager asks and
writes what `ReadFootprint` says, and no more; and two reads that are told the same by the stores
that they read have the same result, whatever becomes of their copies into `l1`. -/
theorem get_footprint (hm : m.Created) (s : Shape α) (key : String) (o : Options)
    (h : Handler Tier σ) (st : σ) :
    m.ReadFootprint s key o ((m.get s key o).trace h st) ((m.get s key o).run h st).1 ∧
      ∀ {σ' : Type} (h' : Handler Tier σ') (st' : σ'),
        ((m.get s key o).trace h' st').filter Exchange.isRead =
          ((m.get s key o).trace h st).filter Exchange.isRead →
        ((m.get s key o).run h' st').1 = ((m.get s key o).run h st).1 := by
  have hf := (reading h m s key o st).footprint hm
  refine ⟨hf, ?_⟩
  intro σ' h' st' hreads
  exact hf.result_eq ((reading h' m s key o st').footprint hm) hreads

end Footprint

/-- Stores of which `l1` is empty, and `l2` has a payload under every key; writes have the given
reply. -/
def farOnly (p : Bytes) (written : Except Failure Unit) : Handler Tier Unit where
  serve
    | .l1, .get _, _ => (.ok none, ())
    | .l2, .get _, _ => (.ok (some p), ())
    | _, .set .., _ => (written, ())
    | _, .remove _, _ => (.ok (), ())
  healthy _ _ := (true, ())
  note _ _ := ()
  compute _ := ()

/-- A hit in `l2` is returned, whether it can be copied or not. -/
theorem get_footprint_farOnly :
    (sample .bothLevels).Created ∧
      ((sample .bothLevels).get .bool "k" {}).trace (farOnly [1] (.error { text := "full" })) () =
        [.read .l1 "k" (.ok none), .read .l2 "k" (.ok (some [1])),
          .write .l1 "k" [1] defaultTtl (.error { text := "full" })] ∧
      (sample .bothLevels).ReadFootprint .bool "k" {}
        [.read .l1 "k" (.ok none), .read .l2 "k" (.ok (some [1])),
          .write .l1 "k" [1] defaultTtl (.error { text := "full" })] (.ok (some true)) ∧
      (((sample .bothLevels).get .bool "k" {}).run (farOnly [1] (.ok ())) ()).1 =
        (.ok (some true)) := by
  obtain ⟨hfoot, hsame⟩ := get_footprint (sample_created .bothLevels) .bool "k" {}
    (farOnly [1] (.error { text := "full" })) ()
  exact ⟨sample_created _, rfl, hfoot, hsame (farOnly [1] (.ok ())) () rfl⟩

end TwoTier.Manager
