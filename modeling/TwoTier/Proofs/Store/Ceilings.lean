import Mathlib.Data.List.Chain
import TwoTier.Proofs.Store.History

/-!
# Stores with ceilings and the history of their use

What `Proofs.Store.History` says of plain stores is said here of stores with ceilings, which run on
two clocks: deadlines on the wall clock, which may be set at will, and ceilings on the uptime, which
does not go back.

* `Use.onTimed` is what a use does to the record of a key, and a history does it to one key after
  the other (`Ceiling.exists_after`);
* `Deposit.Within` says that neither ceiling has ended since a deposit was made, given when it was
  used since. First, all looks at its key are counted as uses: then its record is held exactly as
  long as it is within the ceilings and every read found it fresh (`held_foldr_iff`). But only the
  looks that find it are **accesses** (`Store.accesses`), and counting these only comes to the same
  (`within_accesses_iff`), which gives `Ceiling.Holds`;
* `ceiling_history` is the result: what a read returns, what a look is told and when a record counts
  as expired, in terms of the history alone. It follows that, without a ceiling on idleness, a store
  with ceilings answers as a plain one, but at the very end of a time to live that is the ceiling on
  the lifetime.
-/

namespace TwoTier

open Ceiling (Limits Timed lastUptime)

/-! ### Ceilings -/

namespace Ceiling.Timed

variable {l : Limits} {c : Clock} {uptime : Nat} {r : Timed} {r? : Option Timed}

/-- A record is held until the first of three ends: of the uptimes that the store can tell apart, of
its lifetime, and of its time to be idle in. -/
theorem isHeld_iff :
    r.isHeld l uptime = true ↔ uptime < lastUptime ∧ uptime < r.written + l.lifetime.toNanos ∧
      ∀ d, l.idle = some d → uptime < r.used + d.toNanos := by
  unfold isHeld spanEnd
  -- both ends of a span are cut off at the last uptime
  cases l.idle with
  | none =>
    simp only [Bool.and_true, decide_eq_true_eq, Nat.lt_min, reduceCtorEq, false_imp_iff,
      implies_true, and_true]
    exact and_comm
  | some d =>
    simp only [Bool.and_eq_true, decide_eq_true_eq, Nat.lt_min, Option.some.injEq, forall_eq']
    constructor
    · rintro ⟨⟨hlife, hlast⟩, hidle, -⟩
      exact ⟨hlast, hlife, hidle⟩
    · rintro ⟨hlast, hlife, hidle⟩
      exact ⟨⟨hlife, hlast⟩, hidle, hlast⟩

/-- What is held was held before. -/
theorem isHeld_mono {earlier : Nat} (hle : earlier ≤ uptime) (h : r.isHeld l uptime = true) :
    r.isHeld l earlier = true := by
  obtain ⟨hlast, hlife, hidle⟩ := isHeld_iff.mp h
  refine isHeld_iff.mpr ⟨by omega, by omega, fun d hd => ?_⟩
  exact Nat.lt_of_le_of_lt hle (hidle d hd)

/-- What is held after a look was held at the look, and has been used by it. -/
theorem filter_afterContains_iff (hle : c.uptime ≤ uptime) :
    (afterContains l c r?).filter (isHeld l uptime) = some r ↔
      ∃ r₀, r?.filter (isHeld l c.uptime) = some r₀ ∧ r = r₀.usedAt c.uptime ∧
        r.isHeld l uptime = true := by
  unfold afterContains
  -- a look finds a record that is held, or leaves what cannot be held later either
  cases h : r?.filter (isHeld l c.uptime) with
  | none =>
    simp only [reduceCtorEq, false_and, exists_false, iff_false]
    intro hr
    obtain ⟨rfl, hheld⟩ := Option.filter_eq_some_iff.mp hr
    rw [Option.filter_some, if_pos (isHeld_mono hle hheld)] at h
    cases h
  | some r₀ =>
    simp only [Option.filter_eq_some_iff, Option.some.injEq, exists_eq_left']
    constructor
    · rintro ⟨rfl, hheld⟩
      exact ⟨rfl, hheld⟩
    · rintro ⟨rfl, hheld⟩
      exact ⟨rfl, hheld⟩

/-- What is held after a read was found fresh by it. -/
theorem filter_afterGet_iff (hle : c.uptime ≤ uptime) :
    (afterGet l c r?).filter (isHeld l uptime) = some r ↔
      Entry.isStale c.now r.raw = false ∧
        ∃ r₀, r?.filter (isHeld l c.uptime) = some r₀ ∧ r = r₀.usedAt c.uptime ∧
          r.isHeld l uptime = true := by
  rw [← filter_afterContains_iff hle]
  unfold afterGet afterContains
  cases h : r?.filter (isHeld l c.uptime) with
  | none =>
    refine ⟨fun hr => ?_, And.right⟩
    obtain ⟨rfl, hheld⟩ := Option.filter_eq_some_iff.mp hr
    rw [Option.filter_some, if_pos (isHeld_mono hle hheld)] at h
    cases h
  | some r₀ =>
    dsimp only
    -- a fresh record is used as by a look
    cases hs : Entry.isStale c.now r₀.raw with
    | false =>
      simp only [Bool.false_and, Bool.false_eq_true, if_false]
      refine ⟨fun hr => ⟨?_, hr⟩, And.right⟩
      obtain ⟨hr₀, -⟩ := Option.filter_eq_some_iff.mp hr
      rw [← Option.some.inj hr₀]
      exact hs
    | true =>
      -- a stale record is dropped, unless the read itself is the end of its time to be idle in
      rw [Bool.true_and]
      constructor
      · intro hr
        obtain ⟨hr₀, hheld⟩ := Option.filter_eq_some_iff.mp hr
        split at hr₀
        · cases hr₀
        · next hnot =>
          rw [← Option.some.inj hr₀] at hheld
          exact absurd (isHeld_mono hle hheld) hnot
      · rintro ⟨hfresh, hr⟩
        obtain ⟨hr₀, -⟩ := Option.filter_eq_some_iff.mp hr
        rw [← Option.some.inj hr₀] at hfresh
        cases hs.symm.trans hfresh

end Ceiling.Timed

/-! ### Uses -/

namespace Use

/-- Whether a use is a look at the record of a key. -/
def looks (k : String) : Use → Bool
  | .command (.get key) => key == k
  | .contains key => key == k
  | _ => false

/-- What a use makes of the record of a key in a store with ceilings. -/
def onTimed (l : Limits) (k : String) (c : Clock) : Use → Option Timed → Option Timed
  | .command (.set key p ttl), r? =>
    if k = key then some ⟨Entry.encode c.now p ttl, c.uptime, c.uptime⟩ else r?
  | .command (.remove key), r? => if k = key then none else r?
  | .command (.get key), r? => if k = key then Timed.afterGet l c r? else r?
  | .contains key, r? => if k = key then Timed.afterContains l c r? else r?
  | .sweep, r? => r?

variable {l : Limits} {k : String} {c : Clock} {u : Use} {r : Timed} {r? : Option Timed}

/-- A use that neither writes under a key nor looks at it does nothing to its record. -/
theorem onTimed_of_unused (hw : u.writes k = false) (hl : u.looks k = false) :
    u.onTimed l k c r? = r? := by
  -- a use of another key
  have hne {key : String} (h : (key == k) = false) : ¬k = key :=
    fun hk => beq_eq_false_iff_ne.mp h hk.symm
  cases u with
  | sweep => rfl
  | contains key => exact if_neg (hne hl)
  | command x =>
    cases x with
    | get key => exact if_neg (hne hl)
    | set key p ttl | remove key => exact if_neg (hne hw)

/-- But for sweeps, only looks are checks. -/
theorem checks_of_not_look (hl : u.looks k = false) (hsweep : u ≠ .sweep) :
    u.checks k = false := by
  cases u with
  | sweep => exact absurd rfl hsweep
  | contains key => rfl
  | command x =>
    cases x with
    | get key => exact hl
    | set key p ttl | remove key => rfl

/-- What is held after a look was held at the look, and found fresh by it if it was a read. -/
theorem filter_onTimed_iff {uptime : Nat} (hl : u.looks k = true) (hle : c.uptime ≤ uptime) :
    (u.onTimed l k c r?).filter (Timed.isHeld l uptime) = some r ↔
      (u.checks k = true → Entry.isStale c.now r.raw = false) ∧
        ∃ r₀, r?.filter (Timed.isHeld l c.uptime) = some r₀ ∧ r = r₀.usedAt c.uptime ∧
          r.isHeld l uptime = true := by
  -- the looks are reads and questions whether there is a record
  cases u with
  | sweep => cases hl
  | contains key =>
    obtain rfl : key = k := beq_iff_eq.mp hl
    simp only [onTimed, if_true, Timed.filter_afterContains_iff hle, checks, Bool.false_eq_true,
      false_imp_iff, true_and]
  | command x =>
    cases x with
    | set key p ttl | remove key => cases hl
    | get key =>
      obtain rfl : key = k := beq_iff_eq.mp hl
      simp only [onTimed, if_true, Timed.filter_afterGet_iff hle, checks, beq_self_eq_true,
        true_imp_iff]

end Use

namespace Ceiling

/-- **A use of a store with ceilings, key by key.** -/
theorem exists_use (s : Ceiling) (c : Clock) (u : Use) :
    ∃ s' : Ceiling, ((Store.ceiling s).use c u).2 = .ceiling s' ∧ s'.limits = s.limits ∧
      ∀ k, s'.records.find? k = u.onTimed s.limits k c (s.records.find? k) := by
  -- the record that a look changes is that of the key
  have hself (f : Option Timed → Option Timed) (key k : String) :
      (if k = key then f (s.records.find? key) else s.records.find? k) =
        if k = key then f (s.records.find? k) else s.records.find? k := by
    by_cases hk : k = key
    · rw [hk]
    · rw [if_neg hk, if_neg hk]
  cases u with
  | sweep => exact ⟨s, rfl, rfl, fun k => rfl⟩
  | contains key =>
    refine ⟨_, rfl, s.limits_contains c key, fun k => ?_⟩
    exact (s.find?_contains c key k).trans (hself _ key k)
  | command x =>
    cases x with
    | get key =>
      refine ⟨_, rfl, s.limits_get c key, fun k => ?_⟩
      exact (s.find?_get c key k).trans (hself _ key k)
    | set key p ttl => exact ⟨_, rfl, rfl, fun k => TextMap.find?_insert ..⟩
    | remove key => exact ⟨_, rfl, rfl, fun k => TextMap.find?_erase ..⟩

/-- The record of a key goes through the history on its own. -/
theorem exists_after (s : Ceiling) (H : History) :
    ∃ s' : Ceiling, (Store.ceiling s).after H = .ceiling s' ∧ s'.limits = s.limits ∧
      ∀ k, s'.records.find? k =
        H.foldr (fun x => x.2.onTimed s.limits k x.1) (s.records.find? k) := by
  -- on the history, whose latest use comes last
  induction H with
  | nil => exact ⟨s, rfl, rfl, fun k => rfl⟩
  | cons x H ih =>
    obtain ⟨s₁, hs₁, hlim₁, hrec₁⟩ := ih
    obtain ⟨s₂, hs₂, hlim₂, hrec₂⟩ := s₁.exists_use x.1 x.2
    refine ⟨s₂, by rw [Store.after_cons, hs₁, hs₂], hlim₂.trans hlim₁, fun k => ?_⟩
    rw [hrec₂, hlim₁, hrec₁, List.foldr_cons]

end Ceiling

/-! ### How long a deposit is held -/

/-- The uptimes at which the uses looked at a key, the latest first. -/
def History.looks (uses : History) (k : String) : List Nat :=
  (uses.filter (·.2.looks k)).map (·.1.uptime)

/-- **Within the ceilings**: less than a lifetime has gone by since a deposit, and never as much as
the ceiling on idleness between the deposit, the uptimes of its later uses, and now. -/
structure Deposit.Within (w : Deposit) (l : Limits) (used : List Nat) (uptime : Nat) : Prop where
  lifetime : uptime < w.clock.uptime + l.lifetime.toNanos
  idle : ∀ d, l.idle = some d → (uptime :: (used ++ [w.clock.uptime])).IsChain
    fun later earlier => later < earlier + d.toNanos

/-- When a deposit was last used. -/
def Deposit.lastUsed (w : Deposit) (used : List Nat) : Nat := used.headD w.clock.uptime

section Held

variable {l : Limits} {k : String} {w : Deposit} {H newer : History} {x : Clock × Use} {c : Clock}
  {used : List Nat} {uptime earlier : Nat}

/-- A look is counted with its uptime, … -/
theorem History.looks_cons_of_look (h : x.2.looks k = true) :
    History.looks (x :: newer) k = x.1.uptime :: newer.looks k := by
  simp only [looks, List.filter_cons, h, if_true, List.map_cons]

/-- … and nothing else is. -/
theorem History.looks_cons_of_not_look (h : x.2.looks k = false) :
    History.looks (x :: newer) k = newer.looks k := by
  simp only [looks, List.filter_cons, h, Bool.false_eq_true, if_false]

/-- The chain of uses begins with the last. -/
theorem Deposit.chain_iff {R : Nat → Nat → Prop} :
    (uptime :: (used ++ [w.clock.uptime])).IsChain R ↔
      R uptime (w.lastUsed used) ∧ (used ++ [w.clock.uptime]).IsChain R := by
  cases used with
  | nil => exact List.isChain_cons_cons
  | cons a used => exact List.isChain_cons_cons

theorem Deposit.Within.lt_lastUsed (h : w.Within l used uptime) {d : Duration}
    (hd : l.idle = some d) : uptime < w.lastUsed used + d.toNanos :=
  (chain_iff.mp (h.idle d hd)).1

/-- What is within the ceilings was so before, if it has not been used in between. -/
theorem Deposit.Within.mono (h : w.Within l used uptime) (hle : earlier ≤ uptime) :
    w.Within l used earlier := by
  refine ⟨Nat.lt_of_le_of_lt hle h.lifetime, fun d hd => ?_⟩
  -- only the last step of the chain comes nearer
  obtain ⟨hlt, hchain⟩ := chain_iff.mp (h.idle d hd)
  exact chain_iff.mpr ⟨Nat.lt_of_le_of_lt hle hlt, hchain⟩

/-- A use moves the beginning of idleness, and nothing else. -/
theorem Deposit.within_cons_iff (hle : earlier ≤ uptime) :
    w.Within l (earlier :: used) uptime ↔ w.Within l used earlier ∧
      uptime < w.clock.uptime + l.lifetime.toNanos ∧
        ∀ d, l.idle = some d → uptime < earlier + d.toNanos := by
  constructor
  · rintro ⟨hlife, hidle⟩
    -- the chain ends with the new use, and goes on as before
    have hsplit {d} (hd : l.idle = some d) := List.isChain_cons_cons.mp (hidle d hd)
    exact ⟨⟨by omega, fun d hd => (hsplit hd).2⟩, hlife, fun d hd => (hsplit hd).1⟩
  · rintro ⟨⟨-, hchain⟩, hlife, hidle⟩
    exact ⟨hlife, fun d hd => List.isChain_cons_cons.mpr ⟨hidle d hd, hchain d hd⟩⟩

/-- The record of a deposit as it is at first. -/
def Deposit.timed (w : Deposit) : Timed := ⟨w.record, w.clock.uptime, w.clock.uptime⟩

/-- The record of a key is made by writes alone: other uses make none. -/
theorem madeByWrites_onTimed (l : Limits) (k : String) :
    MadeByWrites k (fun x => x.2.onTimed l k x.1) Deposit.timed where
  set w r? := if_pos rfl
  remove c r? := if_pos rfl
  unwritten x hx := by
    obtain ⟨c, u⟩ := x
    cases u with
    | sweep => rfl
    | contains key => exact ite_self none
    | command q =>
      cases q with
      | get key | remove key => exact ite_self none
      | set key p ttl => exact if_neg fun hk => beq_eq_false_iff_ne.mp hx hk.symm

/-- **What is held after a deposit**: the deposit, as long as it is within the ceilings and every
read since found it fresh. -/
theorem held_foldr_iff (hun : ∀ x ∈ newer, x.2.writes k = false ∧ x.2 ≠ .sweep)
    (hrun : newer.Ascends Clock.uptime c) {r : Timed} :
    (newer.foldr (fun x => x.2.onTimed l k x.1) (some w.timed)).filter
        (Timed.isHeld l c.uptime) = some r ↔
      r = ⟨w.record, w.clock.uptime, w.lastUsed (newer.looks k)⟩ ∧ c.uptime < lastUptime ∧
        w.Within l (newer.looks k) c.uptime ∧ w.Outlives k newer := by
  rw [Deposit.outlives_iff]
  -- on the uses since, for any later moment
  induction newer generalizing c r with
  | nil =>
    rw [List.foldr_nil, Option.filter_eq_some_iff, Option.some.injEq]
    -- after the deposit itself nothing has been used
    constructor
    · rintro ⟨rfl, hheld⟩
      obtain ⟨hlast, hlife, hidle⟩ := Timed.isHeld_iff.mp hheld
      refine ⟨rfl, hlast, ⟨hlife, fun d hd => ?_⟩, fun x hx => nomatch hx⟩
      exact List.isChain_pair.mpr (hidle d hd)
    · rintro ⟨rfl, hlast, hwithin, -⟩
      exact ⟨rfl, Timed.isHeld_iff.mpr
        ⟨hlast, hwithin.lifetime, fun d hd => hwithin.lt_lastUsed hd⟩⟩
  | cons x newer ih =>
    obtain ⟨⟨hx, hsweep⟩, hun⟩ := List.forall_mem_cons.mp hun
    have hle : x.1.uptime ≤ c.uptime := hrun.le List.mem_cons_self
    have hrunx : History.Ascends newer Clock.uptime x.1 := (List.pairwise_cons.mp hrun).2
    have hrunc : History.Ascends newer Clock.uptime c := hrun.sublist (List.sublist_cons_self ..)
    rw [List.foldr_cons, List.forall_mem_cons]
    cases hlook : x.2.looks k with
    | false =>
      -- neither a look nor a write: nothing happens to the record, and nothing is checked
      have hcheck : x.2.checks k = false := Use.checks_of_not_look hlook hsweep
      rw [Use.onTimed_of_unused hx hlook, ih hun hrunc, History.looks_cons_of_not_look hlook,
        hcheck]
      simp only [Bool.false_eq_true, false_imp_iff, true_and]
    | true =>
      rw [Use.filter_onTimed_iff hlook hle, History.looks_cons_of_look hlook,
        Deposit.within_cons_iff hle]
      -- the look found the record at its own uptime, so it was held then, and is idle only since
      constructor
      · rintro ⟨hfresh, r₀, hr₀, rfl, hheld⟩
        obtain ⟨rfl, -, hwithin, hrest⟩ := (ih hun hrunx).mp hr₀
        obtain ⟨hlast, hlife, hidle⟩ := Timed.isHeld_iff.mp hheld
        exact ⟨rfl, hlast, ⟨hwithin, hlife, hidle⟩, hfresh, hrest⟩
      · rintro ⟨rfl, hlast, ⟨hwithin, hlife, hidle⟩, hfresh, hrest⟩
        refine ⟨hfresh, _, (ih hun hrunx).mpr ⟨rfl, by omega, hwithin, hrest⟩, rfl, ?_⟩
        exact Timed.isHeld_iff.mpr ⟨hlast, hlife, hidle⟩

end Held

/-! ### What a read returns -/

/-- What counts the records that were found expired. -/
def Store.expired : Store → UInt64
  | .ceiling s => s.expired
  | _ => 0

/-- The uptimes at which the latest `n` uses in a history looked at a key and found a record there,
stale or not, the latest first. -/
def Store.accesses (s : Store) (k : String) : Nat → History → List Nat
  | 0, _ => []
  | _ + 1, [] => []
  | n + 1, x :: H =>
    if x.2.looks k && ((s.after H).present? x.1 k).isSome then x.1.uptime :: s.accesses k n H
    else s.accesses k n H

/-- **A deposit is held** after a history that ends with the given uses: it was the last write under
its key, and neither ceiling has ended since, where the writing and all looks since that found it
are accesses. Both ceilings end with the uptimes that the store can tell apart. -/
structure Ceiling.Holds (s : Ceiling) (k : String) (H : History) (c : Clock) (w : Deposit)
    (newer : History) : Prop where
  lastWrite : LastWrite k H w newer
  uptime_lt : c.uptime < lastUptime
  within : w.Within s.limits ((Store.ceiling s).accesses k newer.length H) c.uptime

/-- Whether a use is a read that finds a deposit held, but after its deadline. -/
def Use.FindsExpired (u : Use) (s : Ceiling) (H : History) (c : Clock) : Prop :=
  ∃ k w newer, u = .command (.get k) ∧ s.Holds k H c w newer ∧ w.Outlives k newer ∧
    w.ttl.isZero = false ∧ w.deadline < c.now

/-- Since every use of a history, as much time has gone by on the wall clock as on the uptime. -/
def History.InStep (H : History) (c : Clock) : Prop :=
  ∀ x ∈ H, c.now + x.1.uptime = x.1.now + c.uptime

instance (H : History) (c : Clock) : Decidable (H.InStep c) :=
  inferInstanceAs (Decidable (∀ x ∈ H, _))

/-- No deposit in a history is meant to be live for ever, or for longer than a lifetime. -/
def History.Shorter (H : History) (lifetime : Duration) : Prop :=
  ∀ w : Deposit, ∀ k, w.write k ∈ H → 0 < w.ttl.toNanos ∧ w.ttl.toNanos ≤ lifetime.toNanos

namespace Ceiling

variable {s : Ceiling} {c : Clock} {k : String} {u : Use} {H newer : History} {w : Deposit}
  {raw p : Bytes}

theorem inProcess : (Store.ceiling s).InProcess := trivial

/-- A read counts an expired record exactly if it finds one stale. -/
theorem expired_get (s : Ceiling) (c : Clock) (key : String) :
    (s.get c key).2.expired =
      if (Store.ceiling s).found c key = .stale then s.expired + 1 else s.expired := by
  -- dropping the record does not count it once more
  have hpurge (s : Ceiling) : (s.purgeStale c key).expired = s.expired := by
    unfold purgeStale
    split
    · split <;> rfl
    · rfl
  unfold get
  rw [Store.found]
  cases s.held? c key with
  | none => rfl
  | some r =>
    rcases Entry.lookup_some c.now r.raw with ⟨-, hf⟩ | ⟨-, p, hf⟩
    · simp only [Option.map_some, hf, if_true, hpurge]
      rfl
    · simp only [Option.map_some, hf, reduceCtorEq, if_false]
      rfl

/-- Only a read that finds a record stale is counted. -/
theorem expired_use (s : Ceiling) (c : Clock) (u : Use) :
    ((∃ k, u = .command (.get k) ∧ (Store.ceiling s).found c k = .stale) →
      ((Store.ceiling s).use c u).2.expired = s.expired + 1) ∧
    ((¬∃ k, u = .command (.get k) ∧ (Store.ceiling s).found c k = .stale) →
      ((Store.ceiling s).use c u).2.expired = s.expired) := by
  constructor
  · rintro ⟨k, rfl, hstale⟩
    exact (s.expired_get c k).trans (if_pos hstale)
  · intro hnot
    cases u with
    | sweep => rfl
    | contains key =>
      show (s.contains c key).2.expired = s.expired
      unfold contains
      split <;> rfl
    | command x =>
      cases x with
      | set key p ttl | remove key => rfl
      | get key => exact (s.expired_get c key).trans (if_neg fun h => hnot ⟨key, rfl, h⟩)

/-- A record that a reader has before it is that of the last write; all looks since were uses. -/
theorem present?_after_of_looks (he : (Store.ceiling s).Empty) (hfit : (Store.ceiling s).Fits H)
    (hrun : H.Ascends Clock.uptime c) :
    ((Store.ceiling s).after H).present? c k = some raw ↔ c.uptime < lastUptime ∧
      ∃ w newer, LastWrite k H w newer ∧ w.record = raw ∧
        w.Within s.limits (newer.looks k) c.uptime ∧ w.Outlives k newer := by
  -- after the last write there are no more writes, and no sweeps at all
  have hkeep {w newer} (hw : LastWrite k H w newer) :
      (∀ x ∈ newer, x.2.writes k = false ∧ x.2 ≠ .sweep) ∧ newer.Ascends Clock.uptime c := by
    refine ⟨fun x hx => ⟨hw.unwritten x hx, fun hs => ?_⟩, hrun.sublist hw.sublist⟩
    exact hfit x (hw.sublist.subset hx) hs
  have hempty : s.records.find? k = none := Option.map_eq_none_iff.mp (he k)
  obtain ⟨s', hafter, hlim, hrec⟩ := s.exists_after H
  rw [hafter]
  show (s'.held? c k).map Timed.raw = some raw ↔ _
  rw [held?, hrec, hlim, hempty]
  simp only [Option.map_eq_some_iff, Option.filter_eq_some_iff,
    (madeByWrites_onTimed s.limits k).foldr_eq_some_iff]
  constructor
  · rintro ⟨r, ⟨⟨w, newer, hw, hr⟩, hheld⟩, rfl⟩
    obtain ⟨rfl, hlast, hwithin, hout⟩ := (held_foldr_iff (hkeep hw).1 (hkeep hw).2).mp
      (Option.filter_eq_some_iff.mpr ⟨hr, hheld⟩)
    exact ⟨hlast, w, newer, hw, rfl, hwithin, hout⟩
  · rintro ⟨hlast, w, newer, hw, rfl, hwithin, hout⟩
    obtain ⟨hr, hheld⟩ := Option.filter_eq_some_iff.mp
      ((held_foldr_iff (hkeep hw).1 (hkeep hw).2).mpr ⟨rfl, hlast, hwithin, hout⟩)
    exact ⟨_, ⟨⟨w, newer, hw, hr⟩, hheld⟩, rfl⟩

/-- Looks that found nothing need not be counted among the uses of a deposit: after such a look it
is not held any more, however the looks are counted. -/
theorem within_accesses_iff (he : (Store.ceiling s).Empty) (hfit : (Store.ceiling s).Fits H)
    (hrun : H.Ascends Clock.uptime c) (hw : LastWrite k H w newer) (hc : c.uptime < lastUptime)
    (hout : w.Outlives k newer) :
    w.Within s.limits ((Store.ceiling s).accesses k newer.length H) c.uptime ↔
      w.Within s.limits (newer.looks k) c.uptime := by
  -- on the uses since the deposit, each of which is judged by those before it
  induction newer generalizing H c with
  | nil =>
    rw [List.length_nil, Store.accesses]
    rfl
  | cons x newer ih =>
    obtain ⟨H', rfl, hw'⟩ := hw.of_cons
    have hle : x.1.uptime ≤ c.uptime := hrun.le List.mem_cons_self
    have hrunx : History.Ascends H' Clock.uptime x.1 := (List.pairwise_cons.mp hrun).2
    have hrunc : History.Ascends H' Clock.uptime c := hrun.sublist (List.sublist_cons_self ..)
    have hx : x.1.uptime < lastUptime := Nat.lt_of_le_of_lt hle hc
    have hrest : w.Outlives k newer := hout.mono (List.subset_cons_self ..)
    rw [List.length_cons, Store.accesses]
    cases hlook : x.2.looks k with
    | false =>
      rw [History.looks_cons_of_not_look hlook]
      exact ih hfit.of_cons hrunc hw' hc hrest
    | true =>
      -- whether the look found the deposit depends on the uses before it
      have hfound : w.Within s.limits (History.looks newer k) x.1.uptime →
          ((Store.ceiling s).after H').present? x.1 k = some w.record := fun hwithin =>
        (present?_after_of_looks he hfit.of_cons hrunx).mpr
          ⟨hx, w, newer, hw', rfl, hwithin, hrest⟩
      have hx' := ih hfit.of_cons hrunx hw' hx hrest
      rw [History.looks_cons_of_look hlook, Bool.true_and]
      cases hpresent : ((Store.ceiling s).after H').present? x.1 k with
      | some raw =>
        rw [Option.isSome_some, if_pos rfl, Deposit.within_cons_iff hle,
          Deposit.within_cons_iff hle, hx']
      | none =>
        rw [Option.isSome_none, if_neg Bool.false_ne_true]
        rw [hpresent] at hfound
        -- a look that found nothing came too late on either count
        constructor
        · intro h
          cases hfound (hx'.mp (h.mono hle))
        · intro h
          cases hfound ((Deposit.within_cons_iff hle).mp h).1

section After

variable (he : (Store.ceiling s).Empty) (hfit : (Store.ceiling s).Fits H)
  (hrun : H.Ascends Clock.uptime c)
include he hfit hrun

/-- **The record that a reader has before it** is that of a deposit that is held, if every read
since found it fresh. -/
theorem present?_after_eq_some_iff :
    ((Store.ceiling s).after H).present? c k = some raw ↔
      ∃ w newer, s.Holds k H c w newer ∧ w.record = raw ∧ w.Outlives k newer := by
  rw [present?_after_of_looks he hfit hrun]
  constructor
  · rintro ⟨hc, w, newer, hw, hraw, hwithin, hout⟩
    have hused := (within_accesses_iff he hfit hrun hw hc hout).mpr hwithin
    exact ⟨w, newer, ⟨hw, hc, hused⟩, hraw, hout⟩
  · rintro ⟨w, newer, ⟨hw, hc, hused⟩, hraw, hout⟩
    have hwithin := (within_accesses_iff he hfit hrun hw hc hout).mp hused
    exact ⟨hc, w, newer, hw, hraw, hwithin, hout⟩

/-- **A read returns what was written last**, if it is held and neither the read nor any before it
came too late. -/
theorem readAfter_eq_some_iff :
    (Store.ceiling s).readAfter H c k = .ok (some p) ↔ ∃ w newer, s.Holds k H c w newer ∧
      w.payload = p ∧ w.Outlives k ((c, .command (.get k)) :: newer) :=
  inProcess.readAfter_of_present fun _ => present?_after_eq_some_iff he hfit hrun

/-- A look is told of a record until it is removed, a ceiling ends, or a read finds it stale. -/
theorem contains_after_iff :
    (((Store.ceiling s).after H).contains c k).reply = true ↔
      ∃ w newer, s.Holds k H c w newer ∧ w.Outlives k newer := by
  have htold : (((Store.ceiling s).after H).contains c k).reply = true ↔
      ∃ raw, ((Store.ceiling s).after H).present? c k = some raw := by
    obtain ⟨s', hs', -, -⟩ := s.exists_after H
    rw [hs']
    show (s'.contains c k).1 = true ↔ ∃ raw, (s'.held? c k).map Timed.raw = some raw
    unfold contains
    cases s'.held? c k with
    | none => simp
    | some r => simp
  rw [htold]
  simp only [present?_after_eq_some_iff he hfit hrun]
  constructor
  · rintro ⟨raw, w, newer, hw, -, hout⟩
    exact ⟨w, newer, hw, hout⟩
  · rintro ⟨w, newer, hw, hout⟩
    exact ⟨w.record, w, newer, hw, rfl, hout⟩

/-- A read finds a deposit expired exactly if it finds a stale record. -/
theorem findsExpired_iff :
    u.FindsExpired s H c ↔
      ∃ k, u = .command (.get k) ∧ ((Store.ceiling s).after H).found c k = .stale := by
  -- a deposit is stale if it has a deadline that has passed
  have hstale {w : Deposit} :
      Entry.isStale c.now w.record = true ↔ w.ttl.isZero = false ∧ w.deadline < c.now := by
    rw [← Bool.not_eq_false, Deposit.record, Entry.isStale_encode_eq_false_iff, not_or,
      Bool.not_eq_true, Nat.not_le]
    rfl
  simp only [Store.found_eq, Entry.lookup_eq_stale_iff, present?_after_eq_some_iff he hfit hrun]
  constructor
  · rintro ⟨k, w, newer, hu, hw, hout, hlate⟩
    exact ⟨k, hu, w.record, ⟨w, newer, hw, rfl, hout⟩, hstale.mpr hlate⟩
  · rintro ⟨k, hu, raw, ⟨w, newer, hw, rfl, hout⟩, hs⟩
    exact ⟨k, w, newer, hu, hw, hout, hstale.mp hs⟩

/-- Without a ceiling on idleness, the ceiling on the lifetime takes nothing from the readers of
records that are not to live longer, but at its very end. -/
theorem readAfter_eq_plain {s' : Store} (hs' : s'.Plain) (he' : s'.Empty)
    (hidle : s.limits.idle = none) (hstep : H.InStep c) (hshort : H.Shorter s.limits.lifetime)
    (hc : c.uptime < lastUptime)
    (hend : ∀ w newer, LastWrite k H w newer → w.ttl.toNanos = s.limits.lifetime.toNanos →
      c.uptime ≠ w.clock.uptime + w.ttl.toNanos) :
    (Store.ceiling s).readAfter H c k = s'.readAfter H c k := by
  have hfit' : s'.Fits H := fun x hx hsweep => (hfit x hx hsweep).elim
  have hread := (inProcess (s := s)).readAfter_eq H c k
  rw [hread, hs'.readAfter_eq]
  -- both reads return what was written last; only the conditions on it differ
  refine congrArg Except.ok (Option.ext fun p => ?_)
  have hmine := readAfter_eq_some_iff (p := p) (k := k) he hfit hrun
  have hplain := hs'.readAfter_eq_some_iff (p := p) (k := k) (c := c) he' hfit'
  rw [hread, Except.ok.injEq] at hmine
  rw [hs'.readAfter_eq, Except.ok.injEq] at hplain
  rw [hmine, hplain]
  constructor
  · rintro ⟨w, newer, hw, hp, hout⟩
    exact ⟨w, newer, hw.lastWrite, hp, hout⟩
  · rintro ⟨w, newer, hw, hp, hout⟩
    refine ⟨w, newer, ⟨hw, hc, ?_, fun d hd => ?_⟩, hp, hout⟩
    · -- the deadline comes with the end of the lifetime at the latest
      obtain ⟨hpos, hle⟩ := hshort w k hw.mem
      have hclocks : c.now + w.clock.uptime = w.clock.now + c.uptime := hstep _ hw.mem
      have hdeadline : w.deadline ≤ w.clock.now + w.ttl.toNanos := Entry.deadline_le_add _ hpos
      have hnow : c.now ≤ w.deadline := by
        rcases hout with hzero | hchecks
        · exact absurd (Duration.isZero_iff.mp hzero) (by omega)
        · exact hchecks _ List.mem_cons_self (beq_self_eq_true k)
      -- at the very end the deadline is met and the lifetime over, which is excluded
      have hne := hend w newer hw
      omega
    · rw [hidle] at hd
      cases hd

end After

end Ceiling

/-! ### The theorem -/

/-- **Stores with ceilings are described by their history.** A read never fails, and returns a
payload exactly if that is what was last written under the key, the ceilings have not ended since,
and the write has no deadline or neither this read nor any since came after it; a look whether there
is a record is told of it under the same conditions, this moment's deadline apart. Expired counts
exactly the reads for which only the deadline had passed. And without a ceiling on idleness, records
that are not to live longer than the ceiling on the lifetime are read as from a plain store, as long
as the wall clock runs as the uptime does; only at the very end of the lifetime, where the deadline
is still met, they are not. -/
theorem Store.ceiling_history {s : Ceiling} (he : (Store.ceiling s).Empty) :
    (∀ (H : History) c k, (Store.ceiling s).Fits H → H.Ascends Clock.uptime c →
      (∃ found, (Store.ceiling s).readAfter H c k = .ok found ∧ ∀ p, found = some p ↔
        ∃ w newer, s.Holds k H c w newer ∧ w.payload = p ∧
          w.Outlives k ((c, .command (.get k)) :: newer)) ∧
      ((((Store.ceiling s).after H).contains c k).reply = true ↔
        ∃ w newer, s.Holds k H c w newer ∧ w.Outlives k newer)) ∧
    (∀ (H : History) c u, (Store.ceiling s).Fits H → H.Ascends Clock.uptime c →
      (u.FindsExpired s H c →
        ((Store.ceiling s).after ((c, u) :: H)).expired = ((Store.ceiling s).after H).expired + 1) ∧
      (¬u.FindsExpired s H c →
        ((Store.ceiling s).after ((c, u) :: H)).expired = ((Store.ceiling s).after H).expired)) ∧
    ∀ (s' : Store) (H : History) c k, s'.Plain → s'.Empty → (Store.ceiling s).Fits H →
      H.Ascends Clock.uptime c → s.limits.idle = none → H.InStep c →
      H.Shorter s.limits.lifetime → c.uptime < lastUptime →
      (∀ w newer, LastWrite k H w newer → w.ttl.toNanos = s.limits.lifetime.toNanos →
        c.uptime ≠ w.clock.uptime + w.ttl.toNanos) →
      (Store.ceiling s).readAfter H c k = s'.readAfter H c k := by
  refine ⟨fun H c k hfit hrun => ⟨?_, ?_⟩, fun H c u hfit hrun => ?_, ?_⟩
  · have hread := (Ceiling.inProcess (s := s)).readAfter_eq H c k
    refine ⟨_, hread, fun p => ?_⟩
    rw [← Ceiling.readAfter_eq_some_iff he hfit hrun, hread, Except.ok.injEq]
  · exact Ceiling.contains_after_iff he hfit hrun
  · -- what finds a deposit expired is what finds its record stale, and that is counted
    rw [Ceiling.findsExpired_iff he hfit hrun, Store.after_cons]
    obtain ⟨s₁, hs₁, -, -⟩ := s.exists_after H
    rw [hs₁]
    exact s₁.expired_use c u
  · intro s' H c k hs' he' hfit hrun hidle hstep hshort hc hend
    exact Ceiling.readAfter_eq_plain he hfit hrun hs' he' hidle hstep hshort hc hend

/-- A payload for six seconds, and a look at it after three. -/
def History.visited : History :=
  [(.atSecond 3, .contains "k"), (.atSecond 0, .command (.set "k" [1] (.ofSecs 6)))]

/-- With four seconds to be idle in, the payload is read at its deadline, thanks to the look, but
not a second later, when the ceiling on idleness has ended first. A wall clock that is a second
ahead makes it expire. Without that ceiling, it is read as from a store without any; but a payload
that is to live as long as the ceiling allows is missed at its deadline. -/
theorem Store.ceiling_history_visited :
    let s : Ceiling := { limits := { idle := some (.ofSecs 4) } }
    let H : History := .visited
    let ahead : Clock := { Clock.atSecond 6 with wall := .ofParts 7 0 }
    let full : History := [(.atSecond 0, .command (.set "k" [1] (.ofSecs 10800)))]
    (Store.ceiling s).Empty ∧ (Store.ceiling s).Fits H ∧
      H.Ascends Clock.uptime (.atSecond 6) ∧ H.InStep (.atSecond 6) ∧ H.Shorter (.ofSecs 10800) ∧
      (Store.ceiling s).readAfter H (.atSecond 6) "k" = .ok (some [1]) ∧
      (((Store.ceiling s).after H).contains (.atSecond 6) "k").reply = true ∧
      (((Store.ceiling s).after H).contains (.atSecond 7) "k").reply = false ∧
      ((Store.ceiling s).after ((ahead, .command (.get "k")) :: H)).expired = 1 ∧
      (Store.ceiling {}).readAfter H (.atSecond 6) "k" =
        (Store.unbounded {}).readAfter H (.atSecond 6) "k" ∧
      (Store.ceiling {}).readAfter full (.atSecond 10800) "k" = .ok none ∧
      (Store.unbounded {}).readAfter full (.atSecond 10800) "k" = .ok (some [1]) := by
  intro s H ahead full
  have he : (Store.ceiling s).Empty := fun _ => rfl
  have hnosweep : ∀ x ∈ H, x.2 ≠ .sweep := by decide
  have hfit (s : Ceiling) : (Store.ceiling s).Fits H := fun x hx hs => absurd hs (hnosweep x hx)
  have hrun : H.Ascends Clock.uptime (.atSecond 6) := by decide
  have hahead : H.Ascends Clock.uptime ahead := by decide
  have hstep : H.InStep (.atSecond 6) := by decide
  have hdeposit {w : Deposit} {k : String} (hw : w.write k ∈ H) : w.ttl = .ofSecs 6 := by
    rcases List.mem_cons.mp hw with h | h
    · obtain ⟨-, huse⟩ := Prod.mk.inj h
      cases huse
    · obtain ⟨-, huse⟩ := Prod.mk.inj (List.mem_singleton.mp h)
      injection huse with hset
      injection hset
  have hshort : H.Shorter (.ofSecs 10800) := by
    intro w k hw
    rw [hdeposit hw]
    decide
  -- the deposit, and the look at it
  let w : Deposit := ⟨.atSecond 0, [1], .ofSecs 6⟩
  let newer : History := [(.atSecond 3, .contains "k")]
  have hlast : LastWrite "k" H w newer := ⟨⟨[], rfl⟩, by decide⟩
  have hfresh : w.Outlives "k" newer := .inr (by decide)
  have hpassed : w.Outlives "k" ((.atSecond 6, .command (.get "k")) :: newer) := .inr (by decide)
  have hwithin : w.Within s.limits ((Store.ceiling s).accesses "k" newer.length H)
      (Clock.atSecond 6).uptime := by
    have haccesses : (Store.ceiling s).accesses "k" newer.length H = [(Clock.atSecond 3).uptime] :=
      by decide
    rw [haccesses]
    refine ⟨by decide, fun d hd => ?_⟩
    obtain rfl := Option.some.inj hd
    decide
  have hholds : s.Holds "k" H (.atSecond 6) w newer := ⟨hlast, by decide, hwithin⟩
  obtain ⟨hread, hcount, -⟩ := Store.ceiling_history he
  obtain ⟨⟨found, hfound, hiff⟩, hlook⟩ := hread H (.atSecond 6) "k" (hfit s) hrun
  obtain ⟨-, -, hplain⟩ := Store.ceiling_history (s := {}) fun _ => rfl
  refine ⟨he, hfit s, hrun, hstep, hshort, ?_, ?_, by decide, ?_, ?_, by rfl, by rfl⟩
  · rw [hfound, (hiff [1]).mpr ⟨w, newer, hholds, rfl, hpassed⟩]
  · exact hlook.mpr ⟨w, newer, hholds, hfresh⟩
  · have hexpired : (Use.command (.get "k")).FindsExpired s H ahead :=
      ⟨"k", w, newer, rfl, ⟨hlast, by decide, hwithin⟩, hfresh, rfl, by decide⟩
    have hnone : ((Store.ceiling s).after H).expired = 0 := by decide
    rw [(hcount H ahead _ (hfit s) hahead).1 hexpired, hnone]
    rfl
  · refine hplain (.unbounded {}) H (.atSecond 6) "k" trivial (fun _ => rfl) (hfit {}) hrun rfl
      hstep hshort (by decide) fun w newer hw hfull => ?_
    rw [hdeposit hw.mem] at hfull
    exact absurd hfull (by decide)

/-- **At the end of the uptimes** the two ceilings alone do not tell what is held: a payload for a
minute is missed at the very clock at which it was written, when neither ceiling nor its deadline
has passed. -/
theorem Store.missed_at_lastUptime :
    let c : Clock := ⟨.ofParts 31700000000 0, 30000000000 * nanosPerSec⟩
    let s : Ceiling := {}
    let w : Deposit := ⟨c, [1], .ofSecs 60⟩
    let H : History := [(c, .command (.set "k" [1] (.ofSecs 60)))]
    (Store.ceiling s).Empty ∧ (Store.ceiling s).Fits H ∧ H.Ascends Clock.uptime c ∧
      LastWrite "k" H w [] ∧ w.Within s.limits ((Store.ceiling s).accesses "k" 0 H) c.uptime ∧
      w.Outlives "k" [(c, .command (.get "k"))] ∧
      (Store.ceiling s).readAfter H c "k" = .ok none := by
  intro c s w H
  have hnosweep : ∀ x ∈ H, x.2 ≠ .sweep := by decide
  -- the two ceilings alone would let the record be held
  have hwithin : w.Within s.limits ((Store.ceiling s).accesses "k" 0 H) c.uptime :=
    ⟨by decide, fun d hd => nomatch hd⟩
  exact ⟨fun _ => rfl, fun x hx hs => absurd hs (hnosweep x hx), by decide, ⟨⟨[], rfl⟩, by decide⟩,
    hwithin, .inr (by decide), by decide⟩

end TwoTier
