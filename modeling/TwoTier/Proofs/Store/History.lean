import TwoTier.Proofs.Store.Uses

/-!
# Plain stores and the history of their use

A **history** lists the uses of a store with the clocks at which they were made, the latest first.
Between two uses the clock may have been set at will. This file says what a read of a plain store
returns in terms of its history alone, with no word about records and when they are dropped.

* `Deposit` is a payload that was written, with its time to live and the clock at its writing, and
  `LastWrite k H w newer` says that `w` was the last that a history `H` did to the record of a key
  `k`, and `newer` what was done since;
* a record after a history comes from the last write, and has gone through what was done since
  (`MadeByWrites.foldr_eq_some_iff`), whatever else it is that uses do to records;
* `Store.after` carries out a history, and `Store.readAfter` is what a read returns after it;
* `plain_history` is the result: a read returns what was written last, as long as no check of its
  key, this read included, came after its deadline. It follows that plain stores of either kind
  answer the same, that a miss is final until the next write, and that, with a clock that does not
  go back, nobody can tell when stale records are dropped.
-/

namespace TwoTier

/-- The uses of a store with the clocks at which they were made, the latest first. -/
abbrev History := List (Clock × Use)

/-! ### The last write -/

/-- A payload that was written. -/
structure Deposit where
  /-- The clock at the writing. -/
  clock : Clock
  payload : Bytes
  ttl : Duration
deriving DecidableEq

namespace Deposit

/-- The use that made the deposit under a key. -/
def write (w : Deposit) (k : String) : Clock × Use := (w.clock, .command (.set k w.payload w.ttl))

/-- The record of the deposit. -/
def record (w : Deposit) : Bytes := Entry.encode w.clock.now w.payload w.ttl

/-- The last reading at which the deposit is live, unless its time to live is zero. -/
def deadline (w : Deposit) : Nat := Entry.deadline w.clock.now w.ttl

end Deposit

/-- **The last write under a key**: of all uses in a history that write or remove the record of the
key, `w` is the latest, and `newer` are the uses after it. -/
structure LastWrite (k : String) (H : History) (w : Deposit) (newer : History) : Prop where
  split : ∃ older, H = newer ++ w.write k :: older
  unwritten : ∀ x ∈ newer, x.2.writes k = false

section LastWrite

variable {k : String} {H newer : History} {w : Deposit} {x : Clock × Use}

/-- A use that does not write the key comes after the last write. -/
theorem LastWrite.cons (hx : x.2.writes k = false) (h : LastWrite k H w newer) :
    LastWrite k (x :: H) w (x :: newer) := by
  obtain ⟨older, rfl⟩ := h.split
  exact ⟨⟨older, rfl⟩, List.forall_mem_cons.mpr ⟨hx, h.unwritten⟩⟩

/-- What was done since the last write can be taken off, the latest first. -/
theorem LastWrite.of_cons (h : LastWrite k H w (x :: newer)) :
    ∃ H', H = x :: H' ∧ LastWrite k H' w newer := by
  obtain ⟨older, rfl⟩ := h.split
  exact ⟨newer ++ w.write k :: older, rfl, ⟨older, rfl⟩, (List.forall_mem_cons.mp h.unwritten).2⟩

theorem LastWrite.mem (h : LastWrite k H w newer) : w.write k ∈ H := by
  obtain ⟨older, rfl⟩ := h.split
  exact List.mem_append_right _ List.mem_cons_self

/-- The last write is among the latest uses, or was so before them. -/
theorem LastWrite.of_append {l : History} (h : LastWrite k (l ++ H) w newer) :
    w.write k ∈ l ∨ ∃ newer', newer = l ++ newer' ∧ LastWrite k H w newer' := by
  obtain ⟨⟨older, hsplit⟩, hun⟩ := h
  -- the write is older than all of the latest uses, or one of them
  rcases List.append_eq_append_iff.mp hsplit with ⟨n, rfl, hH⟩ | ⟨n, rfl, hw⟩
  · have hun' : ∀ x ∈ n, x.2.writes k = false := fun x hx => hun x (List.mem_append_right _ hx)
    exact .inr ⟨n, rfl, ⟨older, hH⟩, hun'⟩
  · cases n with
    | nil => exact .inr ⟨[], by rw [List.append_nil, List.append_nil], ⟨older, hw.symm⟩,
        fun x hx => nomatch hx⟩
    | cons x n =>
      obtain ⟨rfl, -⟩ := List.cons.inj hw
      exact .inl (List.mem_append_right _ List.mem_cons_self)

theorem LastWrite.sublist (h : LastWrite k H w newer) : newer.Sublist H := by
  obtain ⟨older, rfl⟩ := h.split
  exact List.sublist_append_left ..

/-- **Records come from writes**: whatever it is that uses do to the record of a key, a write makes
it anew, a removal takes it away, and nothing else makes one where there is none. -/
structure MadeByWrites {β : Type} (k : String) (f : Clock × Use → Option β → Option β)
    (new : Deposit → β) : Prop where
  set : ∀ w b, f (w.write k) b = some (new w)
  remove : ∀ c b, f (c, .command (.remove k)) b = none
  unwritten : ∀ x, x.2.writes k = false → f x none = none

variable {β : Type} {f : Clock × Use → Option β → Option β} {new : Deposit → β}

/-- The last write decides: what was before it does not matter. -/
theorem LastWrite.foldr (hf : MadeByWrites k f new) (h : LastWrite k H w newer) (b : Option β) :
    H.foldr f b = newer.foldr f (some (new w)) := by
  obtain ⟨older, rfl⟩ := h.split
  rw [List.foldr_append, List.foldr_cons, hf.set]

/-- Without a last write there is no record. -/
theorem MadeByWrites.foldr_eq_none (hf : MadeByWrites k f new)
    (hno : ∀ w newer, ¬LastWrite k H w newer) : H.foldr f none = none := by
  -- along the history, the latest use first: a write would be the last, and nothing else makes a
  -- record
  induction H with
  | nil => rfl
  | cons x H ih =>
    rw [List.foldr_cons]
    cases hx : x.2.writes k with
    | false =>
      have hno' : ∀ w newer, ¬LastWrite k H w newer := fun w newer h => hno w _ (h.cons hx)
      rw [ih hno']
      exact hf.unwritten x hx
    | true =>
      obtain ⟨c, u⟩ := x
      rcases Use.of_writes hx with ⟨p, ttl, rfl⟩ | rfl
      · -- a deposit would itself be the last write
        have hlast : LastWrite k ((c, .command (.set k p ttl)) :: H) ⟨c, p, ttl⟩ [] :=
          ⟨⟨H, rfl⟩, fun y hy => nomatch hy⟩
        exact absurd hlast (hno _ _)
      · exact hf.remove c _

/-- **A record after a history** comes from the last write, and has gone through what was done
since. -/
theorem MadeByWrites.foldr_eq_some_iff (hf : MadeByWrites k f new) {b : β} :
    H.foldr f none = some b ↔
      ∃ w newer, LastWrite k H w newer ∧ newer.foldr f (some (new w)) = some b := by
  constructor
  · intro hb
    -- there is a last write, or there is no record
    by_cases hlast : ∃ w newer, LastWrite k H w newer
    · obtain ⟨w, newer, h⟩ := hlast
      refine ⟨w, newer, h, ?_⟩
      rw [← h.foldr hf none, hb]
    · have hno : ∀ w newer, ¬LastWrite k H w newer := fun w newer h => hlast ⟨w, newer, h⟩
      rw [hf.foldr_eq_none hno] at hb
      cases hb
  · rintro ⟨w, newer, h, hb⟩
    rw [h.foldr hf, hb]

/-- Leaving out uses that write nothing does not change which write was the last. -/
theorem lastWrite_filter_iff {keep : Clock × Use → Bool}
    (hkeep : ∀ x, x.2.writes k = true → keep x = true) :
    (∃ newer, LastWrite k (H.filter keep) w newer) ↔ ∃ newer, LastWrite k H w newer := by
  constructor
  · rintro ⟨newer, ⟨older, hsplit⟩, hun⟩
    -- what was left out before the write and after it is put back in its place
    obtain ⟨l₁, l₂, rfl, rfl, hl₂⟩ := List.filter_eq_append_iff.mp hsplit
    obtain ⟨m₁, m₂, rfl, hm₁, -, -⟩ := List.filter_eq_cons_iff.mp hl₂
    refine ⟨l₁ ++ m₁, ⟨m₂, by rw [List.append_assoc]⟩, fun x hx => ?_⟩
    cases hw : x.2.writes k with
    | false => rfl
    | true =>
      -- a write would have been kept, but all that was kept writes nothing
      rcases List.mem_append.mp hx with hx | hx
      · rw [hun x (List.mem_filter.mpr ⟨hx, hkeep x hw⟩)] at hw
        cases hw
      · exact absurd (hkeep x hw) (hm₁ x hx)
  · rintro ⟨newer, ⟨older, rfl⟩, hun⟩
    have hw : keep (w.write k) = true := hkeep _ (beq_self_eq_true k)
    refine ⟨newer.filter keep, ⟨older.filter keep, ?_⟩, fun x hx => ?_⟩
    · rw [List.filter_append, List.filter_cons_of_pos hw]
    · exact hun x (List.mem_filter.mp hx).1

end LastWrite

/-! ### Carrying out a history -/

namespace Store

/-- The store after a history. -/
def after (H : History) (s : Store) : Store := H.foldr (fun x s => (s.use x.1 x.2).2) s

/-- What the uses of a history were told, the latest first. -/
def replies (s : Store) : History → List ((u : Use) × u.Reply)
  | [] => []
  | x :: H => ⟨x.2, ((s.after H).use x.1 x.2).1⟩ :: s.replies H

/-- What a read of a key returns after a history. -/
def readAfter (H : History) (c : Clock) (k : String) (s : Store) :
    Except Failure (Option Bytes) :=
  ((s.after H).serve c (.get k)).reply

/-- A store without records. -/
def Empty (s : Store) : Prop := ∀ k, s.record? k = none

/-- A history of which the store has all the uses: only one that has a sweep is swept. -/
def Fits (H : History) (s : Store) : Prop := ∀ x ∈ H, x.2 = .sweep → s.Sweeps

section After

variable {s : Store} {H : History} {c : Clock} {k : String}

@[simp] theorem after_cons (x : Clock × Use) : s.after (x :: H) = ((s.after H).use x.1 x.2).2 := rfl

/-- A plain store stays plain, -/
theorem Plain.after (hs : s.Plain) (H : History) : (s.after H).Plain := by
  induction H with
  | nil => exact hs
  | cons x H ih => exact ih.use

/-- a store in the process stays one, -/
theorem InProcess.after (hs : s.InProcess) (H : History) : (s.after H).InProcess := by
  induction H with
  | nil => exact hs
  | cons x H ih => exact ih.use

/-- and what can be swept can still be swept. -/
theorem Sweeps.after (hs : s.Sweeps) (H : History) : (s.after H).Sweeps := by
  induction H with
  | nil => exact hs
  | cons x H ih => exact ih.use

theorem InProcess.readAfter_eq (hs : s.InProcess) (H : History) (c : Clock) (k : String) :
    s.readAfter H c k = .ok ((s.after H).found c k).payload? :=
  reply_serve_get (hs.after H)

theorem Fits.of_cons {x : Clock × Use} (h : s.Fits (x :: H)) : s.Fits H :=
  fun y hy => h y (List.mem_cons_of_mem x hy)

/-- The record of a key goes through the history on its own. -/
theorem Plain.record?_after (hs : s.Plain) (hfit : s.Fits H) (k : String) :
    (s.after H).record? k = H.foldr (fun x => x.2.onRecord k x.1) (s.record? k) := by
  -- along the history: each use does to the record of a key what it does to it in any store
  induction H with
  | nil => rfl
  | cons x H ih =>
    have hsweep : x.2 = .sweep → (s.after H).Sweeps :=
      fun hx => (hfit x List.mem_cons_self hx).after H
    rw [after_cons, (hs.after H).record?_use hsweep, ih hfit.of_cons, List.foldr_cons]

end After

/-! ### What becomes of a record that is not written -/

section Checked

variable {k : String} {newer : History} {raw raw' : Bytes}

/-- A use that does not write a key drops its record, if it checks it and finds it stale, and does
nothing else to it. -/
theorem onRecord_of_unwritten {u : Use} (hu : u.writes k = false) (c : Clock)
    (raw? : Option Bytes) : u.onRecord k c raw? =
      if u.checks k then raw?.filter fun raw => !Entry.isStale c.now raw else raw? := by
  cases u with
  | contains key | sweep => rfl
  | command x =>
    cases x with
    | get key => rfl
    | set key p ttl | remove key =>
      -- a write or removal is then of another key
      have hk : ¬k = key := fun h => (beq_eq_false_iff_ne.mp hu) h.symm
      simp only [Use.onRecord, if_neg hk, Use.checks, Bool.false_eq_true, if_false]

/-- In plain stores records come from writes. -/
theorem madeByWrites_onRecord (k : String) :
    MadeByWrites k (fun x => x.2.onRecord k x.1) Deposit.record where
  set w raw? := if_pos rfl
  remove c raw? := if_pos rfl
  unwritten x hx := by
    rw [onRecord_of_unwritten hx]
    split <;> rfl

/-- A record that is not written over stays as long as every check finds it fresh. -/
theorem foldr_onRecord_eq_some_iff (hun : ∀ x ∈ newer, x.2.writes k = false) :
    newer.foldr (fun x => x.2.onRecord k x.1) (some raw) = some raw' ↔
      raw = raw' ∧ ∀ x ∈ newer, x.2.checks k = true → Entry.isStale x.1.now raw = false := by
  -- along the uses since, the latest first: the record has come through all before it
  induction newer generalizing raw' with
  | nil =>
    rw [List.foldr_nil, Option.some.injEq]
    exact ⟨fun h => ⟨h, fun x hx => nomatch hx⟩, And.left⟩
  | cons x newer ih =>
    obtain ⟨hx, hun⟩ := List.forall_mem_cons.mp hun
    rw [List.foldr_cons, onRecord_of_unwritten hx, List.forall_mem_cons]
    cases hc : x.2.checks k with
    | false => simpa using ih hun
    | true =>
      simp only [if_true, Option.filter_eq_some_iff, ih hun, Bool.not_eq_true', true_imp_iff]
      constructor
      · rintro ⟨⟨rfl, hrest⟩, hfresh⟩
        exact ⟨rfl, hfresh, hrest⟩
      · rintro ⟨rfl, hfresh, hrest⟩
        exact ⟨⟨rfl, hrest⟩, hfresh⟩

end Checked

end Store

/-! ### What a read returns -/

/-- No check of a key among the given uses came after the deadline of a deposit, if it has one. -/
def Deposit.Outlives (w : Deposit) (k : String) (uses : History) : Prop :=
  w.ttl.isZero = true ∨ ∀ x ∈ uses, x.2.checks k = true → x.1.now ≤ w.deadline

/-- Whether a use writes or removes a record of any key. -/
def Use.isWrite : Use → Bool
  | .command (.set ..) => true
  | .command (.remove _) => true
  | _ => false

/-- A hand of the clock has not gone back, up to the clock `c`. -/
def History.Ascends (H : History) (hand : Clock → Nat) (c : Clock) : Prop :=
  (c :: H.map Prod.fst).Pairwise fun later earlier => hand earlier ≤ hand later

instance (H : History) (hand : Clock → Nat) (c : Clock) : Decidable (H.Ascends hand c) :=
  inferInstanceAs (Decidable (List.Pairwise _ _))

section Reading

variable {H newer : History} {w : Deposit} {c : Clock} {k : String} {p : Bytes}

theorem Use.isWrite_of_writes {u : Use} (hu : u.writes k = true) : u.isWrite = true := by
  rcases Use.of_writes hu with ⟨p, ttl, rfl⟩ | rfl <;> rfl

/-- Fewer checks are outlived as well. -/
theorem Deposit.Outlives.mono {uses : History} (h : w.Outlives k uses) (hsub : newer ⊆ uses) :
    w.Outlives k newer :=
  h.imp_right fun hle x hx => hle x (hsub hx)

/-- To outlive checks is to be found fresh by each of them. -/
theorem Deposit.outlives_iff :
    w.Outlives k newer ↔
      ∀ x ∈ newer, x.2.checks k = true → Entry.isStale x.1.now w.record = false := by
  simp only [Deposit.Outlives, Deposit.record, Entry.isStale_encode_eq_false_iff, Deposit.deadline]
  cases w.ttl.isZero <;> simp

theorem History.Ascends.le {hand : Clock → Nat} (h : H.Ascends hand c) {x : Clock × Use}
    (hx : x ∈ H) : hand x.1 ≤ hand c :=
  (List.pairwise_cons.mp h).1 x.1 (List.mem_map_of_mem hx)

theorem History.Ascends.sublist {hand : Clock → Nat} (h : H.Ascends hand c)
    (hsub : newer.Sublist H) : newer.Ascends hand c :=
  List.Pairwise.sublist ((hsub.map _).cons_cons c) h

/-- If the clock does not go back, only the last check counts. -/
theorem Deposit.outlives_cons_of_ascends {u : Use} (hu : u.checks k = true)
    (hH : newer.Ascends Clock.now c) :
    w.Outlives k ((c, u) :: newer) ↔ w.ttl.isZero = true ∨ c.now ≤ w.deadline := by
  unfold Outlives
  rw [List.forall_mem_cons]
  refine or_congr_right ⟨fun h => h.1 hu, fun h => ⟨fun _ => h, fun x hx _ => ?_⟩⟩
  have hearlier : x.1.now ≤ c.now := hH.le hx
  exact Nat.le_trans hearlier h

/-- What a read returns comes from the deposit whose record it has before it, if the read does not
come too late: it is one check more for the deposit to outlive. -/
theorem Store.InProcess.readAfter_of_present {s : Store} (hs : s.InProcess)
    {A : Deposit → History → Prop}
    (h : ∀ raw, (s.after H).present? c k = some raw ↔
      ∃ w newer, A w newer ∧ w.record = raw ∧ w.Outlives k newer) :
    s.readAfter H c k = .ok (some p) ↔ ∃ w newer, A w newer ∧ w.payload = p ∧
      w.Outlives k ((c, .command (.get k)) :: newer) := by
  have hget : (Use.command (.get k)).checks k = true := beq_self_eq_true k
  -- a payload is read exactly where there is a record for the read, and it is live
  have hlive : s.readAfter H c k = .ok (some p) ↔
      ∃ raw, (s.after H).present? c k = some raw ∧ Entry.decode c.now raw = .live p := by
    rw [hs.readAfter_eq, Except.ok.injEq, Entry.Found.payload?_eq_some_iff, Store.found_eq,
      Entry.lookup_eq_live_iff]
  rw [hlive]
  constructor
  · rintro ⟨raw, hraw, hdec⟩
    obtain ⟨w, newer, hw, rfl, hout⟩ := (h raw).mp hraw
    obtain ⟨hp, hfresh⟩ := Entry.decode_encode_eq_live_iff.mp hdec
    refine ⟨w, newer, hw, hp, Deposit.outlives_iff.mpr ?_⟩
    exact List.forall_mem_cons.mpr ⟨fun _ => hfresh, Deposit.outlives_iff.mp hout⟩
  · rintro ⟨w, newer, hw, hp, hout⟩
    obtain ⟨hfresh, hrest⟩ := List.forall_mem_cons.mp (Deposit.outlives_iff.mp hout)
    refine ⟨w.record, ?_, Entry.decode_encode_eq_live_iff.mpr ⟨hp, hfresh hget⟩⟩
    exact (h _).mpr ⟨w, newer, hw, rfl, Deposit.outlives_iff.mpr hrest⟩

namespace Store.Plain

variable {s s' : Store} (hs : s.Plain)
include hs

/-- What a read returns depends on the record after the history and on the clock of the read. -/
theorem readAfter_eq :
    s.readAfter H c k = .ok (Entry.lookup c.now ((s.after H).record? k)).payload? := by
  rw [hs.inProcess.readAfter_eq, (hs.after H).found]

/-- The record after a history is that of the last write, if every check since found it fresh. -/
theorem record?_after_eq_some_iff (he : s.Empty) (hfit : s.Fits H) {raw : Bytes} :
    (s.after H).record? k = some raw ↔
      ∃ w newer, LastWrite k H w newer ∧ w.record = raw ∧ w.Outlives k newer := by
  rw [hs.record?_after hfit, he k, (madeByWrites_onRecord k).foldr_eq_some_iff]
  constructor
  · rintro ⟨w, newer, hw, hrec⟩
    obtain ⟨hraw, hfresh⟩ := (foldr_onRecord_eq_some_iff hw.unwritten).mp hrec
    exact ⟨w, newer, hw, hraw, Deposit.outlives_iff.mpr hfresh⟩
  · rintro ⟨w, newer, hw, hraw, hout⟩
    exact ⟨w, newer, hw,
      (foldr_onRecord_eq_some_iff hw.unwritten).mpr ⟨hraw, Deposit.outlives_iff.mp hout⟩⟩

/-- **A read returns what was written last**, if neither it nor any check since came too late. -/
theorem readAfter_eq_some_iff (he : s.Empty) (hfit : s.Fits H) :
    s.readAfter H c k = .ok (some p) ↔ ∃ w newer, LastWrite k H w newer ∧ w.payload = p ∧
      w.Outlives k ((c, .command (.get k)) :: newer) := by
  refine hs.inProcess.readAfter_of_present fun raw => ?_
  rw [(hs.after H).present?_eq]
  exact hs.record?_after_eq_some_iff he hfit

/-- Reads that return the same payloads return the same. -/
theorem readAfter_congr (hs' : s'.Plain) {H' : History} {c' : Clock}
    (h : ∀ p, s.readAfter H c k = .ok (some p) ↔ s'.readAfter H' c' k = .ok (some p)) :
    s.readAfter H c k = s'.readAfter H' c' k := by
  rw [hs.readAfter_eq, hs'.readAfter_eq] at h ⊢
  refine congrArg Except.ok (Option.ext fun p => ?_)
  simpa only [Except.ok.injEq] using h p

/-- A miss is final until the next write, wherever the clock is set. -/
theorem readAfter_of_miss (he : s.Empty) {c' : Clock}
    (hfit : s.Fits (newer ++ (c, .command (.get k)) :: H)) (hmiss : s.readAfter H c k = .ok none)
    (hset : ∀ x ∈ newer, ∀ p ttl, x.2 ≠ .command (.set k p ttl)) :
    s.readAfter (newer ++ (c, .command (.get k)) :: H) c' k = .ok none := by
  have hfitH : s.Fits H := fun x hx => hfit x (List.mem_append_right _ (List.mem_cons_of_mem _ hx))
  rw [List.append_cons] at hfit ⊢
  rw [hs.readAfter_eq]
  refine congrArg Except.ok (Option.eq_none_iff_forall_ne_some.mpr fun p hp => ?_)
  -- a payload would come from a write that the read that missed must have found already
  obtain ⟨w, uses, hw, -, hout⟩ :=
    (hs.readAfter_eq_some_iff he hfit).mp ((hs.readAfter_eq (c := c')).trans (congrArg _ hp))
  -- the write is among the later uses, which write nothing, or it is older than the read that
  -- missed
  rcases hw.of_append with hmem | ⟨newer', rfl, hw'⟩
  · rcases List.mem_append.mp hmem with hmem | hmem
    · exact hset _ hmem w.payload w.ttl rfl
    · cases List.mem_singleton.mp hmem
  · -- the checks up to the miss are among those that the payload would have outlived
    have hsub : (c, Use.command (.get k)) :: newer' ⊆
        (c', .command (.get k)) :: (newer ++ [(c, .command (.get k))] ++ newer') := by
      intro x hx
      simp only [List.mem_cons, List.mem_append, List.not_mem_nil, or_false] at hx ⊢
      rcases hx with rfl | hx
      · exact .inr (.inl (.inr rfl))
      · exact .inr (.inr hx)
    have hhit : s.readAfter H c k = .ok (some w.payload) :=
      (hs.readAfter_eq_some_iff he hfitH).mpr ⟨w, newer', hw', rfl, hout.mono hsub⟩
    rw [hmiss] at hhit
    cases hhit

/-- If the clock does not go back, a read returns what was written last up to its deadline. -/
theorem readAfter_eq_some_iff_of_ascends (he : s.Empty) (hfit : s.Fits H)
    (hH : H.Ascends Clock.now c) :
    s.readAfter H c k = .ok (some p) ↔ ∃ w, (∃ newer, LastWrite k H w newer) ∧ w.payload = p ∧
      (w.ttl.isZero = true ∨ c.now ≤ w.deadline) := by
  have hget : (Use.command (.get k)).checks k = true := beq_self_eq_true k
  have hnewer {w newer} (hw : LastWrite k H w newer) : newer.Ascends Clock.now c :=
    hH.sublist hw.sublist
  rw [hs.readAfter_eq_some_iff he hfit]
  constructor
  · rintro ⟨w, newer, hw, hp, hout⟩
    exact ⟨w, ⟨newer, hw⟩, hp, (Deposit.outlives_cons_of_ascends hget (hnewer hw)).mp hout⟩
  · rintro ⟨w, ⟨newer, hw⟩, hp, hle⟩
    exact ⟨w, newer, hw, hp, (Deposit.outlives_cons_of_ascends hget (hnewer hw)).mpr hle⟩

/-- If the clock does not go back, only the writes in a history matter to a read after it. -/
theorem readAfter_eq_of_ascends (he : s.Empty) {H' : History} (hfit : s.Fits H) (hfit' : s.Fits H')
    (hH : H.Ascends Clock.now c) (hH' : H'.Ascends Clock.now c)
    (hwrites : H.filter (·.2.isWrite) = H'.filter (·.2.isWrite)) :
    s.readAfter H c k = s.readAfter H' c k := by
  refine hs.readAfter_congr hs fun p => ?_
  have hkeep (x : Clock × Use) (hx : x.2.writes k = true) : x.2.isWrite = true :=
    Use.isWrite_of_writes hx
  -- the last write is the same, as only uses that write nothing differ
  have hlast (w : Deposit) :
      (∃ newer, LastWrite k H w newer) ↔ ∃ newer, LastWrite k H' w newer := by
    rw [← lastWrite_filter_iff hkeep, hwrites, lastWrite_filter_iff hkeep]
  rw [hs.readAfter_eq_some_iff_of_ascends he hfit hH,
    hs.readAfter_eq_some_iff_of_ascends he hfit' hH']
  simp only [hlast]

/-- Plain stores with the same record under the key of a command answer the same. -/
theorem reply_serve_congr (hs' : s'.Plain) {x : Command} (h : s.record? x.key = s'.record? x.key) :
    (s.serve c x).reply = (s'.serve c x).reply := by
  cases x with
  | get key =>
    rw [reply_serve_get hs.inProcess, reply_serve_get hs'.inProcess, hs.found, hs'.found]
    exact congrArg (fun raw? => Except.ok (Entry.lookup c.now raw?).payload?) h
  | set key p ttl => rw [reply_serve_set hs.inProcess, reply_serve_set hs'.inProcess]
  | remove key => rw [reply_serve_remove hs.inProcess, reply_serve_remove hs'.inProcess]

/-- Plain stores of either kind answer the same. -/
theorem replies_eq (hs' : s'.Plain) (he : s.Empty) (he' : s'.Empty)
    (hH : ∀ x ∈ H, ∃ q, x.2 = .command q) : s.replies H = s'.replies H := by
  -- along the history; each command finds the same record in both, and is answered from that
  induction H with
  | nil => rfl
  | cons x H ih =>
    obtain ⟨⟨q, hq⟩, hrest⟩ := List.forall_mem_cons.mp hH
    obtain ⟨c, u⟩ := x
    obtain rfl : u = .command q := hq
    -- commands are no sweeps, which one of the kinds does not have
    have hnosweep : ∀ x ∈ H, x.2 ≠ .sweep := by
      intro x hx hsweep
      obtain ⟨q', hq'⟩ := hrest x hx
      rw [hsweep] at hq'
      cases hq'
    have hrecord : (s.after H).record? q.key = (s'.after H).record? q.key := by
      rw [hs.record?_after fun x hx h => absurd h (hnosweep x hx),
        hs'.record?_after fun x hx h => absurd h (hnosweep x hx), he, he']
    have hreply : ((s.after H).serve c q).reply = ((s'.after H).serve c q).reply :=
      (hs.after H).reply_serve_congr (hs'.after H) hrecord
    show (⟨.command q, ((s.after H).serve c q).reply⟩ : (u : Use) × u.Reply) :: s.replies H =
      ⟨.command q, ((s'.after H).serve c q).reply⟩ :: s'.replies H
    rw [hreply, ih hrest]

end Store.Plain

end Reading

/-! ### The theorem -/

/-- **Plain stores are described by their history.** A read never fails, and returns a payload
exactly if that is what was last written under the key, and the write has no deadline or neither
this read nor any check since came after it. So plain stores of either kind answer the same; a miss
is final until the next write, even if the clock is set back; and if the clock does not go back, a
read returns the same whatever reads and sweeps there were before it. A store of the bounded kind is
meant as long as it has room. -/
theorem Store.plain_history {s s' : Store} (hs : s.Plain) (hs' : s'.Plain) (he : s.Empty)
    (he' : s'.Empty) :
    (∀ H c k, s.Fits H → ∃ found, s.readAfter H c k = .ok found ∧ ∀ p, found = some p ↔
      ∃ w newer, LastWrite k H w newer ∧ w.payload = p ∧
        w.Outlives k ((c, .command (.get k)) :: newer)) ∧
    (∀ H : History, (∀ x ∈ H, ∃ q, x.2 = .command q) → s.replies H = s'.replies H) ∧
    (∀ (H newer : History) c c' k, s.Fits (newer ++ (c, .command (.get k)) :: H) →
      s.readAfter H c k = .ok none → (∀ x ∈ newer, ∀ p ttl, x.2 ≠ .command (.set k p ttl)) →
        s.readAfter (newer ++ (c, .command (.get k)) :: H) c' k = .ok none) ∧
    ∀ (H H' : History) c k, s.Fits H → s.Fits H' →
      H.Ascends Clock.now c → H'.Ascends Clock.now c →
      H.filter (·.2.isWrite) = H'.filter (·.2.isWrite) →
        s.readAfter H c k = s.readAfter H' c k := by
  refine ⟨fun H c k hfit => ?_, fun H => hs.replies_eq hs' he he', ?_, ?_⟩
  · refine ⟨_, hs.readAfter_eq, fun p => ?_⟩
    rw [← hs.readAfter_eq_some_iff he hfit, hs.readAfter_eq, Except.ok.injEq]
  · intro H newer c c' k hfit hmiss hset
    exact hs.readAfter_of_miss he hfit hmiss hset
  · intro H H' c k hfit hfit' hH hH' hwrites
    exact hs.readAfter_eq_of_ascends he hfit hfit' hH hH' hwrites

/-- The clock at a number of seconds after the beginning of 1970. -/
def Clock.atSecond (n : Nat) : Clock := ⟨.ofParts n 0, n * nanosPerSec⟩

/-- A payload for one second, and a sweep while it is live. -/
def History.swept : History :=
  [(.atSecond 1, .sweep), (.atSecond 0, .command (.set "k" [1] (.ofSecs 1)))]

/-- The payload is read at its deadline, and missed after it, and from then on, though the clock is
set back to its deadline. -/
theorem Store.plain_history_setBack :
    let s : Store := .unbounded {}
    let s' : Store := .bounded { capacity := 100 }
    let miss : Clock × Use := (.atSecond 2, .command (.get "k"))
    let written : History := History.swept.filter (·.2.isWrite)
    s.Plain ∧ s'.Plain ∧ s.Empty ∧ s'.Empty ∧ s.Fits (miss :: History.swept) ∧
      History.swept.Ascends Clock.now (.atSecond 1) ∧
      written.Ascends Clock.now (.atSecond 1) ∧
      s.readAfter written (.atSecond 1) "k" = .ok (some [1]) ∧
      s.readAfter History.swept (.atSecond 1) "k" = .ok (some [1]) ∧
      s.readAfter History.swept (.atSecond 2) "k" = .ok none ∧
      s.readAfter (miss :: History.swept) (.atSecond 1) "k" = .ok none ∧
      s.replies (miss :: written) = s'.replies (miss :: written) := by
  intro s s' miss written
  have hs : s.Plain := trivial
  have hs' : s'.Plain := trivial
  have he : s.Empty := fun _ => rfl
  have he' : s'.Empty := fun _ => rfl
  have hfit (H : History) : s.Fits H := fun _ _ _ => trivial
  have hswept : History.swept.Ascends Clock.now (.atSecond 1) := by decide
  have hwritten : written.Ascends Clock.now (.atSecond 1) := by decide
  obtain ⟨hread, hsame, hfinal, hunseen⟩ := Store.plain_history hs hs' he he'
  have hlast : LastWrite "k" written ⟨.atSecond 0, [1], .ofSecs 1⟩ [] :=
    ⟨⟨[], rfl⟩, fun x hx => nomatch hx⟩
  have hhit : s.readAfter written (.atSecond 1) "k" = .ok (some [1]) := by
    obtain ⟨found, hfound, hiff⟩ := hread written (.atSecond 1) "k" (hfit _)
    rw [hfound, (hiff [1]).mpr ⟨_, [], hlast, rfl, .inr fun x hx _ => ?_⟩]
    rw [List.mem_singleton.mp hx]
    decide
  have hmiss : s.readAfter History.swept (.atSecond 2) "k" = .ok none := by rfl
  refine ⟨hs, hs', he, he', hfit _, hswept, hwritten, hhit, ?_, hmiss, ?_, ?_⟩
  · rw [hunseen History.swept written (.atSecond 1) "k" (hfit _) (hfit _) hswept hwritten rfl]
    exact hhit
  · exact hfinal History.swept [] (.atSecond 2) (.atSecond 1) "k" (hfit _) hmiss
      fun x hx => nomatch hx
  · refine hsame _ fun x hx => ?_
    rcases List.mem_cons.mp hx with rfl | hx
    · exact ⟨_, rfl⟩
    · obtain rfl := List.mem_singleton.mp hx
      exact ⟨_, rfl⟩

end TwoTier
