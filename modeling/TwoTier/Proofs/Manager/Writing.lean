import TwoTier.Proofs.Deployment.Tiers
import TwoTier.Proofs.Manager.Created

/-!
# The footprint of a write

Everything that `Manager.set` can do, whatever the stores answer, in either order of the two writes
that run together. `Manager.Writing` lists the ways in which a write can go, one rule a way, each
with its trace, its result and the state it leaves, and every run is one of them (`writing`).

`set_footprint` is what they have in common: `Manager.WriteFootprint` says that a misused call and a
value without an encoding reach no store, that otherwise every targeted tier is written once,
whatever becomes of the other, and how the replies make the result. Over stores that are apart the
order of the two writes cannot be seen, neither in the result nor in what becomes of the stores
(`run_writeTargets_comm`).
-/

namespace TwoTier

/-- The time to live that a call gives for a tier, if it does. -/
def Options.ttl? (o : Options) : Tier → Option Duration
  | .l1 => o.l1Ttl
  | .l2 => o.l2Ttl

namespace Manager

variable {σ α : Type}

/-- The time to live for a tier where a call gives none. -/
def fallbackTtl (m : Manager) : Tier → Duration
  | .l1 => m.l1Ttl
  | .l2 => m.l2Ttl

/-- The time to live of what a call writes to a tier. -/
def ttl (m : Manager) (o : Options) (i : Tier) : Duration :=
  .positiveOr (o.ttl? i) (m.fallbackTtl i)

theorem ttls_eq (m : Manager) (o : Options) :
    o.ttls m.l1Ttl m.l2Ttl = (m.ttl o .l1, m.ttl o .l2) := rfl

/-- No time to live of a created manager is zero, whatever the call gives. -/
theorem Created.ttl_pos {m : Manager} (hm : m.Created) (o : Options) (i : Tier) :
    0 < (m.ttl o i).toNanos := by
  cases i
  · exact Duration.positiveOr_pos hm.defaults_pos.1
  · exact Duration.positiveOr_pos hm.defaults_pos.2

/-! ### The ways in which a write can go -/

section Ways

variable (h : Handler Tier σ) (m : Manager) (s : Shape α) (key : String) (a : α) (o : Options)

/-- The state after the reply to a write, which is reported if it succeeded. -/
def afterWrite (i : Tier) (p : Bytes) (x : Except Failure Unit × σ) : σ :=
  match x.1 with
  | .ok () => h.note (.written key i (m.ttl o i) p.length) x.2
  | .error _ => x.2

/-- The state after both writes, of which one that fails alone is reported. -/
def afterBoth : Except Failure Unit → Except Failure Unit → σ → σ
  | .error f, .ok (), st => h.note (.partlyWritten key (CacheError.tier .l1 .set f).message) st
  | .ok (), .error f, st => h.note (.partlyWritten key (CacheError.tier .l2 .set f).message) st
  | _, _, st => st

/-- The result of two writes. -/
def bothResult : Except Failure Unit → Except Failure Unit → Result Unit
  | .error f1, .error f2 => .error (.bothTiersFailed (.tier .l1 .set f1) (.tier .l2 .set f2))
  | _, _ => .ok ()

/-- What a write to a tier gets from the handler. -/
abbrev asked (i : Tier) (p : Bytes) (st : σ) : Except Failure Unit × σ :=
  h.serve i (.set key p (m.ttl o i)) st

/-- The ways in which a write can go from a state, where the two writes that run together are
carried out in the given order: the trace, the result, and the state it leaves. -/
inductive Writing (order : WriteOrder) (st : σ) : List (Exchange Tier) → Result Unit → σ → Prop
  | refused {e : CacheError} (hc : m.check key o = .error e) : Writing order st [] (.error e) st
  | unserializable {f : CodecFailure} (hc : m.check key o = .ok ())
      (hs : m.codec.serialize s a = .error f) :
    Writing order st [] (.error (.serialization m.codec.name f)) st
  | untargeted {p : Bytes} {e : CacheError} (hc : m.check key o = .ok ())
      (hs : m.codec.serialize s a = .ok p) (ht : m.targets o .set = .error e) :
    Writing order st [] (.error e) st
  | single {p : Bytes} {t : Targets} {i : Tier} (hc : m.check key o = .ok ())
      (hs : m.codec.serialize s a = .ok p) (ht : m.targets o .set = .ok t) (hi : t.toList = [i]) :
    Writing order st [.write i key p (m.ttl o i) (asked h m key o i p st).1]
      ((asked h m key o i p st).1.mapError (.tier i .set))
      (afterWrite h m key o i p (asked h m key o i p st))
  | l1First {p : Bytes} {t : Targets} {x1 x2 : Except Failure Unit × σ}
      (hc : m.check key o = .ok ()) (hs : m.codec.serialize s a = .ok p)
      (ht : m.targets o .set = .ok t) (hi : t.toList = [.l1, .l2]) (ho : order = .l1First)
      (h1 : asked h m key o .l1 p st = x1)
      (h2 : asked h m key o .l2 p (afterWrite h m key o .l1 p x1) = x2) :
    Writing order st
      [.write .l1 key p (m.ttl o .l1) x1.1, .write .l2 key p (m.ttl o .l2) x2.1]
      (bothResult x1.1 x2.1) (afterBoth h key x1.1 x2.1 (afterWrite h m key o .l2 p x2))
  | l2First {p : Bytes} {t : Targets} {x1 x2 : Except Failure Unit × σ}
      (hc : m.check key o = .ok ()) (hs : m.codec.serialize s a = .ok p)
      (ht : m.targets o .set = .ok t) (hi : t.toList = [.l1, .l2]) (ho : order = .l2First)
      (h2 : asked h m key o .l2 p st = x2)
      (h1 : asked h m key o .l1 p (afterWrite h m key o .l2 p x2) = x1) :
    Writing order st
      [.write .l2 key p (m.ttl o .l2) x2.1, .write .l1 key p (m.ttl o .l1) x1.1]
      (bothResult x1.1 x2.1) (afterBoth h key x1.1 x2.1 (afterWrite h m key o .l1 p x1))

end Ways

/-! ### Every write goes one of the ways -/

section Runs

variable (h : Handler Tier σ) (m : Manager) (s : Shape α) (key : String) (a : α) (o : Options)

/-- A write to a tier that there is returns the reply of the store, named for the tier. -/
theorem run_write {i : Tier} (hi : m.hasTier i = true) (p : Bytes) (st : σ) :
    (m.write i key p (m.ttl o i)).run h st =
      ((asked h m key o i p st).1.mapError (.tier i .set),
        afterWrite h m key o i p (asked h m key o i p st)) := by
  rw [write, if_pos hi, Script.run_bind, Script.run_command, afterWrite]
  cases (asked h m key o i p st).1 with
  | error f => rfl
  | ok u => rfl

/-- It is one exchange. -/
theorem trace_write {i : Tier} (hi : m.hasTier i = true) (p : Bytes) (st : σ) :
    (m.write i key p (m.ttl o i)).trace h st =
      [.write i key p (m.ttl o i) (asked h m key o i p st).1] := by
  rw [write, if_pos hi, Script.trace_bind, Script.trace_command, Script.run_command]
  cases (asked h m key o i p st).1 with
  | error f => rfl
  | ok u => rfl

/-- What the outcomes of two writes make. -/
theorem run_aggregate (r1 r2 : Except Failure Unit) (st : σ) :
    (aggregate key (some (r1.mapError (.tier .l1 .set)))
      (some (r2.mapError (.tier .l2 .set)))).run h st =
        (bothResult r1 r2, afterBoth h key r1 r2 st) := by
  cases r1 <;> cases r2 <;> rfl

theorem trace_aggregate (r1 r2 : Option (Result Unit)) (st : σ) :
    (aggregate key r1 r2).trace h st = [] := by
  rcases r1 with _ | (e1 | u1) <;> rcases r2 with _ | (e2 | u2) <;> rfl

/-- A write to one tier, in whichever order: the other one is skipped. -/
theorem writeTargets_single {t : Targets} {i : Tier} (hi : t.toList = [i])
    (htier : m.hasTier i = true) (order : WriteOrder) (p : Bytes) (st : σ) :
    (m.writeTargets order t key p (m.ttl o .l1, m.ttl o .l2)).run h st =
        ((asked h m key o i p st).1.mapError (.tier i .set),
          afterWrite h m key o i p (asked h m key o i p st)) ∧
      (m.writeTargets order t key p (m.ttl o .l1, m.ttl o .l2)).trace h st =
        [.write i key p (m.ttl o i) (asked h m key o i p st).1] := by
  -- the targets are known, so both orders are concrete scripts
  have ht : t = ⟨i == .l1, i == .l2⟩ := by
    obtain ⟨t1, t2⟩ := t
    cases t1 <;> cases t2 <;> cases i <;> first | rfl | exact absurd hi (by decide)
  -- what is left is one write, and the outcome of the other is none
  have hrun := run_write h m key o htier p st
  have htrace := trace_write h m key o htier p st
  subst ht
  cases order <;> cases i <;>
    simp [writeTargets, writeIf, aggregate, Script.run_bind, Script.trace_bind, Script.run_map,
      Script.trace_map, hrun, htrace]

/-- Both writes, the one to `l1` first. -/
theorem writeTargets_l1First (h1 : m.hasTier .l1 = true) (h2 : m.hasTier .l2 = true) (p : Bytes)
    (st : σ) {x1 x2 : Except Failure Unit × σ} (hx1 : asked h m key o .l1 p st = x1)
    (hx2 : asked h m key o .l2 p (afterWrite h m key o .l1 p x1) = x2) :
    (m.writeTargets .l1First ⟨true, true⟩ key p (m.ttl o .l1, m.ttl o .l2)).run h st =
        (bothResult x1.1 x2.1, afterBoth h key x1.1 x2.1 (afterWrite h m key o .l2 p x2)) ∧
      (m.writeTargets .l1First ⟨true, true⟩ key p (m.ttl o .l1, m.ttl o .l2)).trace h st =
        [.write .l1 key p (m.ttl o .l1) x1.1, .write .l2 key p (m.ttl o .l2) x2.1] := by
  subst hx1 hx2
  simp [writeTargets, writeIf, Script.run_bind, Script.trace_bind, Script.run_map,
    Script.trace_map, run_write h m key o h1, run_write h m key o h2, trace_write h m key o h1,
    trace_write h m key o h2, run_aggregate, trace_aggregate]

/-- Both writes, the one to `l2` first. -/
theorem writeTargets_l2First (h1 : m.hasTier .l1 = true) (h2 : m.hasTier .l2 = true) (p : Bytes)
    (st : σ) {x1 x2 : Except Failure Unit × σ} (hx2 : asked h m key o .l2 p st = x2)
    (hx1 : asked h m key o .l1 p (afterWrite h m key o .l2 p x2) = x1) :
    (m.writeTargets .l2First ⟨true, true⟩ key p (m.ttl o .l1, m.ttl o .l2)).run h st =
        (bothResult x1.1 x2.1, afterBoth h key x1.1 x2.1 (afterWrite h m key o .l1 p x1)) ∧
      (m.writeTargets .l2First ⟨true, true⟩ key p (m.ttl o .l1, m.ttl o .l2)).trace h st =
        [.write .l2 key p (m.ttl o .l2) x2.1, .write .l1 key p (m.ttl o .l1) x1.1] := by
  subst hx2 hx1
  simp [writeTargets, writeIf, Script.run_bind, Script.trace_bind, Script.run_map,
    Script.trace_map, run_write h m key o h1, run_write h m key o h2, trace_write h m key o h1,
    trace_write h m key o h2, run_aggregate, trace_aggregate]

/-- The targets of a call are one tier, or both. -/
theorem toList_of_not_isEmpty {t : Targets} (h : t.isEmpty = false) :
    (∃ i, t.toList = [i]) ∨ t = ⟨true, true⟩ := by
  obtain ⟨t1, t2⟩ := t
  cases t1 with
  | false =>
    cases t2 with
    | false => exact absurd h (by decide)
    | true => exact .inl ⟨.l2, rfl⟩
  | true =>
    cases t2 with
    | false => exact .inl ⟨.l1, rfl⟩
    | true => exact .inr rfl

theorem hasTier_of_toList {t : Targets} {i : Tier} (hi : t.toList = [i])
    (hall : ∀ j, t.contains j = true → m.hasTier j = true) : m.hasTier i = true :=
  hall i (Targets.mem_toList.mp (by rw [hi]; exact List.mem_singleton_self i))

/-- **Every write goes one of the ways.** -/
theorem writing (order : WriteOrder) (st : σ) :
    Writing h m s key a o order st ((m.setInOrder order s key a o).trace h st)
      ((m.setInOrder order s key a o).run h st).1 ((m.setInOrder order s key a o).run h st).2 := by
  rw [setInOrder]
  -- along the body of the call, check by check
  cases hc : m.check key o with
  | error e => exact .refused hc
  | ok u =>
    dsimp only
    cases hs : m.codec.serialize s a with
    | error f => exact .unserializable hc hs
    | ok p =>
      dsimp only
      cases ht : m.targets o .set with
      | error e => exact .untargeted hc hs ht
      | ok t =>
        dsimp only
        rw [ttls_eq]
        -- the checks are passed, and one tier is targeted or both are
        obtain ⟨-, hne, hall⟩ := of_targets ht
        rcases toList_of_not_isEmpty hne with ⟨i, hi⟩ | rfl
        · obtain ⟨hrun, htrace⟩ :=
            writeTargets_single h m key o hi (hasTier_of_toList m hi hall) order p st
          rw [hrun, htrace]
          exact .single hc hs ht hi
        · cases order with
          | l1First =>
            obtain ⟨hrun, htrace⟩ :=
              writeTargets_l1First h m key o (hall .l1 rfl) (hall .l2 rfl) p st rfl rfl
            rw [hrun, htrace]
            exact .l1First hc hs ht rfl rfl rfl rfl
          | l2First =>
            obtain ⟨hrun, htrace⟩ :=
              writeTargets_l2First h m key o (hall .l1 rfl) (hall .l2 rfl) p st rfl rfl
            rw [hrun, htrace]
            exact .l2First hc hs ht rfl rfl rfl rfl

end Runs

/-- A write reads nothing. -/
theorem Writing.reads_nothing {h : Handler Tier σ} {m : Manager} {s : Shape α} {key : String}
    {a : α} {o : Options} {order : WriteOrder} {st st' : σ} {T : List (Exchange Tier)}
    {r : Result Unit} (hw : Writing h m s key a o order st T r st') {i : Tier} {k : String}
    {reply : Except Failure (Option Bytes)} : .read i k reply ∉ T := by
  cases hw <;> simp

/-! ### The order of the two writes -/

section Order

variable {ρ : Tier → Type} {view : (i : Tier) → σ → ρ i} {h : Handler Tier σ} {m : Manager}
  {key : String} {o : Options}

/-- To report a write changes no store, -/
theorem view_afterWrite (hap : h.Apart view) (i j : Tier) (p : Bytes)
    (x : Except Failure Unit × σ) : view j (afterWrite h m key o i p x) = view j x.2 := by
  unfold afterWrite
  split
  · exact hap.note ..
  · rfl

/-- nor does the report of a write that failed alone. -/
theorem view_afterBoth (hap : h.Apart view) (i : Tier) (r1 r2 : Except Failure Unit) (st : σ) :
    view i (afterBoth h key r1 r2 st) = view i st := by
  unfold afterBoth
  split
  · exact hap.note ..
  · exact hap.note ..
  · rfl

variable (m key o)

/-- A write to one tier cannot tell whether another came before it. -/
theorem asked_after (hap : h.Apart view) {i j : Tier} (hij : j ≠ i) (p q : Bytes) (st : σ) :
    (asked h m key o j q (afterWrite h m key o i p (asked h m key o i p st))).1 =
        (asked h m key o j q st).1 ∧
      view j (asked h m key o j q (afterWrite h m key o i p (asked h m key o i p st))).2 =
        view j (asked h m key o j q st).2 := by
  -- the other tier is as it was before the first write
  have hview : view j (afterWrite h m key o i p (asked h m key o i p st)) = view j st := by
    rw [view_afterWrite hap]
    exact hap.other _ _ _ _ hij
  exact ⟨hap.reply _ _ _ _ hview, hap.self _ _ _ _ hview⟩

/-- **The order of two writes.** Over stores that are apart, two writes that run together have the
same result and leave the same stores, whichever is carried out first. -/
theorem run_setInOrder_comm (hap : h.Apart view) (s : Shape α) (a : α) (st : σ) :
    ((m.setInOrder .l2First s key a o).run h st).1 =
        ((m.setInOrder .l1First s key a o).run h st).1 ∧
      ∀ i, view i ((m.setInOrder .l2First s key a o).run h st).2 =
        view i ((m.setInOrder .l1First s key a o).run h st).2 := by
  simp only [setInOrder]
  cases m.check key o with
  | error e => exact ⟨rfl, fun _ => rfl⟩
  | ok u =>
    dsimp only
    cases m.codec.serialize s a with
    | error f => exact ⟨rfl, fun _ => rfl⟩
    | ok p =>
      dsimp only
      cases ht : m.targets o .set with
      | error e => exact ⟨rfl, fun _ => rfl⟩
      | ok t =>
        dsimp only
        rw [ttls_eq]
        obtain ⟨-, hne, hall⟩ := of_targets ht
        rcases toList_of_not_isEmpty hne with ⟨i, hi⟩ | rfl
        · -- one write has no order
          have hone := writeTargets_single h m key o hi (hasTier_of_toList m hi hall)
          rw [(hone .l1First p st).1, (hone .l2First p st).1]
          exact ⟨rfl, fun _ => rfl⟩
        · have h1 := hall .l1 rfl
          have h2 := hall .l2 rfl
          rw [(writeTargets_l1First h m key o h1 h2 p st rfl rfl).1,
            (writeTargets_l2First h m key o h1 h2 p st rfl rfl).1]
          obtain ⟨hr1, hv1⟩ :=
            asked_after m key o hap (i := .l2) (j := .l1) (by decide) p p st
          obtain ⟨hr2, hv2⟩ :=
            asked_after m key o hap (i := .l1) (j := .l2) (by decide) p p st
          dsimp only
          refine ⟨by rw [hr1, hr2], fun i => ?_⟩
          rw [view_afterBoth hap, view_afterBoth hap, view_afterWrite hap, view_afterWrite hap]
          -- each tier was the first to be written in one of the orders
          cases i with
          | l1 =>
            rw [hv1, hap.other .l2 .l1 _ _ (by decide), view_afterWrite hap]
          | l2 =>
            rw [hv2, hap.other .l1 .l2 _ _ (by decide), view_afterWrite hap]

end Order

/-! ### The footprint -/

/-- **The footprint of a write**: what its trace and its result have to do with each other. -/
structure WriteFootprint (m : Manager) (s : Shape α) (key : String) (a : α) (o : Options)
    (T : List (Exchange Tier)) (r : Result Unit) : Prop where
  /-- A call that is refused ends before any store is asked: an empty key first, … -/
  emptyKey : key = "" → T = [] ∧ r = .error .emptyKey
  /-- … then a flag where there is one tier, … -/
  oversteps : key ≠ "" → m.Oversteps o → T = [] ∧ r = .error .overrideNotAllowed
  /-- … then a value without an encoding, … -/
  unserializable : key ≠ "" → ¬m.Oversteps o → ∀ f, m.codec.serialize s a = .error f →
    T = [] ∧ r = .error (.serialization m.codec.name f)
  /-- … then a choice of no tier. -/
  noTarget : key ≠ "" → ¬m.Oversteps o → ∀ p, m.codec.serialize s a = .ok p →
    (m.chosen o).isEmpty = true → T = [] ∧ r = .error (.noTarget .set)
  /-- Else every targeted tier, and no other, is asked once to keep the encoded value for its own
  time to live, and nothing else is asked. The write succeeds exactly if that of one tier does; the
  failure of a single tier is that tier's, and two failures are reported each in its place. -/
  written : m.Proper key o → ∀ p, m.codec.serialize s a = .ok p →
    ∃ reply : Tier → Except Failure Unit,
      T.Perm ((m.chosen o).toList.map fun i => .write i key p (m.ttl o i) (reply i)) ∧
      (r = .ok () ↔ ∃ i, (m.chosen o).contains i = true ∧ reply i = .ok ()) ∧
      (∀ i f, (m.chosen o).toList = [i] → reply i = .error f → r = .error (.tier i .set f)) ∧
      (∀ f1 f2, (m.chosen o).toList = [.l1, .l2] → reply .l1 = .error f1 →
        reply .l2 = .error f2 →
        r = .error (.bothTiersFailed (.tier .l1 .set f1) (.tier .l2 .set f2)))
  /-- The time to live for a tier is that of the call, if positive, … -/
  ttl_call : ∀ i d, o.ttl? i = some d → 0 < d.toNanos → m.ttl o i = d
  /-- … and else the default of that tier. -/
  ttl_default : ∀ i, (∀ d, o.ttl? i = some d → d.toNanos = 0) → m.ttl o i = m.fallbackTtl i

section Footprint

variable {m : Manager} {s : Shape α} {key : String} {a : α} {o : Options}

/-- Two writes succeed unless both fail. -/
theorem bothResult_eq_ok_iff {r1 r2 : Except Failure Unit} :
    bothResult r1 r2 = .ok () ↔ r1 = .ok () ∨ r2 = .ok () := by
  rcases r1 with f1 | u1 <;> rcases r2 with f2 | u2 <;> simp [bothResult]

theorem contains_of_toList {t : Targets} {ts : List Tier} (h : t.toList = ts) (i : Tier) :
    t.contains i = true ↔ i ∈ ts := by
  rw [← h, Targets.mem_toList]

/-- Every write is of the encoded value to a tier that is targeted, for its time to live there. -/
theorem Writing.write {h : Handler Tier σ} {order : WriteOrder} {st st' : σ}
    {T : List (Exchange Tier)} {r : Result Unit} (hw : Writing h m s key a o order st T r st')
    {i : Tier} {k : String} {p : Bytes} {ttl : Duration} {reply : Except Failure Unit}
    (hx : .write i k p ttl reply ∈ T) :
    k = key ∧ m.codec.serialize s a = .ok p ∧ (m.chosen o).contains i = true ∧ ttl = m.ttl o i := by
  cases hw with
  | refused | unserializable | untargeted => cases hx
  | @single p' t j _ hs ht hj =>
    obtain ⟨rfl, rfl, rfl, rfl, -⟩ : i = j ∧ k = key ∧ p = p' ∧ ttl = m.ttl o j ∧ reply = _ := by
      simpa using hx
    obtain ⟨rfl, -, -⟩ := of_targets ht
    exact ⟨rfl, hs, (contains_of_toList hj i).mpr (List.mem_singleton_self i), rfl⟩
  | @l1First p' t _ _ _ hs ht hj | @l2First p' t _ _ _ hs ht hj =>
    -- both tiers are targeted, so it does not matter which of them this is
    obtain ⟨rfl, rfl, rfl⟩ : k = key ∧ p = p' ∧ ttl = m.ttl o i := by
      simp only [List.mem_cons, Exchange.write.injEq, List.not_mem_nil, or_false] at hx
      rcases hx with ⟨rfl, rfl, rfl, rfl, -⟩ | ⟨rfl, rfl, rfl, rfl, -⟩ <;> exact ⟨rfl, rfl, rfl⟩
    obtain ⟨rfl, -, -⟩ := of_targets ht
    exact ⟨rfl, hs, (contains_of_toList hj i).mpr (by cases i <;> simp), rfl⟩

/-- Two writes meet the footprint, in whichever order they are traced. -/
theorem written_both {p : Bytes} {T : List (Exchange Tier)} {r1 r2 : Except Failure Unit}
    (hi : (m.chosen o).toList = [.l1, .l2])
    (hT : T.Perm [.write .l1 key p (m.ttl o .l1) r1, .write .l2 key p (m.ttl o .l2) r2]) :
    ∃ reply : Tier → Except Failure Unit,
      T.Perm ((m.chosen o).toList.map fun i => .write i key p (m.ttl o i) (reply i)) ∧
      (bothResult r1 r2 = .ok () ↔ ∃ i, (m.chosen o).contains i = true ∧ reply i = .ok ()) ∧
      (∀ i f, (m.chosen o).toList = [i] → reply i = .error f →
        bothResult r1 r2 = .error (.tier i .set f)) ∧
      (∀ f1 f2, (m.chosen o).toList = [.l1, .l2] → reply .l1 = .error f1 →
        reply .l2 = .error f2 →
        bothResult r1 r2 = .error (.bothTiersFailed (.tier .l1 .set f1) (.tier .l2 .set f2))) := by
  refine ⟨fun | .l1 => r1 | .l2 => r2, by rw [hi]; exact hT, ?_, ?_, ?_⟩
  · -- two writes fail only together
    rw [bothResult_eq_ok_iff]
    constructor
    · rintro (h1 | h2)
      · exact ⟨.l1, (contains_of_toList hi .l1).mpr (by simp), h1⟩
      · exact ⟨.l2, (contains_of_toList hi .l2).mpr (by simp), h2⟩
    · rintro ⟨i, -, hr⟩
      cases i
      · exact .inl hr
      · exact .inr hr
  · -- there is no single target
    intro i f hone
    rw [hi] at hone
    cases hone
  · intro f1 f2 _ h1 h2
    dsimp only at h1 h2
    rw [h1, h2]
    rfl

/-- **Every way of writing meets the footprint.** Each field is about one way, and the checks
exclude all others. -/
theorem Writing.footprint (hm : m.Created) {h : Handler Tier σ} {order : WriteOrder} {st st' : σ}
    {T : List (Exchange Tier)} {r : Result Unit} (hw : Writing h m s key a o order st T r st') :
    m.WriteFootprint s key a o T r where
  emptyKey hk := by
    subst hk
    cases hw with
    | refused hc =>
      rw [check_empty] at hc
      cases hc
      exact ⟨rfl, rfl⟩
    | unserializable hc | untargeted hc | single hc | l1First hc | l2First hc =>
      exact absurd rfl (check_eq_ok_iff.mp hc).1
  oversteps hk ho := by
    cases hw with
    | refused hc =>
      rw [check_oversteps hk ho] at hc
      cases hc
      exact ⟨rfl, rfl⟩
    | unserializable hc | untargeted hc | single hc | l1First hc | l2First hc =>
      exact absurd ho (check_eq_ok_iff.mp hc).2
  unserializable hk ho f hf := by
    cases hw with
    | refused hc =>
      rw [check_eq_ok_iff.mpr ⟨hk, ho⟩] at hc
      cases hc
    | unserializable _ hs =>
      rw [hf] at hs
      cases hs
      exact ⟨rfl, rfl⟩
    | untargeted _ hs | single _ hs | l1First _ hs | l2First _ hs =>
      rw [hf] at hs
      cases hs
  noTarget hk ho p hp he := by
    have htargets := hm.targets_eq ho .set
    rw [if_pos he] at htargets
    cases hw with
    | refused hc =>
      rw [check_eq_ok_iff.mpr ⟨hk, ho⟩] at hc
      cases hc
    | unserializable _ hs =>
      rw [hp] at hs
      cases hs
    | untargeted _ _ ht =>
      rw [htargets] at ht
      cases ht
      exact ⟨rfl, rfl⟩
    | single _ _ ht | l1First _ _ ht | l2First _ _ ht =>
      rw [htargets] at ht
      cases ht
  written hp p hser := by
    -- no check stands in the way of a proper call
    have htargets := hm.targets_eq hp.allowed .set
    rw [hp.chooses, if_neg Bool.false_ne_true] at htargets
    cases hw with
    | refused hc =>
      rw [check_eq_ok_iff.mpr ⟨hp.key_ne, hp.allowed⟩] at hc
      cases hc
    | unserializable _ hs =>
      rw [hser] at hs
      cases hs
    | untargeted _ _ ht =>
      rw [htargets] at ht
      cases ht
    | @single p' t i _ hs ht hi =>
      -- one target: its reply is that of every tier in question
      obtain rfl : p = p' := by simpa [hser] using hs
      obtain ⟨rfl, -, -⟩ := of_targets ht
      generalize (asked h m key o i p st).1 = reply
      refine ⟨fun _ => reply, by rw [hi]; exact .refl _, ?_, ?_, ?_⟩
      · rw [mapError_eq_ok_iff]
        constructor
        · intro hr
          exact ⟨i, (contains_of_toList hi i).mpr (List.mem_singleton_self i), hr⟩
        · rintro ⟨j, -, hr⟩
          exact hr
      · intro j f hone hr
        obtain rfl : i = j := by simpa [hi] using hone
        dsimp only at hr
        rw [hr]
        rfl
      · intro f1 f2 htwo
        rw [hi] at htwo
        cases htwo
    | @l1First p' t x1 x2 _ hs ht hi =>
      obtain rfl : p = p' := by simpa [hser] using hs
      obtain ⟨rfl, -, -⟩ := of_targets ht
      -- two targets, traced in the order of the tiers
      exact written_both hi (.refl _)
    | @l2First p' t x1 x2 _ hs ht hi =>
      obtain rfl : p = p' := by simpa [hser] using hs
      obtain ⟨rfl, -, -⟩ := of_targets ht
      -- or the other way round
      exact written_both hi (.swap ..)
  ttl_call i d hd hpos := by
    rw [ttl, hd]
    exact Duration.positiveOr_of_pos hpos
  ttl_default i hzero := Duration.positiveOr_of_zero hzero

/-- **The footprint of a write.** Whatever the stores answer, a write of a created manager asks what
`WriteFootprint` says, and no more; and over stores that are apart it has the same result, and
leaves the same stores, whichever of its writes is carried out first. -/
theorem set_footprint (hm : m.Created) (s : Shape α) (key : String) (a : α) (o : Options)
    (h : Handler Tier σ) (st : σ) :
    m.WriteFootprint s key a o ((m.set s key a o).trace h st) ((m.set s key a o).run h st).1 ∧
      ∀ {ρ : Tier → Type} (view : (i : Tier) → σ → ρ i), h.Apart view → ∀ order,
        ((m.setInOrder order s key a o).run h st).1 = ((m.set s key a o).run h st).1 ∧
          ∀ i, view i ((m.setInOrder order s key a o).run h st).2 =
            view i ((m.set s key a o).run h st).2 := by
  refine ⟨(writing h m s key a o m.writeOrder st).footprint hm, ?_⟩
  intro ρ view hap order
  -- the manager's own order is one of the two
  have hcomm := run_setInOrder_comm m key o hap s a st
  unfold set
  cases order <;> cases m.writeOrder
  · exact ⟨rfl, fun _ => rfl⟩
  · exact ⟨hcomm.1.symm, fun i => (hcomm.2 i).symm⟩
  · exact hcomm
  · exact ⟨rfl, fun _ => rfl⟩

end Footprint

/-- The two tiers of the sample have different stores. -/
theorem sample_distinct (mode : Mode) : (sample mode).Distinct := by
  intro r1 r2 h1 h2
  cases h1
  cases h2
  decide

/-- Two recording stores, of which the one in the process refuses writes. -/
def halfRigged : Deployment where
  clock := ⟨⟨0⟩, 0⟩
  stores := TextMap.ofList
    [("far", .recording { name := "Far" }),
      ("near", .recording { name := "Near", setFault := some { text := "full" } })]

/-- One of two writes fails: the call succeeds, and either order leaves the same stores. -/
theorem set_footprint_halfRigged :
    (sample .bothLevels).Created ∧ (sample .bothLevels).Distinct ∧
      ((sample .bothLevels).set .bool "k" true {}).trace
          (Deployment.handler (sample .bothLevels)) halfRigged =
        [.write .l1 "k" [1] defaultTtl (.error { text := "full" }),
          .write .l2 "k" [1] defaultTtl (.ok ())] ∧
      (halfRigged.run (sample .bothLevels) ((sample .bothLevels).set .bool "k" true {})).1 =
        .ok () ∧
      (sample .bothLevels).WriteFootprint .bool "k" true {}
        [.write .l1 "k" [1] defaultTtl (.error { text := "full" }),
          .write .l2 "k" [1] defaultTtl (.ok ())] (.ok ()) ∧
      ∀ i, Deployment.behind (sample .bothLevels) i (halfRigged.run (sample .bothLevels)
          ((sample .bothLevels).setInOrder .l2First .bool "k" true {})).2 =
        Deployment.behind (sample .bothLevels) i (halfRigged.run (sample .bothLevels)
          ((sample .bothLevels).set .bool "k" true {})).2 := by
  obtain ⟨hfoot, hcomm⟩ := set_footprint (sample_created .bothLevels) .bool "k" true {}
    (Deployment.handler (sample .bothLevels)) halfRigged
  refine ⟨sample_created _, sample_distinct _, rfl, rfl, hfoot, fun i => ?_⟩
  exact congrArg Prod.snd ((hcomm _ (Deployment.handler_apart (sample_distinct _)) .l2First).2 i)

end Manager

end TwoTier
