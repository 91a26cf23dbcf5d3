import TwoTier.Manager.Calls

/-!
# Created managers

A manager is **created** (`Manager.Created`) if `Manager.create` made it, whatever it was given.
`create_eq_ok_iff` says what that takes, and the rest of the file is what calls may rely on:

* a created manager has both tiers, or the one that its mode uses alone (`Created.presence`);
* none of its times to live is zero (`Created.warmupTtl_pos`, `Created.defaults_pos`);
* a call that passes its checks targets tiers that there are (`Created.hasTier`), so that only an
  empty choice of tiers is left to refuse it (`Created.targets_eq`).
-/

namespace TwoTier

/-! ### Positive times to live -/

/-- A time span that replaces zero by a positive one is never zero. -/
theorem Duration.positiveOr_pos {ttl : Option Duration} {fallback : Duration}
    (h : 0 < fallback.toNanos) : 0 < (Duration.positiveOr ttl fallback).toNanos := by
  unfold Duration.positiveOr
  cases ttl with
  | none => exact h
  | some d =>
    cases hd : d.isZero with
    | true => simpa [hd] using h
    | false =>
      have hne : d.toNanos ≠ 0 := fun h0 => by simp [Duration.isZero_iff.mpr h0] at hd
      simpa [hd] using Nat.pos_of_ne_zero hne

/-- A positive time span is kept. -/
theorem Duration.positiveOr_of_pos {d fallback : Duration} (h : 0 < d.toNanos) :
    Duration.positiveOr (some d) fallback = d := by
  have hd : d.isZero = false := by
    cases hz : d.isZero with
    | true => exact absurd (Duration.isZero_iff.mp hz) (by omega)
    | false => rfl
  simp [Duration.positiveOr, hd]

/-- A time span that is zero, or missing, is replaced. -/
theorem Duration.positiveOr_of_zero {ttl : Option Duration} {fallback : Duration}
    (h : ∀ d, ttl = some d → d.toNanos = 0) : Duration.positiveOr ttl fallback = fallback := by
  cases ttl with
  | none => rfl
  | some d => simp [Duration.positiveOr, Duration.isZero_iff.mpr (h d rfl)]

namespace Manager

/-- A manager that `Manager.create` made. -/
def Created (m : Manager) : Prop :=
  ∃ l1 l2 codec config, (create l1 l2 codec config).1 = .ok m

/-- Creation succeeds with a codec, and tiers that go together with the mode. -/
theorem create_eq_ok_iff {l1 l2 : Option StoreRef} {codec : Option Codec} {config : Config}
    {m : Manager} :
    (create l1 l2 codec config).1 = .ok m ↔
      ∃ c, codec = some c ∧ checkTiers config.mode l1.isSome l2.isSome = .ok () ∧
        m = ⟨l1, l2, c, config.mode, config.normalized.warmupTtl, config.normalized.l1Ttl,
          config.normalized.l2Ttl⟩ := by
  cases codec with
  | none => simp [create]
  | some c =>
    -- normalizing replaces times to live only
    have hmode : config.normalized.mode = config.mode := rfl
    cases hc : checkTiers config.mode l1.isSome l2.isSome with
    | error e => simp [create, hmode, hc]
    | ok u =>
      simp only [create, hmode, hc, Except.ok.injEq, Option.some.injEq, exists_eq_left', true_and]
      exact eq_comm

/-- **The tiers that go together with a mode**: both with any mode, one with the mode that uses it
alone. -/
theorem checkTiers_eq_ok_iff {mode : Mode} {l1 l2 : Bool} :
    checkTiers mode l1 l2 = .ok () ↔
      (l1 = true ∧ l2 = true) ∨ (l1 = true ∧ l2 = false ∧ mode = .l1Only) ∨
        (l1 = false ∧ l2 = true ∧ mode = .l2Only) := by
  cases l1 <;> cases l2 <;> cases mode <;> simp [checkTiers]

variable {m : Manager}

/-- **Presence.** A created manager has both tiers, or the one that its mode uses alone. -/
theorem Created.presence (hm : m.Created) :
    (m.l1.isSome = true ∧ m.l2.isSome = true) ∨
      (m.l1.isSome = true ∧ m.l2.isSome = false ∧ m.mode = .l1Only) ∨
        (m.l1.isSome = false ∧ m.l2.isSome = true ∧ m.mode = .l2Only) := by
  obtain ⟨l1, l2, codec, config, h⟩ := hm
  obtain ⟨c, -, hc, rfl⟩ := create_eq_ok_iff.mp h
  exact checkTiers_eq_ok_iff.mp hc

/-- Copies never have a time to live of zero. -/
theorem Created.warmupTtl_pos (hm : m.Created) : 0 < m.warmupTtl.toNanos := by
  obtain ⟨l1, l2, codec, config, h⟩ := hm
  obtain ⟨c, -, -, rfl⟩ := create_eq_ok_iff.mp h
  -- it went through normalizing, which leaves no zero
  exact Duration.positiveOr_pos (by decide)

/-- Nor do writes to either tier. -/
theorem Created.defaults_pos (hm : m.Created) : 0 < m.l1Ttl.toNanos ∧ 0 < m.l2Ttl.toNanos := by
  obtain ⟨l1, l2, codec, config, h⟩ := hm
  obtain ⟨c, -, -, rfl⟩ := create_eq_ok_iff.mp h
  exact ⟨Duration.positiveOr_pos (by decide), Duration.positiveOr_pos (by decide)⟩

/-! ### What a call targets -/

/-- The tiers that mode and flags choose for a call. -/
def chosen (m : Manager) (o : Options) : Targets := m.mode.resolve o.targetL1 o.targetL2

/-- A call without flags leaves the choice to the mode. -/
theorem chosen_eq_targets {o : Options} (ho : o.hasOverride = false) :
    m.chosen o = m.mode.targets := by
  obtain ⟨h1, h2⟩ : o.targetL1 = none ∧ o.targetL2 = none := by
    simpa [Options.hasOverride] using ho
  rw [chosen, h1, h2, Mode.resolve_none_none]

/-- Whether a call has a flag for a tier although there is only one. -/
def Oversteps (m : Manager) (o : Options) : Prop :=
  o.hasOverride = true ∧ ¬(m.l1.isSome = true ∧ m.l2.isSome = true)

/-- A call that is carried out: its key is not empty, its flags are allowed, and it chooses a
tier. -/
structure Proper (m : Manager) (key : String) (o : Options) : Prop where
  key_ne : key ≠ ""
  allowed : ¬m.Oversteps o
  chooses : (m.chosen o).isEmpty = false

/-- A call passes the checks of its key and its flags exactly if neither is at fault. -/
theorem check_eq_ok_iff {key : String} {o : Options} :
    m.check key o = .ok () ↔ key ≠ "" ∧ ¬m.Oversteps o := by
  unfold check Oversteps overridesAllowed
  -- the key is checked first, then whether flags are allowed
  by_cases hk : key = ""
  · simp [hk]
  · cases hov : o.hasOverride <;> cases hl1 : m.l1.isSome <;> cases hl2 : m.l2.isSome <;>
      simp [hk]

theorem check_empty {o : Options} : m.check "" o = .error .emptyKey := by
  simp [check]

/-- A flag where there is only one tier is refused, once the key is not empty. -/
theorem check_oversteps {key : String} {o : Options} (hk : key ≠ "") (h : m.Oversteps o) :
    m.check key o = .error .overrideNotAllowed := by
  obtain ⟨hov, hboth⟩ := h
  have hk' : key.isEmpty = false := by simpa using hk
  have hall : m.overridesAllowed = false := by simpa [overridesAllowed] using hboth
  simp [check, hk', hov, hall]

/-- The targets of a call are the tiers it chose, at least one, and all of them there. -/
theorem of_targets {o : Options} {op : Operation} {t : Targets} (h : m.targets o op = .ok t) :
    t = m.chosen o ∧ t.isEmpty = false ∧ ∀ i, t.contains i = true → m.hasTier i = true := by
  simp only [targets] at h
  -- an empty choice, a tier that is missing, or the choice itself
  split at h
  · cases h
  · next he =>
    split at h
    · cases h
    · next hmiss =>
      cases h
      refine ⟨rfl, by simpa using he, fun i hi => ?_⟩
      have hall := List.find?_eq_none.mp hmiss i (Targets.mem_toList.mpr hi)
      simpa using hall

/-- A created manager has every tier that a call can choose. -/
theorem Created.hasTier (hm : m.Created) {o : Options} (ho : ¬m.Oversteps o) {t : Tier}
    (ht : (m.chosen o).contains t = true) : m.hasTier t = true := by
  rcases hm.presence with ⟨h1, h2⟩ | ⟨h1, h2, hmode⟩ | ⟨h1, h2, hmode⟩
  · cases t
    · exact h1
    · exact h2
  all_goals
    -- with one tier there is no flag, and the mode chooses that tier alone
    have hflags : o.hasOverride = false := by simpa [Oversteps, h1, h2] using ho
    rw [chosen_eq_targets hflags, hmode] at ht
    cases t
    · first | exact h1 | exact absurd ht (by decide)
    · first | exact h2 | exact absurd ht (by decide)

theorem missing?_eq_none {ts : List Tier} (h : ∀ t ∈ ts, m.hasTier t = true) :
    m.missing? ts = none := by
  simpa [missing?] using h

/-- The only call past its checks that a created manager refuses chooses no tier. -/
theorem Created.targets_eq (hm : m.Created) {o : Options} (ho : ¬m.Oversteps o) (op : Operation) :
    m.targets o op =
      if (m.chosen o).isEmpty then .error (.noTarget op) else .ok (m.chosen o) := by
  -- the choice is of tiers that there are, so none of it is missing
  have hmiss : m.missing? (m.chosen o).toList = none :=
    missing?_eq_none fun t ht => hm.hasTier ho (Targets.mem_toList.mp ht)
  rw [chosen] at hmiss
  simp only [targets, chosen, hmiss]
  rfl

/-- **Plans of a created manager**, in the order of the checks. -/
theorem Created.plan_eq (hm : m.Created) {key : String} {o : Options} {op : Operation}
    (hk : key ≠ "") (ho : ¬m.Oversteps o) :
    m.plan key o op =
      if (m.chosen o).isEmpty then .error (.noTarget op) else .ok (m.chosen o) := by
  rw [plan, check_eq_ok_iff.mpr ⟨hk, ho⟩]
  exact hm.targets_eq ho op

/-- The plan of a call with an empty key is refused, -/
theorem plan_empty {o : Options} {op : Operation} : m.plan "" o op = .error .emptyKey := by
  rw [plan, check_empty]

/-- and then that of a call with a flag where there is only one tier. -/
theorem plan_oversteps {key : String} {o : Options} {op : Operation} (hk : key ≠ "")
    (h : m.Oversteps o) : m.plan key o op = .error .overrideNotAllowed := by
  rw [plan, check_oversteps hk h]

/-- A call that is carried out passed its checks, and targets the tiers it chose. -/
theorem Created.of_plan (hm : m.Created) {key : String} {o : Options} {op : Operation}
    {t : Targets} (h : m.plan key o op = .ok t) :
    key ≠ "" ∧ ¬m.Oversteps o ∧ t = m.chosen o ∧ t.isEmpty = false := by
  -- every check that fails contradicts the plan
  by_cases hk : key = ""
  · rw [hk, plan_empty] at h
    cases h
  · by_cases ho : m.Oversteps o
    · rw [plan_oversteps hk ho] at h
      cases h
    · rw [hm.plan_eq hk ho] at h
      cases he : (m.chosen o).isEmpty with
      | true => simp [he] at h
      | false =>
        simp only [he, Bool.false_eq_true, if_false, Except.ok.injEq] at h
        exact ⟨hk, ho, h.symm, h ▸ he⟩

/-- A plan is a choice of targets, once the checks are passed. -/
theorem targets_of_plan {key : String} {o : Options} {op : Operation} {t : Targets}
    (h : m.plan key o op = .ok t) : m.targets o op = .ok t := by
  unfold plan at h
  split at h
  · cases h
  · exact h

theorem hasTier_of_plan {key : String} {o : Options} {op : Operation} {t : Targets}
    (h : m.plan key o op = .ok t) {i : Tier} (hi : t.contains i = true) : m.hasTier i = true :=
  (of_targets (targets_of_plan h)).2.2 i hi

/-- Only a call that targets `l1` copies to it. -/
theorem l1_of_warms {o : Options} {t : Targets}
    (hw : (m.mode.warms t o.targetL1 && m.hasTier .l1) = true) : t.l1 = true := by
  simp only [Mode.warms, Bool.and_eq_true] at hw
  exact hw.1.1.1

/-! ### A sample -/

/-- Two tiers over the fixed-width encoding, in a given mode with the default times to live. -/
def sample (mode : Mode) : Manager where
  l1 := some ⟨"near", "Near", false⟩
  l2 := some ⟨"far", "Far", false⟩
  codec := Codec.fixedWidth
  mode := mode
  warmupTtl := defaultTtl
  l1Ttl := defaultTtl
  l2Ttl := defaultTtl

theorem sample_created (mode : Mode) : (sample mode).Created := by
  refine ⟨(sample mode).l1, (sample mode).l2, some Codec.fixedWidth, .ofMode mode, ?_⟩
  -- both tiers are there, which goes together with any mode
  exact create_eq_ok_iff.mpr ⟨_, rfl, checkTiers_eq_ok_iff.mpr (.inl ⟨rfl, rfl⟩), rfl⟩

end Manager

end TwoTier
