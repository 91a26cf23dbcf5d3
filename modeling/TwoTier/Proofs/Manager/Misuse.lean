import TwoTier.Builder
import TwoTier.Proofs.Manager.Reading
import TwoTier.Proofs.Manager.Removing
import TwoTier.Proofs.Runs

/-!
# Misused calls

Creation and calls decide on their own what goes together: `Manager.create` looks at the tiers that
there are and at the mode, and a call at the mode and its own flags. This file shows that the two
agree, so that a manager that was created has nothing but the caller's own mistakes to refuse.

* `Manager.CreationRules` says what comes of creating a manager, by its parts; a builder ends in a
  creation, whatever its steps were (`build_fst`);
* `Request.Misused` lists the caller's mistakes, by the tiers that there are, the mode and the
  flags: a misused call ends with the mistake (`error?_of_misused`);
* `Request.Fails` lists all errors that a call can end with (`fails`). Neither list has a tier that
  is not configured, and so `Manager.AnswerRules` holds of every call of every run.

`creation_settles_tiers` puts the two halves together.
-/

namespace TwoTier

/-- The tier that is not the given one. -/
def Tier.other : Tier → Tier
  | .l1 => .l2
  | .l2 => .l1

namespace Manager

variable {σ κ α : Type}

/-! ### Creation -/

/-- The tier that is reported where there is none. -/
def neededTier : Mode → Tier
  | .bothLevels => .l1
  | .l1Only => .l1
  | .l2Only => .l2

/-- **What comes of creating a manager** from up to two stores, a mode, and a codec if there is
one. -/
structure CreationRules (store : Tier → Option StoreRef) (codec : Option Codec) (mode : Mode)
    (r : Except ConfigError Manager) : Prop where
  /-- It takes a codec, and both tiers or the one that the mode uses alone. -/
  ok : (∃ m, r = .ok m) ↔ codec.isSome = true ∧
    ((∀ i, (store i).isSome = true) ∨
      ∃ i, (store i).isSome = true ∧ store i.other = none ∧ mode = .only i)
  /-- A codec that is missing is reported before anything about tiers. -/
  missingCodec : r = .error .missingCodec ↔ codec = none
  /-- With a codec, the mode is at fault if there is one tier and the mode does not name it, … -/
  modeMismatch : ∀ i mode' expected, r = .error (.modeMismatch i mode' expected) ↔
    codec.isSome = true ∧ (store i).isSome = true ∧ store i.other = none ∧ mode ≠ .only i ∧
      mode' = mode ∧ expected = .only i
  /-- … and a tier is missing if there is none. -/
  missingTier : ∀ mode' i, r = .error (.missingTier mode' i) ↔
    codec.isSome = true ∧ (∀ j, store j = none) ∧ mode' = mode ∧ i = neededTier mode

/-- Two stores, by their tiers. -/
def storeOf (l1 l2 : Option StoreRef) : Tier → Option StoreRef
  | .l1 => l1
  | .l2 => l2

/-- There are two tiers, so that what holds of each is a pair of facts, -/
theorem forall_tier_iff {P : Tier → Prop} : (∀ i, P i) ↔ P .l1 ∧ P .l2 := by
  constructor
  · intro h
    exact ⟨h .l1, h .l2⟩
  · rintro ⟨h1, h2⟩ i
    cases i
    · exact h1
    · exact h2

/-- and what holds of some holds of the one or of the other. -/
theorem exists_tier_iff {P : Tier → Prop} : (∃ i, P i) ↔ P .l1 ∨ P .l2 := by
  constructor
  · rintro ⟨i, h⟩
    cases i
    · exact .inl h
    · exact .inr h
  · rintro (h | h)
    · exact ⟨.l1, h⟩
    · exact ⟨.l2, h⟩

/-- **What is wrong with the tiers**: one that the mode does not name, or none at all. -/
theorem checkTiers_eq_error_iff {mode : Mode} {l1 l2 : Bool} {e : ConfigError} :
    checkTiers mode l1 l2 = .error e ↔
      (l1 = true ∧ l2 = false ∧ mode ≠ .l1Only ∧ e = .modeMismatch .l1 mode .l1Only) ∨
        (l1 = false ∧ l2 = true ∧ mode ≠ .l2Only ∧ e = .modeMismatch .l2 mode .l2Only) ∨
          (l1 = false ∧ l2 = false ∧ e = .missingTier mode (neededTier mode)) := by
  cases l1 <;> cases l2 <;> cases mode <;> simp [checkTiers, neededTier, eq_comm]

/-- Creation fails without a codec, or with what is wrong with the tiers. -/
theorem create_eq_error_iff {l1 l2 : Option StoreRef} {codec : Option Codec} {config : Config}
    {e : ConfigError} :
    (create l1 l2 codec config).1 = .error e ↔
      (codec = none ∧ e = .missingCodec) ∨
        (codec.isSome = true ∧ checkTiers config.mode l1.isSome l2.isSome = .error e) := by
  cases codec with
  | none => simp [create, eq_comm]
  | some c =>
    -- normalizing replaces times to live only
    have hmode : config.normalized.mode = config.mode := rfl
    cases hc : checkTiers config.mode l1.isSome l2.isSome with
    | error e' => simp [create, hmode, hc]
    | ok u => simp [create, hmode, hc]

/-- **Creation follows its rules**, for all parts. -/
theorem creationRules (l1 l2 : Option StoreRef) (codec : Option Codec) (config : Config) :
    CreationRules (storeOf l1 l2) codec config.mode (create l1 l2 codec config).1 where
  ok := by
    -- both sides are decided by what there is of the three parts
    simp only [create_eq_ok_iff, checkTiers_eq_ok_iff, forall_tier_iff, exists_tier_iff]
    cases codec <;> cases l1 <;> cases l2 <;> simp [storeOf, Tier.other, Mode.only]
  missingCodec := by
    rw [create_eq_error_iff, checkTiers_eq_error_iff]
    simp
  -- for each tier, by whether there is a store for it and for the other
  modeMismatch i mode' expected := by
    rw [create_eq_error_iff, checkTiers_eq_error_iff]
    cases i <;> cases l1 <;> cases l2 <;> simp [storeOf, Tier.other, Mode.only]
  missingTier mode' i := by
    rw [create_eq_error_iff, checkTiers_eq_error_iff, forall_tier_iff]
    cases l1 <;> cases l2 <;> simp [storeOf]

theorem build_fst (b : Builder) : b.build.1 = (create b.l1 b.l2 b.codec b.config).1 := rfl

end Manager

/-! ### Misuse -/

/-- The flag of a call for a tier, if it has one. -/
def Options.flag? (o : Options) : Tier → Option Bool
  | .l1 => o.targetL1
  | .l2 => o.targetL2

/-- Mode and flags exclude a tier: the call says so, or it says nothing and the mode uses the other
tier alone. -/
def Manager.Excludes (m : Manager) (o : Options) (i : Tier) : Prop :=
  o.flag? i = some false ∨ o.flag? i = none ∧ m.mode = .only i.other

theorem Manager.isEmpty_chosen_iff {m : Manager} {o : Options} :
    (m.chosen o).isEmpty = true ↔ ∀ i, m.Excludes o i := by
  -- tier by tier, a tier is not chosen exactly if it is excluded
  have hone (i : Tier) : (m.chosen o).contains i = false ↔ m.Excludes o i := by
    cases hmode : m.mode <;> cases i <;> cases h1 : o.targetL1 <;> cases h2 : o.targetL2 <;>
      simp [Excludes, chosen, Options.flag?, Targets.contains, Mode.resolve, Mode.targets,
        Mode.only, Tier.other, hmode, h1, h2]
  rw [forall_tier_iff, ← hone, ← hone]
  simp [Targets.isEmpty, Targets.contains]

namespace Request

/-- What a call asks its tiers for first; a removal goes to all tiers that there are. -/
def operation? : Request → Option Operation
  | .get .. => some .get
  | .set .. => some .set
  | .getOrCompute .. => some .get
  | .delete _ => none

/-- The value of a write has an encoding; other calls begin without one. -/
def Encodable (m : Manager) : Request → Prop
  | .set s _ a _ => ∃ p, m.codec.serialize s a = .ok p
  | _ => True

/-- **The caller's mistakes**, each with the error that it is answered with, in the order of the
checks. -/
inductive Misused (m : Manager) (r : Request) : CacheError → Prop
  | emptyKey (hk : r.key = "") : Misused m r .emptyKey
  | overrideNotAllowed (hk : r.key ≠ "") (ho : m.Oversteps r.options) :
    Misused m r .overrideNotAllowed
  | noTarget {op : Operation} (hk : r.key ≠ "") (ho : ¬m.Oversteps r.options)
      (hop : r.operation? = some op) (hs : r.Encodable m)
      (he : (m.chosen r.options).isEmpty = true) :
    Misused m r (.noTarget op)

/-- **The errors of a call**: the caller's mistakes, and the failures of stores, of the codec and of
the caller's function. -/
inductive Fails (m : Manager) (r : Request) : CacheError → Prop
  | misused {e : CacheError} (he : r.Misused m e) : Fails m r e
  | tier (i : Tier) (op : Operation) (f : Failure) : Fails m r (.tier i op f)
  | bothTiersFailed (f1 f2 : Failure) :
    Fails m r (.bothTiersFailed (.tier .l1 .set f1) (.tier .l2 .set f2))
  | serialization (f : CodecFailure) : Fails m r (.serialization m.codec.name f)
  | deserialization (f : CodecFailure) : Fails m r (.deserialization m.codec.name f)
  | compute (f : Failure) : Fails m r (.compute f)

end Request

namespace Manager

section Calls

variable {m : Manager} {s : Shape α} {key : String} {a : α} {o : Options}
  {T : List (Exchange Tier)} {e : CacheError}

/-- A read that is misused ends with the mistake, and no store is asked. -/
theorem ReadFootprint.of_misused {r : Result (Option α)} (hf : m.ReadFootprint s key o T r)
    (he : (Request.get s key o).Misused m e) : T = [] ∧ r = .error e := by
  cases he with
  | emptyKey hk => exact hf.emptyKey hk
  | overrideNotAllowed hk ho => exact hf.oversteps hk ho
  | noTarget hk ho hop _ he =>
    cases hop
    exact hf.noTarget hk ho he

/-- A read fails because it was misused, or with the failure of a tier or of a payload. -/
theorem ReadFootprint.fails (hf : m.ReadFootprint s key o T (.error e)) :
    (Request.get s key o).Fails m e := by
  -- the checks in their order, and then what the tiers say
  by_cases hk : key = ""
  · cases (hf.emptyKey hk).2
    exact .misused (.emptyKey hk)
  by_cases ho : m.Oversteps o
  · cases (hf.oversteps hk ho).2
    exact .misused (.overrideNotAllowed hk ho)
  cases he : (m.chosen o).isEmpty with
  | true =>
    cases (hf.noTarget hk ho he).2
    exact .misused (.noTarget hk ho rfl trivial he)
  | false =>
    have hp : m.Proper key o := ⟨hk, ho, he⟩
    -- the first reply that is more than a clean miss decides, and there is one
    rcases hf.outcome hp with ⟨i, p, hx⟩ | ⟨i, f, hx⟩ | hall
    · rcases hf.of_hit hx with ⟨v, -, hr⟩ | ⟨f, -, hr⟩
      · cases hr
      · cases hr
        exact .deserialization f
    · cases hf.failed i f hx
      exact .tier i .get f
    · cases (hf.missed hp).mpr hall

/-- A write that is misused ends with the mistake, and no store is asked. -/
theorem WriteFootprint.of_misused {r : Result Unit} (hf : m.WriteFootprint s key a o T r)
    (he : (Request.set s key a o).Misused m e) : T = [] ∧ r = .error e := by
  cases he with
  | emptyKey hk => exact hf.emptyKey hk
  | overrideNotAllowed hk ho => exact hf.oversteps hk ho
  | noTarget hk ho hop hs he =>
    cases hop
    obtain ⟨p, hp⟩ := hs
    exact hf.noTarget hk ho p hp he

/-- A write that is carried out fails with the failure of its one tier, or with those of both. -/
theorem WriteFootprint.fails_of_proper (hf : m.WriteFootprint s key a o T (.error e))
    (hp : m.Proper key o) {p : Bytes} (hs : m.codec.serialize s a = .ok p) :
    (Request.set s key a o).Fails m e := by
  obtain ⟨reply, -, hok, hone, htwo⟩ := hf.written hp p hs
  -- no targeted tier has kept the value
  have hfails (i : Tier) (hi : (m.chosen o).contains i = true) : ∃ f, reply i = .error f := by
    cases hr : reply i with
    | error f => exact ⟨f, rfl⟩
    | ok u => cases hok.mpr ⟨i, hi, hr⟩
  rcases toList_of_not_isEmpty hp.chooses with ⟨i, hi⟩ | hboth
  · obtain ⟨f, hr⟩ := hfails i ((contains_of_toList hi i).mpr (List.mem_singleton_self i))
    cases hone i f hi hr
    exact .tier i .set f
  · obtain ⟨f1, h1⟩ := hfails .l1 (by rw [hboth]; rfl)
    obtain ⟨f2, h2⟩ := hfails .l2 (by rw [hboth]; rfl)
    cases htwo f1 f2 (by rw [hboth]; rfl) h1 h2
    exact .bothTiersFailed f1 f2

/-- A write fails because it was misused, without an encoding, or with what became of its tiers. -/
theorem WriteFootprint.fails (hf : m.WriteFootprint s key a o T (.error e)) :
    (Request.set s key a o).Fails m e := by
  by_cases hk : key = ""
  · cases (hf.emptyKey hk).2
    exact .misused (.emptyKey hk)
  by_cases ho : m.Oversteps o
  · cases (hf.oversteps hk ho).2
    exact .misused (.overrideNotAllowed hk ho)
  -- the value before the choice of tiers
  cases hs : m.codec.serialize s a with
  | error f =>
    cases (hf.unserializable hk ho f hs).2
    exact .serialization f
  | ok p =>
    cases he : (m.chosen o).isEmpty with
    | true =>
      cases (hf.noTarget hk ho p hs he).2
      exact .misused (.noTarget hk ho rfl ⟨p, hs⟩ he)
    | false => exact hf.fails_of_proper ⟨hk, ho, he⟩ hs

/-- A removal fails with the failure of a tier. -/
theorem Removing.of_some {h : Handler Tier σ} {ts : List Tier} {st st' : σ}
    (hw : Removing h key ts st T (some e) st') : ∃ i f, e = .tier i .delete f := by
  generalize hr : some e = r at hw
  -- along the removal: the first failure is reported, and later ones are not
  induction hw with
  | done => cases hr
  | removed _ _ ih => exact ih hr
  | failed =>
    cases hr
    exact ⟨_, _, rfl⟩

end Calls

/-! ### Every answer -/

section Answers

variable {m : Manager} {h : Handler Tier σ} {st : σ} {e : CacheError}

/-- A read ends with an error exactly if its run does. -/
theorem error?_answer_get {s : Shape α} {key : String} {o : Options} :
    (m.answer h (.get s key o) st).1.error? = some e ↔
      ((m.get s key o).run h st).1 = .error e :=
  Result.error?_eq_some_iff

/-- So does a write, -/
theorem error?_answer_set {s : Shape α} {key : String} {a : α} {o : Options} :
    (m.answer h (.set s key a o) st).1.error? = some e ↔
      ((m.set s key a o).run h st).1 = .error e :=
  Result.error?_eq_some_iff

/-- and reading through, -/
theorem error?_answer_getOrCompute {s : Shape α} {key : String} {o : Options}
    {outcome : Except Failure α} :
    (m.answer h (.getOrCompute s key o outcome) st).1.error? = some e ↔
      ((m.getOrCompute s key o outcome).run h st).1 = .error e :=
  Result.error?_eq_some_iff

/-- and a removal. -/
theorem error?_answer_delete {key : String} :
    (m.answer h (.delete key) st).1.error? = some e ↔ ((m.delete key).run h st).1 = .error e :=
  Result.error?_eq_some_iff

/-- Reading through fails with the failure of its read, or of the caller's function. -/
theorem Through.of_error {s : Shape α} {key : String} {o : Options} {outcome : Except Failure α}
    {st' : σ} {T : List (Exchange Tier)}
    (hw : Through m h s key o outcome st T (.error e) st') :
    ((m.get s key o).run h st).1 = .error e ∨ ∃ f, e = .compute f := by
  cases hw with
  | failed hr => exact .inl hr
  | notComputed hr ho => exact .inr ⟨_, rfl⟩

/-- Reading through fails if its read does. -/
theorem Through.error_of_get {s : Shape α} {key : String} {o : Options}
    {outcome : Except Failure α} {st' : σ} {T : List (Exchange Tier)} {r : Result α}
    (hw : Through m h s key o outcome st T r st') (he : ((m.get s key o).run h st).1 = .error e) :
    r = .error e := by
  cases hw with
  | failed hr => exact congrArg Except.error (Except.error.inj (hr.symm.trans he))
  | found hr | notComputed hr | stored hr | notStored hr =>
    rw [hr] at he
    cases he

/-- The mistakes of reading through are those of its read. -/
theorem misused_getOrCompute_iff {s : Shape α} {key : String} {o : Options}
    {outcome : Except Failure α} :
    (Request.getOrCompute s key o outcome).Misused m e ↔ (Request.get s key o).Misused m e := by
  constructor <;> intro he <;> cases he with
  | emptyKey hk => exact .emptyKey hk
  | overrideNotAllowed hk ho => exact .overrideNotAllowed hk ho
  | noTarget hk ho hop _ he => exact .noTarget hk ho hop trivial he

/-- The errors of a read are errors of reading through. -/
theorem fails_getOrCompute {s : Shape α} {key : String} {o : Options}
    (he : (Request.get s key o).Fails m e) (outcome : Except Failure α) :
    (Request.getOrCompute s key o outcome).Fails m e := by
  cases he with
  | misused he => exact .misused (misused_getOrCompute_iff.mpr he)
  | tier i op f => exact .tier i op f
  | bothTiersFailed f1 f2 => exact .bothTiersFailed f1 f2
  | serialization f => exact .serialization f
  | deserialization f => exact .deserialization f
  | compute f => exact .compute f

/-- **A misused call ends with the mistake**, whatever the stores would answer. -/
theorem error?_of_misused (hm : m.Created) {r : Request} (he : r.Misused m e) (h : Handler Tier σ)
    (st : σ) : (m.answer h r st).1.error? = some e := by
  -- call by call, from the footprint of each
  cases r with
  | get s key o =>
    exact error?_answer_get.mpr (((reading h m s key o st).footprint hm).of_misused he).2
  | set s key a o =>
    exact error?_answer_set.mpr
      (((writing h m s key a o m.writeOrder st).footprint hm).of_misused he).2
  | getOrCompute s key o outcome =>
    have hget := misused_getOrCompute_iff.mp he
    have hread := (((reading h m s key o st).footprint hm).of_misused hget).2
    exact error?_answer_getOrCompute.mpr
      ((readThrough m h s key o outcome st).error_of_get hread)
  | delete key =>
    rw [error?_answer_delete]
    cases he with
    | emptyKey hk =>
      obtain rfl : key = "" := hk
      rfl
    | overrideNotAllowed hk ho => exact absurd ho.1 Bool.false_ne_true
    | noTarget hk ho hop => cases hop

/-- **Every error of a call is one of its errors**, whatever the stores answer. -/
theorem fails (hm : m.Created) {r : Request} (he : (m.answer h r st).1.error? = some e) :
    r.Fails m e := by
  cases r with
  | get s key o =>
    have hf := (reading h m s key o st).footprint hm
    rw [error?_answer_get.mp he] at hf
    exact hf.fails
  | set s key a o =>
    have hf := (writing h m s key a o m.writeOrder st).footprint hm
    have hr : ((m.setInOrder m.writeOrder s key a o).run h st).1 = .error e :=
      error?_answer_set.mp he
    rw [hr] at hf
    exact hf.fails
  | getOrCompute s key o outcome =>
    have hw := readThrough m h s key o outcome st
    rw [error?_answer_getOrCompute.mp he] at hw
    -- the read failed, with one of its own errors, or the caller's function did
    rcases hw.of_error with hget | ⟨f, rfl⟩
    · have hf := (reading h m s key o st).footprint hm
      rw [hget] at hf
      exact fails_getOrCompute hf.fails outcome
    · exact .compute f
  | delete key =>
    have hrun := error?_answer_delete.mp he
    by_cases hk : key = ""
    · subst hk
      cases hrun
      exact .misused (.emptyKey rfl)
    · have hw := removing h key m.tiers st
      rw [run_delete h m hk] at hrun
      -- some tier failed, or all removals succeeded
      cases hr : ((removeFrom key m.tiers).run h st).1 with
      | none =>
        rw [hr] at hrun
        cases hrun
      | some e' =>
        rw [hr] at hrun hw
        cases hrun
        obtain ⟨i, f, rfl⟩ := hw.of_some
        exact .tier i .delete f

/-- **A call is refused for a mistake exactly if the caller made it.** -/
theorem error?_eq_misuse_iff (hm : m.Created) {r : Request} (he : e.isMisuse = true) :
    (m.answer h r st).1.error? = some e ↔ r.Misused m e := by
  constructor
  · intro hr
    -- of all errors of a call only its mistakes count as misuses
    cases fails hm hr with
    | misused he => exact he
    | tier | bothTiersFailed | serialization | deserialization | compute => cases he
  · intro he
    exact error?_of_misused hm he h st

end Answers

end Manager

/-! ### Rules for the answers of created managers -/

/-- An error, and the errors that it is made of. -/
def CacheError.parts : CacheError → List CacheError
  | .bothTiersFailed e1 e2 => .bothTiersFailed e1 e2 :: (e1.parts ++ e2.parts)
  | e => [e]

/-- An error is made of itself and of failures of tiers. -/
theorem Request.Fails.of_mem_parts {m : Manager} {r : Request} {e x : CacheError}
    (he : r.Fails m e) (hx : x ∈ e.parts) : x = e ∨ ∃ i op f, x = .tier i op f := by
  cases he with
  | misused he => cases he <;> exact .inl (List.mem_singleton.mp hx)
  | tier | serialization | deserialization | compute => exact .inl (List.mem_singleton.mp hx)
  | bothTiersFailed f1 f2 =>
    simp only [CacheError.parts, List.mem_cons, List.cons_append, List.nil_append,
      List.not_mem_nil, or_false] at hx
    rcases hx with rfl | rfl | rfl
    · exact .inl rfl
    · exact .inr ⟨.l1, .set, f1, rfl⟩
    · exact .inr ⟨.l2, .set, f2, rfl⟩

namespace Manager

/-- **What a call on a created manager is refused for**, by its flags and its mode. -/
structure AnswerRules (m : Manager) (a : Answered) : Prop where
  /-- It never comes to a tier that there is not, not even as a part of another error. -/
  configured : ∀ e, a.error? = some e → ∀ i, .tierNotConfigured i ∉ e.parts
  /-- Flags are refused exactly where there is one tier, … -/
  overrideNotAllowed : a.request.key ≠ "" →
    (a.error? = some .overrideNotAllowed ↔
      a.request.options.hasOverride = true ∧ m.l1.isSome ≠ m.l2.isSome)
  /-- … where a call always has a target, … -/
  noTarget_one : m.l1.isSome ≠ m.l2.isSome →
    ∀ e, a.error? = some e → ∀ op, .noTarget op ∉ e.parts
  /-- … and with both tiers it has none exactly if mode and flags together exclude them; of a value
  to be written this is found out only after it was encoded. -/
  noTarget_both : m.l1.isSome = true → m.l2.isSome = true → ∀ op,
    (a.error? = some (.noTarget op) ↔
      a.request.key ≠ "" ∧ a.request.operation? = some op ∧ a.request.Encodable m ∧
        ∀ i, m.Excludes a.request.options i)

section Rules

variable {m : Manager}

/-- A created manager has a tier, so a call oversteps where there is exactly one. -/
theorem Created.oversteps_iff (hm : m.Created) {o : Options} :
    m.Oversteps o ↔ o.hasOverride = true ∧ m.l1.isSome ≠ m.l2.isSome := by
  unfold Oversteps
  rcases hm.presence with ⟨h1, h2⟩ | ⟨h1, h2, -⟩ | ⟨h1, h2, -⟩ <;> simp [h1, h2]

/-- With one tier, the mode uses it, and there is no flag to exclude it. -/
theorem Created.not_misused_noTarget (hm : m.Created) (hone : m.l1.isSome ≠ m.l2.isSome)
    (r : Request) (op : Operation) : ¬r.Misused m (.noTarget op) := by
  rintro (_ | _ | ⟨-, ho, -, -, he⟩)
  -- flags would have been refused before
  have hflags : r.options.hasOverride = false := by
    cases hov : r.options.hasOverride with
    | false => rfl
    | true => exact absurd (hm.oversteps_iff.mpr ⟨hov, hone⟩) ho
  rw [chosen_eq_targets hflags] at he
  cases hmode : m.mode <;> rw [hmode] at he <;> cases he

variable {h : Handler Tier σ} {r : Request} {st : σ}

/-- The rules hold of every call that is carried out, in any state. -/
theorem Created.answerRules (hm : m.Created) : m.AnswerRules (m.answer h r st).1 where
  configured e he i hx := by
    -- such an error is neither on the list nor a part of one that is
    have hfails := fails hm he
    rcases hfails.of_mem_parts hx with rfl | ⟨j, op, f, hx⟩
    · rcases hfails with ⟨⟨⟩⟩
    · cases hx
  overrideNotAllowed hk := by
    rw [error?_eq_misuse_iff hm rfl, ← hm.oversteps_iff]
    constructor
    · rintro (_ | ⟨-, ho⟩)
      exact ho
    · exact .overrideNotAllowed hk
  noTarget_one hone e he op hx := by
    have hfails := fails hm he
    rcases hfails.of_mem_parts hx with rfl | ⟨j, op', f, hx⟩
    · exact hm.not_misused_noTarget hone r op ((error?_eq_misuse_iff hm rfl).mp he)
    · cases hx
  noTarget_both h1 h2 op := by
    rw [error?_eq_misuse_iff hm rfl, ← isEmpty_chosen_iff]
    constructor
    · rintro (_ | _ | ⟨hk, -, hop, hs, he⟩)
      exact ⟨hk, hop, hs, he⟩
    · rintro ⟨hk, hop, hs, he⟩
      exact .noTarget hk (fun ho => ho.2 ⟨h1, h2⟩) hop hs he

/-- A tier that is targeted has an outcome of its write. -/
theorem run_writeIf_eq_none_iff {targeted : Bool} {i : Tier} {key : String} {p : Bytes}
    {ttl : Duration} :
    ((m.writeIf targeted i key p ttl).run h st).1 = none ↔ targeted = false := by
  cases targeted with
  | false => exact ⟨fun _ => rfl, fun _ => rfl⟩
  | true => simp [writeIf, Script.run_map]

/-- **Creation settles the tiers.** A manager comes of the right parts and of no others, whether it
is created or built in steps; and whatever its calls are, and whatever the stores answer and do in
between, a created manager refuses a call for its flags or for want of a target only as the rules
say, and never comes to aggregate the outcomes of two writes of which there was neither. -/
theorem creation_settles_tiers :
    (∀ l1 l2 codec config,
      CreationRules (storeOf l1 l2) codec config.mode (create l1 l2 codec config).1) ∧
    (∀ steps, CreationRules
      (storeOf (Builder.ofSteps steps).l1 (Builder.ofSteps steps).l2)
      (Builder.ofSteps steps).codec (Builder.ofSteps steps).config.mode
      (Builder.ofSteps steps).build.1) ∧
    ∀ m : Manager, m.Created → ∀ {σ κ : Type} (h : Handler Tier σ) (turn : κ → σ → σ),
      (∀ steps st, ∀ a ∈ (m.answers h turn steps st).1, m.AnswerRules a) ∧
      ∀ o t, m.targets o .set = .ok t → ∀ key p (ttls : Duration × Duration) st₁ st₂,
        ¬(((m.writeIf t.l1 .l1 key p ttls.1).run h st₁).1 = none ∧
          ((m.writeIf t.l2 .l2 key p ttls.2).run h st₂).1 = none) := by
  refine ⟨creationRules, fun steps => ?_, fun m hm σ κ h turn => ⟨?_, ?_⟩⟩
  · rw [build_fst]
    exact creationRules ..
  · intro steps st a ha
    obtain ⟨st', hst'⟩ := exists_of_mem_answers ha
    rw [hst']
    exact hm.answerRules
  · intro o t ht key p ttls st₁ st₂ hnone
    rw [run_writeIf_eq_none_iff, run_writeIf_eq_none_iff] at hnone
    -- the choice of a call that is let through is not empty
    have hne := (of_targets ht).2.1
    rw [Targets.isEmpty, hnone.1, hnone.2] at hne
    cases hne

end Rules

/-- A read whose flag excludes the one tier of the mode has no target, although there are two; a
write without flags has. -/
theorem creation_settles_tiers_excluded :
    let m := sample .l1Only
    let run := m.answers (farOnly [1] (.ok ())) (fun () st => st)
      [((), .get .bool "k" { targetL1 := some false }), ((), .set .bool "k" true {})] ()
    m.Created ∧ (∀ a ∈ run.1, m.AnswerRules a) ∧
      run.1.map Answered.error? = [some (.noTarget .get), none] ∧
      m.targets {} .set = .ok ⟨true, false⟩ ∧
      ¬(((m.writeIf true .l1 "k" [1] defaultTtl).run (farOnly [1] (.ok ())) ()).1 = none ∧
        ((m.writeIf false .l2 "k" [1] defaultTtl).run (farOnly [1] (.ok ())) ()).1 = none) := by
  intro m run
  have hm : m.Created := sample_created .l1Only
  obtain ⟨hrules, hwrites⟩ :=
    creation_settles_tiers.2.2 m hm (farOnly [1] (.ok ())) (fun () st => st)
  have ht : m.targets {} .set = .ok ⟨true, false⟩ := rfl
  exact ⟨hm, hrules _ _, rfl, ht, hwrites {} _ ht "k" [1] (defaultTtl, defaultTtl) () ()⟩

end Manager

end TwoTier
