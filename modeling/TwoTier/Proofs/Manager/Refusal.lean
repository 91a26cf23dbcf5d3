import TwoTier.Proofs.Manager.Misuse
import TwoTier.Proofs.Manager.Parts
import TwoTier.Proofs.Script.Computations

/-!
# What it means that a call was misused

`CacheError.isMisuse` tells the caller's mistakes from failures. This file ties it to what the call
did and to what the call was:

* an error is a misuse exactly if nothing has happened yet: no store was asked, the caller's
  function did not run (`Script.computations`), and the value to be written was not at fault
  (`isMisuse_iff`);
* the mistake is told from the mode, the tiers that there are, the key and the options, by a
  function that sees nothing else (`mistake?`, `misused_iff`).

`Manager.RefusalRules` puts the two together, call by call. A value without an encoding is found out
before a choice of no tier is, and is no misuse; that is the one place where something else is seen.
-/

namespace TwoTier

/-- The misuse that a call ended with, if it did. -/
def Answered.misuse? (a : Answered) : Option CacheError := a.error?.filter CacheError.isMisuse

/-! ### Mistakes -/

/-- A mistake of the caller. -/
inductive Mistake where
  | emptyKey
  | overrideNotAllowed
  | noTarget
deriving DecidableEq

/-- The error for a mistake in an operation. -/
def Mistake.error (op : Operation) : Mistake → CacheError
  | .emptyKey => .emptyKey
  | .overrideNotAllowed => .overrideNotAllowed
  | .noTarget => .noTarget op

/-- **The mistake in a call**, if there is one: an empty key, flags where there is one tier, or a
choice of no tier. -/
def mistake? (mode : Mode) (l1 l2 : Bool) (key : String) (o : Options) : Option Mistake :=
  if key = "" then some .emptyKey
  else if o.hasOverride && !(l1 && l2) then some .overrideNotAllowed
  else if (mode.resolve o.targetL1 o.targetL2).isEmpty then some .noTarget
  else none

namespace Manager

variable {σ α : Type} {m : Manager} {key : String} {o : Options}

/-- The mistake in a call on a manager. -/
abbrev mistakeIn? (m : Manager) (key : String) (o : Options) : Option Mistake :=
  mistake? m.mode m.l1.isSome m.l2.isSome key o

/-- Whether a call oversteps is told from its flags and from the tiers that there are. -/
theorem oversteps_iff :
    m.Oversteps o ↔ (o.hasOverride && !(m.l1.isSome && m.l2.isSome)) = true := by
  simp only [Oversteps, Bool.and_eq_true, Bool.not_eq_true', Bool.and_eq_false_iff, not_and,
    Bool.not_eq_true]
  cases m.l1.isSome <;> simp

/-- The mistake of an empty key comes before all others. -/
theorem mistakeIn?_empty (hk : key = "") : m.mistakeIn? key o = some .emptyKey := if_pos hk

/-- Then comes that of a flag where there is one tier, -/
theorem mistakeIn?_oversteps (hk : key ≠ "") (ho : m.Oversteps o) :
    m.mistakeIn? key o = some .overrideNotAllowed := by
  rw [mistakeIn?, mistake?, if_neg hk, if_pos (oversteps_iff.mp ho)]

/-- and last that of an empty choice. -/
theorem mistakeIn?_allowed (hk : key ≠ "") (ho : ¬m.Oversteps o) :
    m.mistakeIn? key o = if (m.chosen o).isEmpty then some .noTarget else none := by
  rw [mistakeIn?, mistake?, if_neg hk, if_neg (mt oversteps_iff.mpr ho), chosen]

/-- A call is without a target only if nothing else is wrong with it. -/
theorem mistakeIn?_eq_noTarget_iff : m.mistakeIn? key o = some .noTarget ↔
    key ≠ "" ∧ ¬m.Oversteps o ∧ (m.chosen o).isEmpty = true := by
  by_cases hk : key = ""
  · simp [mistakeIn?_empty, hk]
  by_cases ho : m.Oversteps o
  · simp [mistakeIn?_oversteps hk ho, ho]
  · simp [mistakeIn?_allowed hk ho, hk, ho]

/-- A call without a mistake is carried out. -/
theorem proper_of_mistakeIn?_eq_none (hx : m.mistakeIn? key o = none) : m.Proper key o := by
  -- each mistake in turn would have been found
  by_cases hk : key = ""
  · cases (mistakeIn?_empty hk).symm.trans hx
  by_cases ho : m.Oversteps o
  · cases (mistakeIn?_oversteps hk ho).symm.trans hx
  refine ⟨hk, ho, ?_⟩
  simpa [mistakeIn?_allowed hk ho] using hx

/-- The caller's mistakes in a call that asks its tiers for something. Only a value that has an
encoding comes to want a target. -/
theorem misused_iff {r : Request} {op : Operation} (hop : r.operation? = some op) {e : CacheError} :
    r.Misused m e ↔ ∃ x, m.mistakeIn? r.key r.options = some x ∧
      (x = .noTarget → r.Encodable m) ∧ e = x.error op := by
  constructor
  · rintro (hk | ⟨hk, ho⟩ | ⟨hk, ho, hop', hs, he⟩)
    · exact ⟨.emptyKey, mistakeIn?_empty hk, nofun, rfl⟩
    · exact ⟨.overrideNotAllowed, mistakeIn?_oversteps hk ho, nofun, rfl⟩
    · cases hop.symm.trans hop'
      exact ⟨.noTarget, mistakeIn?_eq_noTarget_iff.mpr ⟨hk, ho, he⟩, fun _ => hs, rfl⟩
  · rintro ⟨x, hx, hs, rfl⟩
    by_cases hk : r.key = ""
    · cases (mistakeIn?_empty hk).symm.trans hx
      exact .emptyKey hk
    by_cases ho : m.Oversteps r.options
    · cases (mistakeIn?_oversteps hk ho).symm.trans hx
      exact .overrideNotAllowed hk ho
    -- past the checks, only a choice of no tier is a mistake
    cases x with
    | noTarget => exact .noTarget hk ho hop (hs rfl) (mistakeIn?_eq_noTarget_iff.mp hx).2.2
    | emptyKey | overrideNotAllowed => simp [mistakeIn?_allowed hk ho] at hx

/-- A value with an encoding is no obstacle to any mistake. -/
theorem misused_iff_map {r : Request} {op : Operation} (hop : r.operation? = some op)
    (hs : r.Encodable m) {e : CacheError} :
    r.Misused m e ↔ (m.mistakeIn? r.key r.options).map (Mistake.error op) = some e := by
  rw [misused_iff hop, Option.map_eq_some_iff]
  constructor
  · rintro ⟨x, hx, -, rfl⟩
    exact ⟨x, hx, rfl⟩
  · rintro ⟨x, hx, rfl⟩
    exact ⟨x, hx, fun _ => hs, rfl⟩

/-- A value without an encoding leaves the mistakes that are found before it is encoded. -/
theorem misused_iff_filter {r : Request} {op : Operation} (hop : r.operation? = some op)
    (hs : ¬r.Encodable m) {e : CacheError} :
    r.Misused m e ↔
      ((m.mistakeIn? r.key r.options).filter (· ≠ .noTarget)).map (Mistake.error op) = some e := by
  simp only [misused_iff hop, Option.map_eq_some_iff, Option.filter_eq_some_iff, decide_eq_true_eq]
  constructor
  · rintro ⟨x, hx, hne, rfl⟩
    exact ⟨x, ⟨hx, fun h => hs (hne h)⟩, rfl⟩
  · rintro ⟨x, ⟨hx, hne⟩, rfl⟩
    exact ⟨x, hx, fun h => absurd h hne, rfl⟩

/-- All that a removal can be refused for is its key. -/
theorem misused_delete_iff {e : CacheError} :
    (Request.delete key).Misused m e ↔ key = "" ∧ e = .emptyKey := by
  constructor
  · rintro (hk | ⟨-, ho⟩ | ⟨-, -, hop, -⟩)
    · exact ⟨hk, rfl⟩
    · exact absurd ho.1 Bool.false_ne_true
    · cases hop
  · rintro ⟨hk, rfl⟩
    exact .emptyKey hk

theorem isMisuse_of_misused {r : Request} {e : CacheError} (he : r.Misused m e) :
    e.isMisuse = true := by
  cases he <;> rfl

/-! ### What has happened before a misuse -/

section Computations

/-- Scripts without a place for the caller's function are closed under all that calls are made of.
-/
theorem computeless_closed : Script.Closed fun _ (s : Script Tier _) => s.Computeless :=
  ⟨.pure, .event, .bind⟩

variable (h : Handler Tier σ) (s : Shape α) (st : σ)

/-- A read does not run the caller's function, -/
theorem computations_get : (m.get s key o).computations h st = 0 :=
  (closed_get computeless_closed (fun i _ c _ => .command i c) s).computations_eq_zero h st

/-- nor does a write, -/
theorem computations_set (a : α) : (m.set s key a o).computations h st = 0 :=
  (closed_set computeless_closed (fun i _ c _ => .command i c) s a).computations_eq_zero h st

/-- nor does a removal. -/
theorem computations_delete : (m.delete key).computations h st = 0 :=
  (closed_delete computeless_closed fun i _ => .command i _).computations_eq_zero h st

/-- Reading through runs the caller's function once if its read misses, … -/
theorem computations_getOrCompute_of_none (outcome : Except Failure α)
    (hr : ((m.get s key o).run h st).1 = .ok none) :
    (m.getOrCompute s key o outcome).computations h st = 1 := by
  simp only [getOrCompute, Script.computations_bind, computations_get, hr]
  cases outcome with
  | error f => simp
  | ok a =>
    -- the write asks stores only, and so does what follows it
    simp only [Script.computations_bind, computations_set, Script.computations_event,
      Script.computations_computed, Nat.zero_add]
    split <;> rfl

/-- … and does not if its read fails. -/
theorem computations_getOrCompute_of_error (outcome : Except Failure α) {e : CacheError}
    (hr : ((m.get s key o).run h st).1 = .error e) :
    (m.getOrCompute s key o outcome).computations h st = 0 := by
  simp only [getOrCompute, Script.computations_bind, computations_get, hr,
    Script.computations_pure, Nat.zero_add]

end Computations

section Untouched

variable {h : Handler Tier σ} {st : σ} {s : Shape α} {a : α} {e : CacheError}

/-- A read that fails without asking a store was misused. -/
theorem ReadFootprint.misused_of_nil (hf : m.ReadFootprint s key o [] (.error e)) :
    (Request.get s key o).Misused m e := by
  cases hx : m.mistakeIn? key o with
  | some x =>
    have hmis : (Request.get s key o).Misused m (x.error .get) :=
      (misused_iff rfl).mpr ⟨x, hx, fun _ => trivial, rfl⟩
    cases (hf.of_misused hmis).2
    exact hmis
  | none =>
    have hp : m.Proper key o := proper_of_mistakeIn?_eq_none hx
    -- a read that is carried out asks some tier
    rcases hf.outcome hp with ⟨i, p, hx⟩ | ⟨i, f, hx⟩ | hall
    · cases hx
    · cases hx
    · cases (hf.missed hp).mpr hall

/-- A write that fails without asking a store was misused, or its value has no encoding. -/
theorem WriteFootprint.misused_of_nil (hf : m.WriteFootprint s key a o [] (.error e)) :
    (Request.set s key a o).Misused m e ∨ ∃ f, e = .serialization m.codec.name f := by
  cases hs : m.codec.serialize s a with
  | error f =>
    by_cases hk : key = ""
    · cases (hf.emptyKey hk).2
      exact .inl (.emptyKey hk)
    by_cases ho : m.Oversteps o
    · cases (hf.oversteps hk ho).2
      exact .inl (.overrideNotAllowed hk ho)
    cases (hf.unserializable hk ho f hs).2
    exact .inr ⟨f, rfl⟩
  | ok p =>
    cases hx : m.mistakeIn? key o with
    | some x =>
      have hmis : (Request.set s key a o).Misused m (x.error .set) :=
        (misused_iff rfl).mpr ⟨x, hx, fun _ => ⟨p, hs⟩, rfl⟩
      cases (hf.of_misused hmis).2
      exact .inl hmis
    | none =>
      have hp : m.Proper key o := proper_of_mistakeIn?_eq_none hx
      -- a write that is carried out asks every tier that it chooses, and there is one
      obtain ⟨reply, hperm, -⟩ := hf.written hp p hs
      have hnil : (m.chosen o).toList = [] := List.map_eq_nil_iff.mp (List.nil_perm.mp hperm)
      rcases toList_of_not_isEmpty hp.chooses with ⟨i, hi⟩ | hboth
      · cases hnil.symm.trans hi
      · rw [hboth] at hnil
        cases hnil

/-- A read that fails is all of reading through. -/
theorem Through.trace_of_error {outcome : Except Failure α} {st' : σ} {T : List (Exchange Tier)}
    {r : Result α} (hw : Through m h s key o outcome st T r st')
    (hr : ((m.get s key o).run h st).1 = .error e) : T = (m.get s key o).trace h st := by
  cases hw with
  | failed | found | notComputed => rfl
  | stored hr' | notStored hr' => cases hr.symm.trans hr'

/-- Reading through that fails without running the caller's function fails in its read. -/
theorem Through.get_of_uncomputed {outcome : Except Failure α} {st' : σ}
    {T : List (Exchange Tier)} (hw : Through m h s key o outcome st T (.error e) st')
    (hcomp : (m.getOrCompute s key o outcome).computations h st = 0) :
    ((m.get s key o).run h st).1 = .error e := by
  cases hw with
  | failed hr => exact hr
  | notComputed hr => cases (computations_getOrCompute_of_none h s st outcome hr).symm.trans hcomp

/-- A removal that asks no store has no tier to fail. -/
theorem run_delete_of_nil (hk : key ≠ "") (hT : (m.delete key).trace h st = []) :
    ((m.delete key).run h st).1 = .ok () :=
  (delete_footprint h m hk st).succeeds.mpr fun _ _ hx => by
    rw [hT] at hx
    cases hx

/-- A misused call asks no store, and does not run the caller's function. -/
theorem untouched_of_misused (hm : m.Created) {r : Request} (he : r.Misused m e) :
    (m.answer h r st).1.trace = [] ∧ (r.script m).computations h st = 0 := by
  cases r with
  | get s key o =>
    exact ⟨(((reading h m s key o st).footprint hm).of_misused he).1, computations_get h s st⟩
  | set s key a o =>
    exact ⟨(((writing h m s key a o m.writeOrder st).footprint hm).of_misused he).1,
      computations_set h s st a⟩
  -- reading through is misused as its read is, and ends with it
  | getOrCompute s key o outcome =>
    obtain ⟨hT, hr⟩ := ((reading h m s key o st).footprint hm).of_misused
      (misused_getOrCompute_iff.mp he)
    exact ⟨((readThrough m h s key o outcome st).trace_of_error hr).trans hT,
      computations_getOrCompute_of_error h s st outcome hr⟩
  | delete key =>
    obtain ⟨rfl, -⟩ := misused_delete_iff.mp he
    exact ⟨rfl, computations_delete h st⟩

/-- A call that fails without asking a store or running the caller's function was misused, or its
value has no encoding. -/
theorem misused_of_untouched (hm : m.Created) {r : Request}
    (he : (m.answer h r st).1.error? = some e) (hT : (m.answer h r st).1.trace = [])
    (hcomp : (r.script m).computations h st = 0) :
    r.Misused m e ∨ ∃ f, e = .serialization m.codec.name f := by
  cases r with
  | get s key o =>
    have hf := (reading h m s key o st).footprint hm
    rw [error?_answer_get.mp he, show (m.get s key o).trace h st = [] from hT] at hf
    exact .inl hf.misused_of_nil
  | set s key a o =>
    have hf := (writing h m s key a o m.writeOrder st).footprint hm
    have hr : ((m.setInOrder m.writeOrder s key a o).run h st).1 = .error e :=
      error?_answer_set.mp he
    rw [hr, show (m.setInOrder m.writeOrder s key a o).trace h st = [] from hT] at hf
    exact hf.misused_of_nil
  -- without the caller's function there was only the read
  | getOrCompute s key o outcome =>
    have hw := readThrough m h s key o outcome st
    have hr : ((m.get s key o).run h st).1 = .error e := by
      rw [error?_answer_getOrCompute.mp he] at hw
      exact hw.get_of_uncomputed hcomp
    have hf := (reading h m s key o st).footprint hm
    rw [hr, (hw.trace_of_error hr).symm.trans hT] at hf
    exact .inl (misused_getOrCompute_iff.mpr hf.misused_of_nil)
  | delete key =>
    have hrun := error?_answer_delete.mp he
    by_cases hk : key = ""
    · subst hk
      cases hrun
      exact .inl (.emptyKey rfl)
    · cases hrun.symm.trans (run_delete_of_nil hk hT)

/-- **An error is a misuse exactly if nothing has happened yet**, but that the value to be written
was looked at. -/
theorem isMisuse_iff (hm : m.Created) {r : Request}
    (he : (m.answer h r st).1.error? = some e) :
    e.isMisuse = true ↔ (m.answer h r st).1.trace = [] ∧ (r.script m).computations h st = 0 ∧
      ∀ codec f, e ≠ .serialization codec f := by
  constructor
  · intro hmis
    obtain ⟨hT, hcomp⟩ := untouched_of_misused hm ((error?_eq_misuse_iff hm hmis).mp he)
    refine ⟨hT, hcomp, ?_⟩
    rintro codec f rfl
    cases hmis
  · rintro ⟨hT, hcomp, hser⟩
    -- an untouched failure is a misuse, or that of a value without an encoding
    rcases misused_of_untouched hm he hT hcomp with hr | ⟨f, rfl⟩
    · exact isMisuse_of_misused hr
    · exact absurd rfl (hser _ f)

end Untouched

/-! ### The rules -/

/-- The mistakes of a call are what it can be refused for. -/
theorem misuse?_eq_some_iff (hm : m.Created) {r : Request} {h : Handler Tier σ} {st : σ}
    {e : CacheError} : (m.answer h r st).1.misuse? = some e ↔ r.Misused m e := by
  rw [Answered.misuse?, Option.filter_eq_some_iff]
  constructor
  · rintro ⟨he, hmis⟩
    exact (error?_eq_misuse_iff hm hmis).mp he
  · intro he
    exact ⟨error?_of_misused hm he h st, isMisuse_of_misused he⟩

/-- Where the value is no obstacle, a call is refused for whatever mistake is in it. -/
theorem misuse?_eq_map (hm : m.Created) (r : Request) {op : Operation}
    (hop : r.operation? = some op) (hs : r.Encodable m) (h : Handler Tier σ) (st : σ) :
    (m.answer h r st).1.misuse? = (m.mistakeIn? r.key r.options).map (Mistake.error op) :=
  Option.ext fun _ => (misuse?_eq_some_iff hm).trans (misused_iff_map hop hs)

/-- Where it is one, the want of a target is never noticed. -/
theorem misuse?_eq_filter (hm : m.Created) (r : Request) {op : Operation}
    (hop : r.operation? = some op) (hs : ¬r.Encodable m) (h : Handler Tier σ) (st : σ) :
    (m.answer h r st).1.misuse? =
      ((m.mistakeIn? r.key r.options).filter (· ≠ .noTarget)).map (Mistake.error op) :=
  Option.ext fun _ => (misuse?_eq_some_iff hm).trans (misused_iff_filter hop hs)

/-- **What a call on a manager is refused for**, whatever its stores have and do. -/
structure RefusalRules (m : Manager) (h : Handler Tier σ) (st : σ) : Prop where
  /-- An error is a misuse exactly if no store was asked, the caller's function did not run, and the
  value to be written had an encoding. -/
  misuse : ∀ (r : Request) e, (m.answer h r st).1.error? = some e →
    (e.isMisuse = true ↔ (m.answer h r st).1.trace = [] ∧ (r.script m).computations h st = 0 ∧
      ∀ codec f, e ≠ .serialization codec f)
  /-- A read is refused for the mistake in it, … -/
  get : ∀ {α : Type} (s : Shape α) key o,
    (m.answer h (.get s key o) st).1.misuse? = (m.mistakeIn? key o).map (Mistake.error .get)
  /-- … reading through is refused as its read is, … -/
  getOrCompute : ∀ {α : Type} (s : Shape α) key o outcome,
    (m.answer h (.getOrCompute s key o outcome) st).1.misuse? =
      (m.mistakeIn? key o).map (Mistake.error .get)
  /-- … and so is a write of a value that has an encoding. -/
  set : ∀ {α : Type} (s : Shape α) key a o p, m.codec.serialize s a = .ok p →
    (m.answer h (.set s key a o) st).1.misuse? = (m.mistakeIn? key o).map (Mistake.error .set)
  /-- A write of a value that has none is not refused for want of a target, but fails for its
  value. -/
  setUnserializable : ∀ {α : Type} (s : Shape α) key a o f, m.codec.serialize s a = .error f →
    (m.answer h (.set s key a o) st).1.misuse? =
        ((m.mistakeIn? key o).filter (· ≠ .noTarget)).map (Mistake.error .set) ∧
      (m.mistakeIn? key o = some .noTarget →
        (m.answer h (.set s key a o) st).1.error? = some (.serialization m.codec.name f))
  /-- A removal has no options, and is refused for an empty key only. -/
  delete : ∀ key,
    (m.answer h (.delete key) st).1.misuse? = if key = "" then some .emptyKey else none

/-- **Misuse is known beforehand.** Whatever its stores have and do, a created manager refuses a
call for what the call is alone, before it does anything; and what it refuses in this way is exactly
what counts as a misuse. -/
theorem misuse_known_beforehand (hm : m.Created) (h : Handler Tier σ) (st : σ) :
    m.RefusalRules h st where
  misuse r e he := isMisuse_iff hm he
  get s key o := misuse?_eq_map hm (.get s key o) rfl trivial h st
  getOrCompute s key o outcome :=
    misuse?_eq_map hm (.getOrCompute s key o outcome) rfl trivial h st
  set s key a o p hs := misuse?_eq_map hm (.set s key a o) rfl ⟨p, hs⟩ h st
  setUnserializable s key a o f hs := by
    have hencodable : ¬(Request.set s key a o).Encodable m := by
      rintro ⟨p, hp⟩
      cases hs.symm.trans hp
    refine ⟨misuse?_eq_filter hm (.set s key a o) rfl hencodable h st, fun hx => ?_⟩
    obtain ⟨hk, ho, -⟩ := mistakeIn?_eq_noTarget_iff.mp hx
    -- the value is looked at before the choice of tiers is
    exact error?_answer_set.mpr
      (((writing h m s key a o m.writeOrder st).footprint hm).unserializable hk ho f hs).2
  delete key := by
    refine Option.ext fun e => (misuse?_eq_some_iff hm).trans (misused_delete_iff.trans ?_)
    split <;> simp [*, eq_comm]

/-- Mode and flags of a call that together exclude both tiers. -/
def noTiers : Options := { targetL1 := some false, targetL2 := some false }

/-- A read that has no target is refused before it acts, where the same read of some tier, whose
payload is no text, fails but is not misused. -/
theorem misuse_known_beforehand_noTiers :
    let m := sample .bothLevels
    let h := farOnly [1] (.ok ())
    m.Created ∧ m.mistakeIn? "k" noTiers = some .noTarget ∧
      (m.answer h (.get .text "k" noTiers) ()).1.misuse? = some (.noTarget .get) ∧
      (m.answer h (.getOrCompute .text "k" noTiers (.ok "")) ()).1.misuse? =
        some (.noTarget .get) ∧
      (m.answer h (.set .text "k" "" noTiers) ()).1.misuse? = some (.noTarget .set) ∧
      ∃ e, (m.answer h (.get .text "k" {}) ()).1.error? = some e ∧ ¬e.isMisuse = true := by
  intro m h
  have hm : m.Created := sample_created .bothLevels
  have hrules := misuse_known_beforehand hm h ()
  have hx : m.mistakeIn? "k" noTiers = some .noTarget := rfl
  refine ⟨hm, hx, ?_, ?_, ?_, ?_⟩
  · rw [hrules.get, hx]
    rfl
  · rw [hrules.getOrCompute, hx]
    rfl
  · rw [hrules.set _ _ _ _ _ rfl, hx]
    rfl
  · refine ⟨_, rfl, fun hmis => ?_⟩
    -- stores have been asked
    cases ((hrules.misuse (.get .text "k" {}) _ rfl).mp hmis).1

/-- The mode, the tiers that there are, the key and the options alone do not tell whether a write is
refused: where there is no target, only that of a value with an encoding is. -/
theorem misuse_not_known_from_options : ¬∃ refused : Mode → Bool → Bool → String → Options → Bool,
    ∀ m : Manager, m.Created → ∀ (h : Handler Tier Unit) st {α : Type} (s : Shape α) key a o,
      (m.answer h (.set s key a o) st).1.misuse?.isSome =
        refused m.mode m.l1.isSome m.l2.isSome key o := by
  rintro ⟨refused, hall⟩
  -- two writes with the same mode, tiers, key and options, of which only one can be encoded
  have hwith := hall _ (sample_created .bothLevels) (farOnly [1] (.ok ())) () .bool "k" true noTiers
  have hwithout := hall _ (sample_created .bothLevels) (farOnly [1] (.ok ())) ()
    (.refused "refusing to serialize") "k" () noTiers
  cases hwith.trans hwithout.symm

end Manager

end TwoTier
