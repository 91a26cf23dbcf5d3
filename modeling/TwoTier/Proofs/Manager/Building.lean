import Mathlib.Data.List.Induction
import TwoTier.Builder
import TwoTier.Proofs.Config.Loading
import TwoTier.Proofs.Manager.Misuse

/-!
# Building step by step

What a builder has gathered can be told from its steps part by part: a part is what the latest step
gives for it, of those that give something for it, and otherwise what it is at the start. A whole
configuration gives something for every setting.

* `latest` is what the latest step gives. `part_ofSteps` reads a part of a builder off its steps, by
  the one induction of this file, and `ofSteps_eq` the whole builder.
* Two steps commute if they give nothing for the same part (`apply_comm`).
* A step that gives a codec changes nothing but the codec (`ofSteps_codec`), and what is built is
  the same but for the codec (`create_with_codec`).
* `built_of_latest` puts these together.
-/

namespace TwoTier

universe u

namespace Builder

/-! ### What a step gives -/

/-- A part of what a manager is made of. -/
inductive Part where
  | tier (i : Tier)
  | codec
  | setting (s : Setting)
deriving DecidableEq

namespace Step

/-- The store that a step gives for a tier. -/
def store? : Tier → Step → Option StoreRef
  | .l1, .l1 s => some s
  | .l2, .l2 s => some s
  | _, _ => none

/-- The codec that a step gives. -/
def codec? : Step → Option Codec
  | .codec c => some c
  | _ => none

/-- The value that a step gives for a setting, by itself or in a whole configuration. -/
def value? : (s : Setting) → Step → Option s.Value
  | .mode, .mode m => some m
  | .warmupTtl, .warmupTtl d => some d
  | .l1Ttl, .l1Ttl d => some d
  | .l2Ttl, .l2Ttl d => some d
  | s, .config c => some (s.field c)
  | _, _ => none

/-- **A step names a part** if it gives something for it. -/
def Names (st : Step) : Part → Prop
  | .tier i => (st.store? i).isSome
  | .codec => st.codec?.isSome
  | .setting s => (st.value? s).isSome

end Step

/-- What the latest of the steps gives, of those that give something. -/
def latest {α : Type u} (gives : Step → Option α) (steps : List Step) : Option α :=
  steps.reverse.findSome? gives

/-- The store that a builder has for a tier. -/
def slot (b : Builder) : Tier → Option StoreRef
  | .l1 => b.l1
  | .l2 => b.l2

section Apply

variable (b : Builder) (st : Step)

/-! A step sets each part to what it gives for it, if it does, and leaves it alone otherwise. -/

theorem slot_apply (i : Tier) : (b.apply st).slot i = (st.store? i).or (b.slot i) := by
  cases st <;> cases i <;> rfl

theorem codec_apply : (b.apply st).codec = st.codec?.or b.codec := by
  cases st <;> rfl

theorem field_apply (s : Setting) :
    some (s.field (b.apply st).config) = (st.value? s).or (some (s.field b.config)) := by
  cases st <;> cases s <;> rfl

end Apply

/-- A builder is what its parts are. -/
theorem ext_parts {b b' : Builder} (hslot : ∀ i, b.slot i = b'.slot i) (hcodec : b.codec = b'.codec)
    (hfield : ∀ s : Setting, s.field b.config = s.field b'.config) : b = b' := by
  obtain ⟨l1, l2, codec, mode, warmupTtl, l1Ttl, l2Ttl⟩ := b
  obtain ⟨l1', l2', codec', mode', warmupTtl', l1Ttl', l2Ttl'⟩ := b'
  -- the parts are all the fields that there are
  obtain rfl : l1 = l1' := hslot .l1
  obtain rfl : l2 = l2' := hslot .l2
  obtain rfl : codec = codec' := hcodec
  obtain rfl : mode = mode' := hfield .mode
  obtain rfl : warmupTtl = warmupTtl' := hfield .warmupTtl
  obtain rfl : l1Ttl = l1Ttl' := hfield .l1Ttl
  obtain rfl : l2Ttl = l2Ttl' := hfield .l2Ttl
  rfl

/-! ### What a builder has gathered -/

section Gathered

variable {α : Type u} {gives : Step → Option α}

/-- Of later steps that give something, the latest counts before all earlier ones. -/
theorem latest_append (before after : List Step) :
    latest gives (before ++ after) = (latest gives after).or (latest gives before) := by
  unfold latest
  rw [List.reverse_append, List.findSome?_append]

theorem latest_singleton (st : Step) : latest gives [st] = gives st := by
  unfold latest
  rw [List.reverse_singleton, List.findSome?_singleton]

/-- A step that gives nothing makes no difference. -/
theorem latest_append_cons {st : Step} (h : gives st = none) (before after : List Step) :
    latest gives (before ++ st :: after) = latest gives (before ++ after) := by
  have hsplit : before ++ st :: after = before ++ [st] ++ after := List.append_cons ..
  rw [hsplit, latest_append, latest_append, latest_singleton, h, Option.none_or, latest_append]

/-- **A part of a builder** is what the latest step gives for it, or what it is at the start. -/
theorem part_ofSteps (part : Builder → Option α)
    (happly : ∀ b st, part (b.apply st) = (gives st).or (part b)) (steps : List Step) :
    part (ofSteps steps) = (latest gives steps).or (part {}) := by
  -- induction from the right, since it is the last step that counts first
  induction steps using List.reverseRecOn with
  | nil => rfl
  | append_singleton steps st ih =>
    have hlast : ofSteps (steps ++ [st]) = (ofSteps steps).apply st := List.foldl_append
    rw [hlast, happly, ih, latest_append, latest_singleton, Option.or_assoc]

end Gathered

/-- The value that the latest step gives for a setting, or the default. -/
def given (steps : List Step) (s : Setting) : s.Value :=
  (latest (Step.value? s) steps).getD (s.field {})

/-- **What some steps gather**, part by part. -/
def gathered (steps : List Step) : Builder where
  l1 := latest (Step.store? .l1) steps
  l2 := latest (Step.store? .l2) steps
  codec := some ((latest Step.codec? steps).getD .jsonText)
  config := ⟨given steps .mode, given steps .warmupTtl, given steps .l1Ttl, given steps .l2Ttl⟩

/-- What is gathered has for each tier the store of its latest step, … -/
theorem slot_gathered (steps : List Step) (i : Tier) :
    (gathered steps).slot i = latest (Step.store? i) steps := by
  cases i <;> rfl

/-- … and for each setting the value of its latest step. -/
theorem field_gathered (steps : List Step) (s : Setting) :
    s.field (gathered steps).config = given steps s := by
  cases s <;> rfl

/-- The steps of a builder gather what it has. -/
theorem ofSteps_eq (steps : List Step) : ofSteps steps = gathered steps := by
  -- part by part: the stores, the codec, and the settings
  refine ext_parts (fun i => ?_) ?_ fun s => ?_
  · rw [part_ofSteps (slot · i) (fun b st => slot_apply b st i), slot_gathered]
    cases i <;> exact Option.or_none
  · rw [part_ofSteps codec codec_apply]
    exact Option.or_some
  · have hsome := part_ofSteps (fun b => some (s.field b.config))
      (fun b st => field_apply b st s) steps
    rw [Option.or_some, Option.some.injEq] at hsome
    rw [hsome, field_gathered]
    rfl

/-! ### Steps that commute -/

/-- Of two words that are not both given, either may come first. -/
theorem or_or_comm {α : Type u} {x y : Option α} (h : ¬(x.isSome ∧ y.isSome)) (z : Option α) :
    x.or (y.or z) = y.or (x.or z) := by
  cases x with
  -- the order matters only where both are given
  | none => rfl
  | some a =>
    cases y with
    | none => rfl
    | some b => exact absurd ⟨rfl, rfl⟩ h

/-- **Steps that name nothing in common commute.** -/
theorem apply_comm {st st' : Step} (h : ∀ p, ¬(st.Names p ∧ st'.Names p)) (b : Builder) :
    (b.apply st).apply st' = (b.apply st').apply st := by
  -- at most one of the two steps gives something for each part
  refine ext_parts (fun i => ?_) ?_ fun s => Option.some.inj ?_
  · simp only [slot_apply]
    exact (or_or_comm (h (.tier i)) _).symm
  · simp only [codec_apply]
    exact (or_or_comm (h .codec) _).symm
  · simp only [field_apply]
    exact (or_or_comm (h (.setting s)) _).symm

/-- Steps in a row that name nothing in common may change places anywhere. -/
theorem ofSteps_comm {st st' : Step} (h : ∀ p, ¬(st.Names p ∧ st'.Names p))
    (before after : List Step) :
    ofSteps (before ++ st :: st' :: after) = ofSteps (before ++ st' :: st :: after) := by
  simp only [ofSteps, List.foldl_append, List.foldl_cons]
  rw [apply_comm h]

/-! ### Codecs -/

/-- **A step that gives a codec** changes nothing else. -/
theorem ofSteps_codec (before after : List Step) (c : Codec) :
    ofSteps (before ++ .codec c :: after) =
      { ofSteps (before ++ after) with codec := some ((latest Step.codec? after).getD c) } := by
  rw [ofSteps_eq, ofSteps_eq]
  refine ext_parts (fun i => ?_) ?_ fun s => ?_
  · cases i <;> exact latest_append_cons rfl before after
  · -- a later codec is the latest one, and this one is the latest before it
    have hsplit : before ++ .codec c :: after = before ++ [.codec c] ++ after := List.append_cons ..
    show some ((latest Step.codec? _).getD _) = _
    rw [hsplit, latest_append, latest_append, latest_singleton]
    cases latest Step.codec? after <;> rfl
  · have hgiven : given (before ++ .codec c :: after) s = given (before ++ after) s := by
      unfold given
      rw [latest_append_cons (by cases s <;> rfl)]
    rw [field_gathered, hgiven]
    exact (field_gathered _ s).symm

/-- Whether there is a manager does not depend on the codec, nor does anything else of it. -/
theorem create_with_codec (l1 l2 : Option StoreRef) (c c' : Codec) (config : Config) :
    (Manager.create l1 l2 (some c') config).1 =
      (Manager.create l1 l2 (some c) config).1.map fun m => { m with codec := c' } := by
  unfold Manager.create
  dsimp only
  cases Manager.checkTiers config.normalized.mode l1.isSome l2.isSome <;> rfl

/-- **Building comes to what the latest steps give.** The outcome is that of creating a manager with
the store that the latest step gives for each tier, with the latest codec, or JSON text, and with
the latest value of each setting, by itself or in a whole configuration, or its default. So two
steps in a row that name no part in common can change places, and a codec, given at any point,
changes nothing in the outcome but the codec. -/
theorem built_of_latest :
    (∀ steps, (ofSteps steps).build.1 =
      (Manager.create (latest (Step.store? .l1) steps) (latest (Step.store? .l2) steps)
        (some ((latest Step.codec? steps).getD .jsonText))
        ⟨given steps .mode, given steps .warmupTtl, given steps .l1Ttl, given steps .l2Ttl⟩).1) ∧
    (∀ st st' : Step, (∀ p, ¬(st.Names p ∧ st'.Names p)) → ∀ before after,
      ofSteps (before ++ st :: st' :: after) = ofSteps (before ++ st' :: st :: after)) ∧
    ∀ before after c, (ofSteps (before ++ .codec c :: after)).build.1 =
      (ofSteps (before ++ after)).build.1.map fun m =>
        { m with codec := (latest Step.codec? after).getD c } := by
  refine ⟨fun steps => ?_, fun st st' h before after => ofSteps_comm h before after,
    fun before after c => ?_⟩
  · rw [ofSteps_eq]
    rfl
  · rw [ofSteps_codec, ofSteps_eq]
    -- the steps without this one gather the same, but for the codec
    exact create_with_codec ..

/-- A whole configuration between two times to live takes the first of them back, and not the
second; the codec that comes first and the mode could change places. -/
theorem built_of_latest_overridden :
    let near : StoreRef := ⟨"near", "Near", false⟩
    let second : Duration := .ofSecs 1
    let steps : List Step := [.codec .messagePack, .mode .bothLevels, .l1Ttl second,
      .config { mode := .l1Only, l2Ttl := second }, .l1 near, .warmupTtl second]
    (ofSteps steps).build.1 =
      .ok ⟨some near, none, .messagePack, .l1Only, second, defaultTtl, second⟩ ∧
    ofSteps steps = ofSteps (.mode .bothLevels :: .codec .messagePack :: steps.drop 2) := by
  intro near second steps
  obtain ⟨hbuilt, hcomm, -⟩ := built_of_latest
  refine ⟨(hbuilt steps).trans rfl, hcomm _ _ ?_ [] _⟩
  -- no part is named both by a step for the codec and by one for the mode
  rintro (i | _ | s) ⟨h, h'⟩
  · cases i <;> cases h
  · cases h'
  · cases s <;> cases h

end Builder

end TwoTier
