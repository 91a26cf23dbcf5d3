import TwoTier.Codec
import TwoTier.Config.Shape
import TwoTier.Proofs.Codec.Row
import TwoTier.Proofs.Config.Loading

/-!
# The entries of a stored configuration

A configuration is stored as a record, and read from its entries one after the other. What has been
read so far is a value for some of the settings (`Given`), and each entry makes one step from there
(`Step`): that of a setting gives it its value, if it has none yet, and any other entry changes
nothing.

* In the slots of the record this is what the row of its fields does (`fill?_storedName`).
* The steps of all entries (`Gathers`) are there if and only if no setting comes twice and every
  value can be read (`exists_gathers_iff`); in the end the settings that came have their values, and
  the others have none (`Gathers.of_mem`, `Gathers.of_not_mem`).
-/

namespace TwoTier

open Reader

namespace Setting

/-- The name of the field for a setting. -/
def storedName : Setting → String
  | .mode => "mode"
  | .warmupTtl => "warmup_ttl"
  | .l1Ttl => "l1_default_ttl"
  | .l2Ttl => "l2_default_ttl"

/-- The layout of the value of a setting. -/
def shape : (s : Setting) → Shape s.Value
  | .mode => Mode.shape
  | .warmupTtl => Duration.shape
  | .l1Ttl => Duration.shape
  | .l2Ttl => Duration.shape

theorem storedName_inj {s s' : Setting} (h : s.storedName = s'.storedName) : s = s' := by
  cases s <;> cases s' <;> first | rfl | exact absurd h (by decide)

theorem storedName_mem (s : Setting) : s.storedName ∈ Config.fields.names := by
  cases s <;> decide

/-- Every field of the record is that of a setting. -/
theorem exists_storedName {k : String} (h : k ∈ Config.fields.names) :
    ∃ s : Setting, k = s.storedName := by
  simp only [Config.fields, Fields.names, List.mem_cons, List.not_mem_nil, or_false] at h
  rcases h with rfl | rfl | rfl | rfl
  exacts [⟨.mode, rfl⟩, ⟨.warmupTtl, rfl⟩, ⟨.l1Ttl, rfl⟩, ⟨.l2Ttl, rfl⟩]

/-- A configuration is what it has for each setting. -/
theorem eq_of_field_eq {c c' : Config} (h : ∀ s : Setting, s.field c = s.field c') : c = c' := by
  obtain ⟨m, w, d₁, d₂⟩ := c
  obtain ⟨m', w', d₁', d₂'⟩ := c'
  cases show m = m' from h .mode
  cases show w = w' from h .warmupTtl
  cases show d₁ = d₁' from h .l1Ttl
  cases show d₂ = d₂' from h .l2Ttl
  rfl

end Setting

/-- The bytes are, by themselves, a value of the setting. -/
def Codec.ReadsAlone (codec : Codec) (s : Setting) (w : Bytes) (v : s.Value) : Prop :=
  codec.deserialize s.shape w = .ok v

/-! ### Settings that have a value -/

/-- For each setting, its value if it has one. -/
def Given : Type := (s : Setting) → Option s.Value

namespace Given

/-- No setting has a value. -/
def nothing : Given := fun _ => none

/-- One more setting has a value. -/
def set (g : Given) (s : Setting) (v : s.Value) : Given := fun s' =>
  if h : s = s' then some (h ▸ v) else g s'

@[simp] theorem set_self (g : Given) (s : Setting) (v : s.Value) : g.set s v s = some v :=
  dif_pos rfl

theorem set_of_ne {s s' : Setting} (h : s ≠ s') (g : Given) (v : s.Value) : g.set s v s' = g s' :=
  dif_neg h

/-- The slots of the record with the values. -/
def slots (g : Given) : Config.fields.Slots := (g .mode, g .warmupTtl, g .l1Ttl, g .l2Ttl, ())

/-- The configuration with the values, and the defaults of the settings without one. -/
def config (g : Given) : Config where
  mode := (g .mode).getD .bothLevels
  warmupTtl := (g .warmupTtl).getD defaultTtl
  l1Ttl := (g .l1Ttl).getD defaultTtl
  l2Ttl := (g .l2Ttl).getD defaultTtl

theorem field_config (g : Given) (s : Setting) : s.field g.config = (g s).getD (s.field {}) := by
  cases s <;> rfl

/-- The fields of the record make the configuration. -/
theorem collect_slots (g : Given) :
    Config.fields.collect g.slots =
      some (g.config.mode, g.config.warmupTtl, g.config.l1Ttl, g.config.l2Ttl, ()) := by
  unfold config slots
  generalize g .mode = m, g .warmupTtl = w, g .l1Ttl = d₁, g .l2Ttl = d₂
  cases m <;> cases w <;> cases d₁ <;> cases d₂ <;> rfl

end Given

section Fill

variable {ε σ : Type} {style : RowStyle ε σ} {value : {α : Type} → Shape α → Reader ε α}

/-- **The entry of a setting gives it its value**, unless it has one. -/
theorem fill?_storedName (g : Given) (s : Setting) :
    (Config.fields.row style value).fill? s.storedName g.slots =
      some (Fields.fillSlot style (g s) (value s.shape) fun v => (g.set s v).slots) := by
  -- the fields in front of its own pass the entry on
  cases s with
  | mode => exact Fields.fill?_head _
  | warmupTtl => exact Fields.fill?_tail (by decide) (Fields.fill?_head _)
  | l1Ttl =>
    exact Fields.fill?_tail (by decide) (Fields.fill?_tail (by decide) (Fields.fill?_head _))
  | l2Ttl =>
    exact Fields.fill?_tail (by decide) (Fields.fill?_tail (by decide)
      (Fields.fill?_tail (by decide) (Fields.fill?_head _)))

end Fill

/-! ### Steps -/

namespace Given

/-- **One entry is read**, from settings that have a value to more of them. The bytes under the name
of a setting are read as a value by `reads`. -/
inductive Step (reads : (s : Setting) → Bytes → s.Value → Prop) :
    Given → String × Bytes → Given → Prop
  | setting {g : Given} {s : Setting} {w : Bytes} {v : s.Value} (hg : g s = none)
      (hv : reads s w v) : Step reads g (s.storedName, w) (g.set s v)
  | other {g : Given} {k : String} (hk : k ∉ Config.fields.names) (w : Bytes) :
      Step reads g (k, w) g

/-- Entries are read one after the other. -/
inductive Gathers (reads : (s : Setting) → Bytes → s.Value → Prop) :
    Given → List (String × Bytes) → Given → Prop
  | nil (g : Given) : Gathers reads g [] g
  | cons {g g' g'' : Given} {e : String × Bytes} {es : List (String × Bytes)}
      (first : Step reads g e g') (rest : Gathers reads g' es g'') : Gathers reads g (e :: es) g''

section Gathers

variable {reads : (s : Setting) → Bytes → s.Value → Prop} {g g' : Given} {e : String × Bytes}
  {es : List (String × Bytes)} {s : Setting} {v : s.Value}

/-- How many entries a setting may still have. -/
def room (g : Given) (s : Setting) : Nat := if (g s).isSome then 0 else 1

theorem room_le_one (g : Given) (s : Setting) : g.room s ≤ 1 := by
  unfold room
  split <;> decide

/-- Every entry of a setting can be read. -/
def Readable (reads : (s : Setting) → Bytes → s.Value → Prop) (es : List (String × Bytes)) : Prop :=
  ∀ e ∈ es, ∀ s : Setting, e.1 = s.storedName → ∃ v, reads s e.2 v

theorem ne_storedName {k : String} (hk : k ∉ Config.fields.names) (s : Setting) :
    k ≠ s.storedName :=
  fun h => hk (h ▸ s.storedName_mem)

/-- A value stays. -/
theorem Step.keeps (h : Step reads g e g') (hv : g s = some v) : g' s = some v := by
  cases h with
  | other => exact hv
  | @setting s' w v' hg _ =>
    -- a setting that has a value cannot be given another
    have hne : s' ≠ s := by
      rintro rfl
      cases hg.symm.trans hv
    rw [set_of_ne hne, hv]

/-- Values stay to the end. -/
theorem Gathers.keeps (h : Gathers reads g es g') (hv : g s = some v) : g' s = some v := by
  induction h with
  | nil => exact hv
  | cons first _ ih => exact ih (first.keeps hv)

/-- A setting that came has the value that was read. -/
theorem Gathers.of_mem (h : Gathers reads g es g') (he : e ∈ es) (hs : e.1 = s.storedName) :
    ∃ v, g' s = some v ∧ reads s e.2 v := by
  induction h with
  | nil => cases he
  | @cons g g₁ g₂ e' es first rest ih =>
    rcases List.mem_cons.mp he with rfl | he
    · -- the entry gives the setting its value here, and no later step takes it away
      cases first with
      | other hk => exact absurd hs (ne_storedName hk s)
      | @setting s' w v hg hv =>
        obtain rfl := Setting.storedName_inj hs
        exact ⟨v, rest.keeps (g.set_self s' v), hv⟩
    · exact ih he

/-- A setting that did not come has no value that it had not. -/
theorem Gathers.of_not_mem (h : Gathers reads g es g') (hs : ∀ e ∈ es, e.1 ≠ s.storedName) :
    g' s = g s := by
  induction h with
  | nil => rfl
  | cons first rest ih =>
    have htail := ih fun e he => hs e (List.mem_cons_of_mem _ he)
    cases first with
    | other => exact htail
    | @setting s' w v hg hv =>
      -- the step is for another setting, as its own entry did not come
      have hne : s' ≠ s := by
        rintro rfl
        exact hs _ List.mem_cons_self rfl
      rw [htail, set_of_ne hne]

/-- An entry of a setting takes its room. -/
theorem Step.room_eq (h : Step reads g e g') (s : Setting) :
    g.room s = g'.room s + if e.1 = s.storedName then 1 else 0 := by
  cases h with
  | other hk => rw [if_neg (ne_storedName hk s), Nat.add_zero]
  | @setting s' w v hg hv =>
    -- only the setting of the entry loses its room
    by_cases hs : s' = s
    · subst hs
      simp only [room, hg, set_self, if_true]
      rfl
    · rw [if_neg fun h => hs (Setting.storedName_inj h), room, room,
        set_of_ne hs, Nat.add_zero]

/-- An entry that has room can be read. -/
theorem exists_step (hroom : ∀ s : Setting, e.1 = s.storedName → g.room s = 1)
    (hreads : ∀ s : Setting, e.1 = s.storedName → ∃ v, reads s e.2 v) :
    ∃ g', Step reads g e g' := by
  obtain ⟨k, w⟩ := e
  by_cases hk : k ∈ Config.fields.names
  · obtain ⟨s, rfl⟩ := Setting.exists_storedName hk
    obtain ⟨v, hv⟩ := hreads s rfl
    -- there is room, so the setting has no value yet
    have hg : g s = none := by
      have hs := hroom s rfl
      unfold room at hs
      cases hg : g s with
      | none => rfl
      | some v =>
        rw [hg] at hs
        cases hs
    exact ⟨_, .setting hg hv⟩
  · exact ⟨g, .other hk w⟩

/-- The value of a setting that came could be read. -/
theorem Step.readable (h : Step reads g e g') (hs : e.1 = s.storedName) : ∃ v, reads s e.2 v := by
  cases h with
  | other hk => exact absurd hs (ne_storedName hk s)
  | @setting s' w v hg hv =>
    obtain rfl := Setting.storedName_inj hs
    exact ⟨v, hv⟩

/-- **Entries can be read** if and only if no setting comes twice, or has a value already, and each
of their values can be read. -/
theorem exists_gathers_iff :
    (∃ g', Gathers reads g es g') ↔
      (∀ s, (es.map Prod.fst).count s.storedName ≤ g.room s) ∧ Readable reads es := by
  -- on the entries, from any settings that have a value already
  induction es generalizing g with
  | nil => exact iff_of_true ⟨g, .nil g⟩ ⟨fun s => Nat.zero_le _, List.forall_mem_nil _⟩
  | cons e es ih =>
    -- the first entry counts for its own setting, and takes its room
    have hcount (s : Setting) : ((e :: es).map Prod.fst).count s.storedName =
        (es.map Prod.fst).count s.storedName + if e.1 = s.storedName then 1 else 0 := by
      rw [List.map_cons, List.count_cons]
      simp only [beq_iff_eq]
    constructor
    · rintro ⟨g', hgathers⟩
      cases hgathers with
      | cons first rest =>
        obtain ⟨hroom, hread⟩ := ih.mp ⟨g', rest⟩
        refine ⟨fun s => ?_, List.forall_mem_cons.mpr ⟨fun s hs => first.readable hs, hread⟩⟩
        rw [hcount, first.room_eq s]
        exact Nat.add_le_add_right (hroom s) _
    · rintro ⟨hroom, hread⟩
      obtain ⟨hfirst, hrest⟩ := List.forall_mem_cons.mp hread
      -- the first entry is counted, so its setting has room left
      have hone (s : Setting) (hs : e.1 = s.storedName) : g.room s = 1 := by
        have h := hroom s
        rw [hcount, if_pos hs] at h
        exact Nat.le_antisymm (g.room_le_one s) (Nat.le_trans (Nat.le_add_left 1 _) h)
      obtain ⟨g₁, hstep⟩ := exists_step hone hfirst
      -- and what is left of the room is enough for the later entries
      have hrooms (s : Setting) : (es.map Prod.fst).count s.storedName ≤ g₁.room s := by
        have h := hroom s
        rw [hcount, hstep.room_eq s] at h
        exact Nat.le_of_add_le_add_right h
      obtain ⟨g', hgathers⟩ := ih.mpr ⟨hrooms, hrest⟩
      exact ⟨g', .cons hstep hgathers⟩

end Gathers

end Given

end TwoTier
