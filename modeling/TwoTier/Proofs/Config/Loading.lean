import TwoTier.Proofs.Config.Texts
import TwoTier.Proofs.Script.Trace
import TwoTier.TextMap

/-!
# Loading a configuration

A configuration is loaded setting by setting. What is loaded depends on the texts of the settings
alone, each of which is valid or not whatever the others are (`Setting.Reads`), so loading can be
described by the first text that is invalid, or by the fact that none is.

* `Config.Loads` is loading as a relation, rule by rule: a setting that is not set, one whose text
  is valid, and one whose text ends the loading. `Config.loadFrom` follows it (`loads`).
* By induction on the rules: nothing is looked up out of order (`Loads.asked_prefix`), a loading
  that fails does so at the first text that is invalid (`Loads.of_error`), and one that does not
  gives every setting its own value (`Loads.of_ok`, `Loads.given`).
* `loading` puts these together.
-/

namespace TwoTier

namespace Setting

/-! ### The value of a setting -/

/-- What a setting is set to. -/
def Value : Setting → Type
  | .mode => Mode
  | .warmupTtl => Duration
  | .l1Ttl => Duration
  | .l2Ttl => Duration

/-- The part of a configuration that a setting is for. -/
def field : (s : Setting) → Config → s.Value
  | .mode, c => c.mode
  | .warmupTtl, c => c.warmupTtl
  | .l1Ttl, c => c.l1Ttl
  | .l2Ttl, c => c.l2Ttl

/-- The configuration with one setting set. -/
def put : (s : Setting) → s.Value → Config → Config
  | .mode, m, c => { c with mode := m }
  | .warmupTtl, d, c => { c with warmupTtl := d }
  | .l1Ttl, d, c => { c with l1Ttl := d }
  | .l2Ttl, d, c => { c with l2Ttl := d }

/-- **A text gives a value** of a setting. -/
def Reads : (s : Setting) → String → s.Value → Prop
  | .mode, text, m => Mode.Named text m
  | .warmupTtl, text, d => SecsText.Names text d
  | .l1Ttl, text, d => SecsText.Names text d
  | .l2Ttl, text, d => SecsText.Names text d

/-- A setting can be read from a text. -/
def Valid (s : Setting) (text : String) : Prop := ∃ v, s.Reads text v

section Value

variable {s s' : Setting} {text : String} {c c' : Config}

@[simp] theorem field_put_self (s : Setting) (v : s.Value) (c : Config) :
    s.field (s.put v c) = v := by
  cases s <;> rfl

theorem field_put_of_ne (h : s' ≠ s) (v : s.Value) (c : Config) :
    s'.field (s.put v c) = s'.field c := by
  cases s <;> cases s' <;> first | rfl | exact absurd rfl h

/-- Reading a text changes the part that the setting is for, and fails for invalid texts only. -/
theorem apply_eq_ok_iff :
    s.apply text c = .ok c' ↔ ∃ v, s.Reads text v ∧ s.put v c = c' := by
  have hmap {ε α : Type} {r : Except ε α} {f : α → Config} :
      r.map f = .ok c' ↔ ∃ v, r = .ok v ∧ f v = c' := by
    cases r with
    | error e => exact iff_of_false nofun fun ⟨v, hv, _⟩ => nomatch hv
    | ok v => simp [Except.map]
  -- the three times to live are read in the same way
  have httl {f : Duration → Config} :
      ((readTtl text).mapError SecsFault.message).map f = .ok c' ↔
        ∃ d, SecsText.Names text d ∧ f d = c' := by
    rw [hmap]
    simp only [mapError_eq_ok_iff, readTtl_eq_ok_iff]
  cases s with
  | mode =>
    simp only [apply, hmap, Mode.parse_eq_ok_iff]
    rfl
  | warmupTtl | l1Ttl | l2Ttl => exact httl

end Value

end Setting

/-! ### Loading, rule by rule -/

namespace Config

/-- **Loading** the settings `ss` into a configuration looks up the names `asked`, and comes to
`r`. -/
inductive Loads (lookup : String → Option String) :
    List Setting → Config → List String → Except ConfigError Config → Prop
  | done (c : Config) : Loads lookup [] c [] (.ok c)
  /-- What is not set stays as it is, … -/
  | unset {s : Setting} {ss : List Setting} {c : Config} {asked : List String}
      {r : Except ConfigError Config} (hnone : lookup s.name = none)
      (hrest : Loads lookup ss c asked r) : Loads lookup (s :: ss) c (s.name :: asked) r
  /-- … what can be read is set, … -/
  | set {s : Setting} {ss : List Setting} {c : Config} {asked : List String}
      {r : Except ConfigError Config} {text : String} {v : s.Value}
      (hsome : lookup s.name = some text) (hv : s.Reads text v)
      (hrest : Loads lookup ss (s.put v c) asked r) : Loads lookup (s :: ss) c (s.name :: asked) r
  /-- … and what cannot ends the loading. -/
  | stop {s : Setting} {ss : List Setting} {c : Config} {text : String}
      (hsome : lookup s.name = some text) (hinvalid : ¬s.Valid text) (reason : String) :
      Loads lookup (s :: ss) c [s.name] (.error (.invalidSetting s.name text reason))

section Loads

variable {lookup : String → Option String} {ss : List Setting} {c : Config} {asked : List String}
  {r : Except ConfigError Config}

/-- Every loading follows the rules. -/
theorem loads (lookup : String → Option String) (ss : List Setting) (c : Config) :
    Loads lookup ss c (loadFrom lookup ss c).1 (loadFrom lookup ss c).2 := by
  induction ss generalizing c with
  | nil => exact .done c
  | cons s ss ih =>
    unfold loadFrom
    cases hlookup : lookup s.name with
    | none => exact .unset hlookup (ih c)
    | some text =>
      dsimp only
      -- a text that cannot be read is one that gives no value
      cases happly : s.apply text c with
      | error reason =>
        refine .stop hlookup (fun ⟨v, hv⟩ => ?_) reason
        have hok : s.apply text c = .ok (s.put v c) := Setting.apply_eq_ok_iff.mpr ⟨v, hv, rfl⟩
        cases happly.symm.trans hok
      | ok c' =>
        obtain ⟨v, hv, rfl⟩ := Setting.apply_eq_ok_iff.mp happly
        exact .set hlookup hv (ih (s.put v c))

/-- Nothing is looked up out of order, or twice. -/
theorem Loads.asked_prefix (h : Loads lookup ss c asked r) : asked <+: ss.map Setting.name := by
  induction h with
  | done c => exact List.nil_prefix
  | unset _ _ ih => exact List.cons_prefix_cons.mpr ⟨rfl, ih⟩
  | set _ _ _ ih => exact List.cons_prefix_cons.mpr ⟨rfl, ih⟩
  | stop _ _ _ => exact List.cons_prefix_cons.mpr ⟨rfl, List.nil_prefix⟩

/-- The text of a setting cannot be read. -/
def Stuck (lookup : String → Option String) (s : Setting) : Prop :=
  ∃ text, lookup s.name = some text ∧ ¬s.Valid text

/-- A setting that is not set ends nothing, … -/
theorem not_stuck_of_unset {s : Setting} (h : lookup s.name = none) : ¬Stuck lookup s := by
  rintro ⟨text, hsome, -⟩
  cases h.symm.trans hsome

/-- … and neither does one whose text can be read. -/
theorem not_stuck_of_reads {s : Setting} {text : String} {v : s.Value}
    (h : lookup s.name = some text) (hv : s.Reads text v) : ¬Stuck lookup s := by
  rintro ⟨text', hsome, hinvalid⟩
  obtain rfl := Option.some.inj (h.symm.trans hsome)
  exact hinvalid ⟨v, hv⟩

/-- **A loading that fails** does so at the first setting that cannot be read, and looks up nothing
after it. -/
theorem Loads.of_error {e : ConfigError} (h : Loads lookup ss c asked (.error e)) :
    ∃ before s after text reason, ss = before ++ s :: after ∧
      asked = before.map Setting.name ++ [s.name] ∧ e = .invalidSetting s.name text reason ∧
      lookup s.name = some text ∧ ¬s.Valid text ∧ ∀ s' ∈ before, ¬Stuck lookup s' := by
  -- the result is made a variable, for the induction on the rules
  generalize hr : Except.error e = r at h
  induction h with
  | done c => cases hr
  | @unset s ss c asked r hnone hrest ih =>
    obtain ⟨before, t, after, text, reason, rfl, rfl, he, htext, hinvalid, hfirst⟩ := ih hr
    refine ⟨s :: before, t, after, text, reason, rfl, rfl, he, htext, hinvalid, ?_⟩
    exact List.forall_mem_cons.mpr ⟨not_stuck_of_unset hnone, hfirst⟩
  | @set s ss c asked r text' v hsome hv hrest ih =>
    obtain ⟨before, t, after, text, reason, rfl, rfl, he, htext, hinvalid, hfirst⟩ := ih hr
    refine ⟨s :: before, t, after, text, reason, rfl, rfl, he, htext, hinvalid, ?_⟩
    exact List.forall_mem_cons.mpr ⟨not_stuck_of_reads hsome hv, hfirst⟩
  | @stop s ss c text hsome hinvalid reason =>
    exact ⟨[], s, ss, text, reason, rfl, rfl, Except.error.inj hr, hsome, hinvalid, nofun⟩

/-- **A loading that does not fail** looks up every setting and finds none that cannot be read, … -/
theorem Loads.of_ok {c' : Config} (h : Loads lookup ss c asked (.ok c')) :
    asked = ss.map Setting.name ∧ ∀ s ∈ ss, ¬Stuck lookup s := by
  generalize hr : Except.ok c' = r at h
  induction h with
  | done c => exact ⟨rfl, nofun⟩
  | unset hnone _ ih =>
    obtain ⟨hasked, hrest⟩ := ih hr
    exact ⟨congrArg _ hasked, List.forall_mem_cons.mpr ⟨not_stuck_of_unset hnone, hrest⟩⟩
  | set hsome hv _ ih =>
    obtain ⟨hasked, hrest⟩ := ih hr
    exact ⟨congrArg _ hasked, List.forall_mem_cons.mpr ⟨not_stuck_of_reads hsome hv, hrest⟩⟩
  | stop _ _ _ => cases hr

/-- … leaves other settings as they are, … -/
theorem Loads.field_of_not_mem {c' : Config} (h : Loads lookup ss c asked (.ok c')) {s : Setting}
    (hs : s ∉ ss) : s.field c' = s.field c := by
  generalize hr : Except.ok c' = r at h
  induction h with
  | done c => rw [Except.ok.inj hr]
  | unset _ _ ih => exact ih (List.not_mem_of_not_mem_cons hs) hr
  | set _ _ _ ih =>
    -- the rule is for another setting
    have hne : s ≠ _ := List.ne_of_not_mem_cons hs
    exact (ih (List.not_mem_of_not_mem_cons hs) hr).trans (Setting.field_put_of_ne hne _ _)
  | stop _ _ _ => cases hr

/-- The value of a setting by its own text: what the text gives, or else what it was before. -/
def Given (lookup : String → Option String) (s : Setting) (old new : s.Value) : Prop :=
  match lookup s.name with
  | none => new = old
  | some text => s.Reads text new

/-- … and gives each its own value. -/
theorem Loads.given {c' : Config} (h : Loads lookup ss c asked (.ok c')) (hss : ss.Nodup)
    {s : Setting} (hs : s ∈ ss) : Given lookup s (s.field c) (s.field c') := by
  generalize hr : Except.ok c' = r at h
  induction h with
  | done c => cases hs
  | @unset t ss c asked r hnone hrest ih =>
    subst hr
    obtain ⟨ht, hss⟩ := List.nodup_cons.mp hss
    rcases List.mem_cons.mp hs with rfl | hs
    · rw [Given, hnone]
      exact hrest.field_of_not_mem ht
    · exact ih hss hs rfl
  | @set t ss c asked r text v hsome hv hrest ih =>
    subst hr
    obtain ⟨ht, hss⟩ := List.nodup_cons.mp hss
    rcases List.mem_cons.mp hs with rfl | hs
    · -- what comes after it leaves the setting alone
      rw [Given, hsome, hrest.field_of_not_mem ht, Setting.field_put_self]
      exact hv
    · have hne : s ≠ t := fun h => ht (h ▸ hs)
      have hgiven := ih hss hs rfl
      rw [Setting.field_put_of_ne hne] at hgiven
      exact hgiven
  | stop _ _ _ => cases hr

end Loads

/-! ### The settings of a cache -/

/-- **What comes of loading a configuration** from what `lookup` finds: the names `asked` are looked
up, and `r` is the result. -/
structure Loading (lookup : String → Option String) (asked : List String)
    (r : Except ConfigError Config) : Prop where
  /-- The settings are looked up in this order, as far as they are. -/
  inOrder : asked <+:
    ["CACHE_MODE", "CACHE_WARMUP_TTL_SECS", "CACHE_L1_TTL_SECS", "CACHE_L2_TTL_SECS"]
  once : asked.Nodup
  /-- It fails exactly if it looks up one that is set to a text that cannot be read. -/
  fails_iff : (∃ e, r = .error e) ↔ ∃ s : Setting, s.name ∈ asked ∧ Stuck lookup s
  /-- The last that is looked up is then the first such, and it is reported with its text as it
  is. -/
  first : ∀ e, r = .error e → ∃ (before : List Setting) (s : Setting) (text reason : String),
    asked = before.map Setting.name ++ [s.name] ∧ e = .invalidSetting s.name text reason ∧
      lookup s.name = some text ∧ ¬s.Valid text ∧ ∀ s' ∈ before, ¬Stuck lookup s'
  /-- Otherwise all are looked up, and each has the value that its own text gives, or the
  default. -/
  complete : ∀ c, r = .ok c → asked = Setting.all.map Setting.name ∧
    ∀ s : Setting, Given lookup s (s.field {}) (s.field c)

/-- **Loading is ordered, complete, and all or nothing**, whatever is found under the names of the
settings. A text is valid for the mode if it is one of nine names, when it is compared in lower case
and with underscores for hyphens, and valid for a time to live if it is a number of seconds
(`SecsText`); both without the white space around it. -/
theorem loading (lookup : String → Option String) :
    Loading lookup (load lookup).1 (load lookup).2 ∧
    (∀ text, Setting.mode.Valid text ↔ ∃ rest, Text.Trimmed text.toList rest ∧
      String.ofList (rest.map Mode.foldChar) ∈ ["both", "both_levels", "bothlevels", "l1",
        "l1_only", "l1only", "l2", "l2_only", "l2only"]) ∧
    (∀ c, Mode.foldChar c =
      if c = '-' then '_' else if 'A' ≤ c ∧ c ≤ 'Z' then Char.ofNat (c.toNat + 32) else c) ∧
    ∀ s : Setting, s ≠ .mode → ∀ text, s.Valid text ↔
      ∃ rest n, Text.Trimmed text.toList rest ∧ SecsText rest n := by
  have h : Loads lookup Setting.all {} (load lookup).1 (load lookup).2 := loads ..
  have hall (s : Setting) : s ∈ Setting.all := by cases s <;> decide
  have hinit : (load lookup).1 <+: Setting.all.map Setting.name := h.asked_prefix
  refine ⟨⟨hinit, ?_, ?_, ?_, ?_⟩, fun text => Mode.exists_named_iff, Mode.foldChar_eq, ?_⟩
  · -- the four names are different, so a part of their list has none twice
    have hnames : (Setting.all.map Setting.name).Nodup := by decide
    exact hnames.sublist hinit.sublist
  · constructor
    · rintro ⟨e, he⟩
      rw [he] at h
      obtain ⟨before, s, after, text, reason, -, hasked, -, htext, hinvalid, -⟩ := h.of_error
      exact ⟨s, by rw [hasked]; exact List.mem_concat_self, text, htext, hinvalid⟩
    · rintro ⟨s, -, hstuck⟩
      -- a loading without an error has found nothing that cannot be read
      cases hr : (load lookup).2 with
      | error e => exact ⟨e, rfl⟩
      | ok c =>
        rw [hr] at h
        exact absurd hstuck (h.of_ok.2 s (hall s))
  · intro e he
    rw [he] at h
    obtain ⟨before, s, after, text, reason, -, hrest⟩ := h.of_error
    exact ⟨before, s, text, reason, hrest⟩
  · intro c hc
    rw [hc] at h
    exact ⟨h.of_ok.1, fun s => h.given (by decide) (hall s)⟩
  · intro s hs text
    cases s with
    | mode => exact absurd rfl hs
    | warmupTtl | l1Ttl | l2Ttl => exact SecsText.exists_names_iff

/-- The first text that cannot be read ends the loading, and is reported as it is; another one after
it is not looked at. -/
example :
    let found : TextMap String := .ofList
      [("CACHE_MODE", " L2-Only "), ("CACHE_L1_TTL_SECS", " -1 "), ("CACHE_L2_TTL_SECS", "soon")]
    load found.find? =
      (["CACHE_MODE", "CACHE_WARMUP_TTL_SECS", "CACHE_L1_TTL_SECS"],
        .error (.invalidSetting "CACHE_L1_TTL_SECS" " -1 " "invalid digit found in string")) := by
  decide

end Config

end TwoTier
