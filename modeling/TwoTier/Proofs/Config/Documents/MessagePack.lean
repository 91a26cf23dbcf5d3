import TwoTier.Proofs.Codec.MessagePack.Soundness
import TwoTier.Proofs.Config.Entries

/-!
# Configurations as MessagePack maps

A MessagePack map is given by its entries (`Map`): keys that are texts (`Names`), each with one
value whose arrays, maps and extensions nest within the depth that the map leaves.

* A reader of configurations makes of each key and value what the entry is (`run_configStep`,
  `configStep_sound`).
* So it gathers the entries, one after the other: `Map.deserialize_of_gathers` and
  `Map.gathers_of_deserialize`.
-/

namespace TwoTier.MessagePack

open Reader

/-! ### Maps -/

/-- The bytes are one value, which is read as the text. -/
def Names (k : Bytes) (name : String) : Prop :=
  Packed 0 k ∧ Codec.messagePack.deserialize .text k = .ok name

/-- Entries of a map: keys and values in turn. The map takes one level of the depth. -/
inductive Pairs : List (String × Bytes) → Bytes → Prop
  | nil : Pairs [] []
  | cons {k w m : Bytes} {name : String} {es : List (String × Bytes)} (hk : Names k name)
      (hw : Packed (maxDepth - 1) w) (h : Pairs es m) : Pairs ((name, w) :: es) (k ++ (w ++ m))

/-- **The bytes are a map** with the given entries. -/
inductive Map : List (String × Bytes) → Bytes → Prop
  | intro {es : List (String × Bytes)} {h m : Bytes} (hh : Header .map es.length h)
      (hm : Pairs es m) : Map es (h ++ m)

/-! ### The values of settings -/

section Shape

/-- A token that has a level to spare does not depend on how many, … -/
theorem tokenWithin_succ (d d' : Nat) : tokenWithin (d + 1) = tokenWithin (d' + 1) := by
  unfold tokenWithin
  congr 1

/-- … nor does a value that is one token, … -/
theorem scalar_succ {α : Type} (accept : Token → Option α) (d d' : Nat) :
    scalar (d + 1) accept = scalar (d' + 1) accept := by
  unfold scalar
  rw [tokenWithin_succ d d']

/-- … nor do the entries of a record whose fields have their readers. -/
theorem recordEntries_succ {α S : Type} (names : List String) (row : Row Fault Nat α S) (n : Nat)
    (slots : S) (d d' : Nat) :
    recordEntries true names (d + 1) row n slots =
      recordEntries true names (d' + 1) row n slots := by
  -- an entry is a key, which is one token, and a value, which the row reads
  have hentry (slots : S) :
      recordEntry true names (d + 1) row slots = recordEntry true names (d' + 1) row slots := by
    rw [recordEntry, recordEntry, if_pos rfl, if_pos rfl, text, text, scalar_succ _ d d']
  induction n generalizing slots with
  | zero => rfl
  | succ n ih =>
    unfold recordEntries
    rw [hentry]
    congr 1
    funext slots'
    exact ih slots'

/-- The value of a setting needs two levels, and no more, … -/
theorem reader_shape_succ (s : Setting) (d d' : Nat) :
    reader s.shape (d + 2) = reader s.shape (d' + 2) := by
  -- a mode is the name of a choice
  have hmode : reader Mode.shape (d + 2) = reader Mode.shape (d' + 2) := by
    show Mode.ofIndex <$> choice (d + 2) Mode.storedNames =
      Mode.ofIndex <$> choice (d' + 2) Mode.storedNames
    unfold choice
    rw [scalar_succ _ (d + 1) (d' + 1)]
  -- a time to live is a record of two numbers
  have hduration : reader Duration.shape (d + 2) = reader Duration.shape (d' + 2) := by
    show record true Duration.fields (d + 2) (row Duration.fields) _ =
      record true Duration.fields (d' + 2) (row Duration.fields) _
    rw [record, record, tokenWithin_succ (d + 1) (d' + 1)]
    congr 1
    funext t
    cases t with
    | map n => exact congrArg (· >>= _) (recordEntries_succ _ _ n _ d d')
    | _ => rfl
  cases s with
  | mode => exact hmode
  | warmupTtl | l1Ttl | l2Ttl => exact hduration

/-- … which are there inside the configuration too. -/
theorem reader_shape_inside (s : Setting) :
    reader s.shape (maxDepth - 1) = reader s.shape maxDepth :=
  reader_shape_succ s (maxDepth - 3) (maxDepth - 2)

/-- What is read as the value of a setting is read so with more after it. -/
theorem extends_shape (s : Setting) (d : Nat) : Extends anything (reader s.shape d) := by
  have hmode : Extends anything (reader Mode.shape d) := (extends_choice d _).map _
  have hrow (d : Nat) : (row Duration.fields d).Extends anything :=
    .cons extends_another (.pure ()) (extends_plain _)
      (.cons extends_another (.pure ()) (extends_plain _) .nil)
  have hduration : Extends anything (reader Duration.shape d) := extends_record hrow d _
  cases s with
  | mode => exact hmode
  | warmupTtl | l1Ttl | l2Ttl => exact hduration

/-- What is read as the value of a setting is one whole value. -/
theorem readsValue_shape (s : Setting) (d : Nat) : ReadsValue (d + 1) (reader s.shape (d + 1)) := by
  have hmode : ReadsValue (d + 1) (reader Mode.shape (d + 1)) := by
    intro s m r h
    obtain ⟨i, u, hchoice, hdone⟩ := run_bind_eq_ok.mp h
    cases hdone
    exact readsValue_choice _ (d + 1) d s i r hchoice
  -- a number is no array, map or extension, so it nests in nothing
  have hint {k : IntKind} : ReadsValue d (reader (.int k) d) := by
    refine readsValue_plain (fun t v ht => ?_) d
    cases t with
    | array | map | extension => cases ht
    | _ => rfl
  have hrow : RowSound d (row Duration.fields d) := .cons hint (.cons hint (.nil d))
  have hduration : ReadsValue (d + 1) (reader Duration.shape (d + 1)) := readsValue_record hrow _
  cases s with
  | mode => exact hmode
  | warmupTtl | l1Ttl | l2Ttl => exact hduration

end Shape

/-! ### Keys -/

/-- What is decoded is read, whatever comes after it. -/
theorem deserialize_eq_ok {α : Type} {s : Shape α} {b : Bytes} {v : α} :
    Codec.messagePack.deserialize s b = .ok v ↔ ∃ r, (reader s maxDepth).run b = .ok (v, r) := by
  show (read s b).mapError _ = .ok v ↔ _
  unfold read
  -- decoding passes over what comes after the value
  cases hrun : (reader s maxDepth).run b with
  | error e => exact iff_of_false nofun nofun
  | ok x =>
    obtain ⟨a, r⟩ := x
    constructor
    · intro h
      cases h
      exact ⟨r, rfl⟩
    · rintro ⟨_, ⟨⟩⟩
      rfl

/-- The name of a field is read where a text is. -/
theorem Names.run {k : Bytes} {name : String} (h : Names k name) (d : Nat) (t : Bytes) :
    (fieldName d).run (k ++ t) = .ok (.text name, t) := by
  obtain ⟨hk, hname⟩ := h
  obtain ⟨r, hrun⟩ := deserialize_eq_ok.mp hname
  have hrun' : (text maxDepth).run k = .ok (name, r) := hrun
  obtain ⟨tok, htok, htoken⟩ := token_of_scalar hrun'
  -- the text is all of the key
  have hr : r = [] := by
    rw [← List.append_nil k] at hrun'
    exact hk.left_eq (readsValue_text maxDepth 0) hrun'
  have hinside := extends_token k tok r t htoken fun _ _ _ => rfl
  rw [hr, List.nil_append] at hinside
  rw [fieldName, scalar, run_bind_ok (run_tokenWithin_of_token hinside (flat_text _ _ htok) d)]
  cases tok with
  | text b | binary b =>
    simp only [show Bytes.text? b = some name from htok]
    rfl
  | _ => cases htok

/-! ### Entries -/

section Entries

variable {g : Given} {s k w m t : Bytes} {name : String}

/-- The step through the entries of a configuration. -/
def configStep (slots : Config.fields.Slots) : Reader Fault Config.fields.Slots :=
  recordEntry false (fieldNames Config.fields) (maxDepth - 1)
    (row Config.fields (maxDepth - 1)) slots

/-- At the key of a setting, the step fills its slot; … -/
theorem run_configStep_setting (g : Given) {s : Setting} (hk : Names k s.storedName) (t : Bytes) :
    (configStep g.slots).run (k ++ t) =
      (Fields.fillSlot rowStyle (g s) (reader s.shape (maxDepth - 1))
        fun v => (g.set s v).slots).run t := by
  rw [configStep, recordEntry, if_neg Bool.false_ne_true, run_bind_ok (hk.run _ t), row_eq]
  simp only [fill?_storedName]

/-- … at any other key, it passes over the value. -/
theorem run_configStep_other (g : Given) (hk : Names k name) (hname : name ∉ Config.fields.names)
    (t : Bytes) :
    (configStep g.slots).run (k ++ t) =
      (do skip (maxDepth - 1); pure g.slots : Reader Fault _).run t := by
  rw [configStep, recordEntry, if_neg Bool.false_ne_true, run_bind_ok (hk.run _ t), row_eq]
  simp only [Fields.fill?_eq_none _ _ hname]

/-- **An entry that can be read makes its step**, whatever comes after it. -/
theorem run_configStep {g' : Given} (hstep : Given.Step Codec.messagePack.ReadsAlone g (name, w) g')
    (hk : Names k name) (hw : Packed (maxDepth - 1) w) (t : Bytes) :
    (configStep g.slots).run (k ++ (w ++ t)) = .ok (g'.slots, t) := by
  cases hstep with
  | @setting x _ v hg hv =>
    obtain ⟨r, hrun⟩ := deserialize_eq_ok.mp hv
    rw [← reader_shape_inside x] at hrun
    -- the value is all of the bytes, and so it is with more of them after it
    have hr : r = [] := by
      rw [← List.append_nil w] at hrun
      exact hw.left_eq (readsValue_shape x (maxDepth - 2)) hrun
    have hinside := extends_shape x (maxDepth - 1) w v r t hrun fun _ _ _ => rfl
    rw [hr, List.nil_append] at hinside
    rw [run_configStep_setting g hk, hg, Fields.fillSlot,
      run_bind_ok (show rowStyle.between.run (w ++ t) = .ok ((), w ++ t) from rfl),
      run_bind_ok hinside]
    rfl
  | other hname =>
    rw [run_configStep_other g hk hname, run_bind_ok (hw.takes_skip.run_closed t)]
    rfl

/-- **An entry that makes a step** is of a setting without a value, or of none, and is read to its
end. -/
theorem configStep_sound {slots : Config.fields.Slots} {r : Bytes} (hk : Names k name)
    (hw : Packed (maxDepth - 1) w) (h : (configStep g.slots).run (k ++ (w ++ t)) = .ok (slots, r)) :
    ∃ g', Given.Step (fun _ _ _ => True) g (name, w) g' ∧ slots = g'.slots ∧ r = t := by
  by_cases hname : name ∈ Config.fields.names
  · obtain ⟨x, rfl⟩ := Setting.exists_storedName hname
    rw [run_configStep_setting g hk] at h
    -- a setting that has a value is refused as a duplicate
    cases hg : g x with
    | some v =>
      rw [hg] at h
      cases h
    | none =>
      rw [hg, Fields.fillSlot] at h
      obtain ⟨_, u, hbetween, hread⟩ := run_bind_eq_ok.mp h
      obtain ⟨v, u', hv, hdone⟩ := run_bind_eq_ok.mp hread
      cases hbetween
      cases hdone
      exact ⟨_, .setting hg trivial, rfl, hw.left_eq (readsValue_shape x (maxDepth - 2)) hv⟩
  · rw [run_configStep_other g hk hname, run_bind_ok (hw.takes_skip.run_closed t)] at h
    cases h
    exact ⟨g, .other hname w, rfl, rfl⟩

/-- The loop through the entries of a map. -/
def configLoop (n : Nat) (g : Given) : Reader Fault Config.fields.Slots :=
  recordEntries false (fieldNames Config.fields) (maxDepth - 1)
    (row Config.fields (maxDepth - 1)) n g.slots

/-- **Entries that can be read are read.** -/
theorem Pairs.run_configLoop {es : List (String × Bytes)} (hm : Pairs es m) {g' : Given}
    (hg : Given.Gathers Codec.messagePack.ReadsAlone g es g') :
    (configLoop es.length g).run m = .ok (g'.slots, []) := by
  -- on the entries, from any settings that have a value already
  induction hm generalizing g with
  | nil =>
    cases hg
    rfl
  | @cons k w m name es hk hw hm ih =>
    cases hg with
    | cons hstep hrest =>
      rw [configLoop, List.length_cons, recordEntries]
      exact (run_bind_ok (run_configStep hstep hk hw m)).trans (ih hrest)

/-- **Entries that are read** are of no setting twice. -/
theorem Pairs.configLoop_sound {es : List (String × Bytes)} (hm : Pairs es m)
    {slots : Config.fields.Slots} {r : Bytes}
    (h : (configLoop es.length g).run m = .ok (slots, r)) :
    ∃ g', Given.Gathers (fun _ _ _ => True) g es g' := by
  induction hm generalizing g with
  | nil => exact ⟨g, .nil g⟩
  | @cons k w m name es hk hw hm ih =>
    rw [configLoop, List.length_cons, recordEntries] at h
    obtain ⟨slots', u, hentry, hrest⟩ := run_bind_eq_ok.mp h
    -- the step was one of the entry, and left the bytes after it
    obtain ⟨g₁, hstep, rfl, rfl⟩ := configStep_sound hk hw hentry
    obtain ⟨g', hg'⟩ := ih hrest
    exact ⟨g', .cons hstep hg'⟩

end Entries

/-! ### Configurations -/

section Configs

variable {es : List (String × Bytes)} {b : Bytes}

/-- A configuration that is a map, after the start of the map. -/
theorem run_config {h m : Bytes} {n : Nat} (hh : Header .map n h) :
    (reader Config.shape maxDepth).run (h ++ m) = (do
      let slots ← configLoop n .nothing
      ofOption Fault.mismatched ((Config.fields.collect slots).bind fun f =>
        some (⟨f.1, f.2.1, f.2.2.1, f.2.2.2.1⟩ : Config))).run m := by
  -- the start of the map takes one of the levels
  have hwithin : Takes closed (tokenWithin maxDepth) h (.map n) :=
    takes_tokenWithin (hh.takes_token fun _ => rfl) fun _ => by decide
  rw [Config.shape, reader, record, run_bind_ok (hwithin.run_closed m)]
  rfl

/-- **A map whose entries can be read is decoded** as the configuration that they give. -/
theorem Map.deserialize_of_gathers (h : Map es b) {g : Given}
    (hg : Given.Gathers Codec.messagePack.ReadsAlone .nothing es g) :
    Codec.messagePack.deserialize Config.shape b = .ok g.config := by
  obtain ⟨hh, hm⟩ := h
  refine deserialize_eq_ok.mpr ⟨[], ?_⟩
  rw [run_config hh, run_bind_ok (hm.run_configLoop hg), g.collect_slots]
  rfl

/-- **A map that is decoded** has no setting twice. -/
theorem Map.gathers_of_deserialize (h : Map es b) {c : Config}
    (hc : Codec.messagePack.deserialize Config.shape b = .ok c) :
    ∃ g, Given.Gathers (fun _ _ _ => True) .nothing es g := by
  obtain ⟨hh, hm⟩ := h
  obtain ⟨r, hrun⟩ := deserialize_eq_ok.mp hc
  rw [run_config hh] at hrun
  obtain ⟨slots, u, hloop, -⟩ := run_bind_eq_ok.mp hrun
  exact hm.configLoop_sound hloop

end Configs

end TwoTier.MessagePack
