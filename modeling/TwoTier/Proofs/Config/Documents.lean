import TwoTier.Proofs.Config.Documents.JsonText
import TwoTier.Proofs.Config.Documents.MessagePack
import TwoTier.Proofs.Manager.Lifetimes

/-!
# Configurations from some of their fields

A document may give a configuration in part, and hold more than a configuration. What a codec makes
of its entries does not depend on their order, nor on the entries that are of no setting
(`Codec.ReadsFields`): the settings that have an entry get its value as it is, zeros too, and the
others their defaults. Two entries for one setting are refused, whatever the rest is.

The forms of a document are those of the format, said without a reader: `JsonText.Object` and
`MessagePack.Map`. Both readers gather the entries one after the other (`Given.Gathers`), which is
all that `Codec.ReadsFields` needs (`readsFields_of_gathers`). Zeros go where a cache is created,
and only there (`decode_documents`).
-/

namespace TwoTier

variable {codec : Codec} {es : List (String × Bytes)} {b : Bytes}

/-- **What a codec makes of the entries of a document**, as a configuration. -/
structure Codec.ReadsFields (codec : Codec) (es : List (String × Bytes)) (b : Bytes) : Prop where
  /-- With one value at most for each setting, the settings that have an entry get its value, and
  the others their defaults. -/
  decoded : (∀ s : Setting, (es.map Prod.fst).count s.storedName ≤ 1) →
    (∀ e ∈ es, ∀ s : Setting, e.1 = s.storedName → ∃ v, codec.ReadsAlone s e.2 v) →
    ∃ c, codec.deserialize Config.shape b = .ok c ∧ ∀ s : Setting,
      (∀ e ∈ es, e.1 = s.storedName → codec.ReadsAlone s e.2 (s.field c)) ∧
      ((∀ e ∈ es, e.1 ≠ s.storedName) → s.field c = s.field {})
  /-- Two entries for one setting are refused. -/
  refused : ∀ s : Setting, 1 < (es.map Prod.fst).count s.storedName →
    ∃ e, codec.deserialize Config.shape b = .error e

/-- The configuration is the only one with the values of the entries, and the defaults of the other
settings. -/
theorem Codec.ReadsFields.deserialize_eq (h : codec.ReadsFields es b)
    (hcount : ∀ s : Setting, (es.map Prod.fst).count s.storedName ≤ 1) {c : Config}
    (hvalue : ∀ e ∈ es, ∀ s : Setting, e.1 = s.storedName → codec.ReadsAlone s e.2 (s.field c))
    (hdefault : ∀ s : Setting, (∀ e ∈ es, e.1 ≠ s.storedName) → s.field c = s.field {}) :
    codec.deserialize Config.shape b = .ok c := by
  obtain ⟨c', hc', hfields⟩ := h.decoded hcount fun e he s hs => ⟨_, hvalue e he s hs⟩
  -- two configurations with the same value for every setting are the same
  have heq : c' = c := Setting.eq_of_field_eq fun s => by
    by_cases hs : ∃ e ∈ es, e.1 = s.storedName
    · obtain ⟨e, he, hes⟩ := hs
      exact Except.ok.inj (((hfields s).1 e he hes).symm.trans (hvalue e he s hes))
    · have hnone : ∀ e ∈ es, e.1 ≠ s.storedName := fun e he hes => hs ⟨e, he, hes⟩
      exact ((hfields s).2 hnone).trans (hdefault s hnone).symm
  rw [← heq, hc']

/-- A reader that gathers the entries makes that of them. -/
theorem Codec.readsFields_of_gathers
    (hgathers : ∀ g, Given.Gathers codec.ReadsAlone .nothing es g →
      codec.deserialize Config.shape b = .ok g.config)
    (hdecodes : ∀ c, codec.deserialize Config.shape b = .ok c →
      ∃ g, Given.Gathers (fun _ _ _ => True) .nothing es g) : codec.ReadsFields es b where
  decoded hcount hvalues := by
    -- without a setting twice, and with values that can be read, the entries can be gathered
    have hgiven : ∃ g, Given.Gathers codec.ReadsAlone .nothing es g :=
      Given.exists_gathers_iff.mpr ⟨hcount, hvalues⟩
    obtain ⟨g, hg⟩ := hgiven
    refine ⟨g.config, hgathers g hg, fun s => ⟨fun e he hs => ?_, fun hs => ?_⟩⟩
    · obtain ⟨v, hv, hread⟩ := hg.of_mem he hs
      rw [g.field_config, hv]
      exact hread
    · rw [g.field_config, hg.of_not_mem hs]
      rfl
  refused s hs := by
    cases h : codec.deserialize Config.shape b with
    | error e => exact ⟨e, rfl⟩
    | ok c =>
      -- what was decoded was gathered, so no setting came twice
      obtain ⟨hcount, -⟩ := Given.exists_gathers_iff.mp (hdecodes c h)
      exact absurd (hcount s) (Nat.not_le_of_lt hs)

/-- **JSON objects** are read by their fields. -/
theorem JsonText.Object.readsFields (h : Object es b) : Codec.jsonText.ReadsFields es b :=
  Codec.readsFields_of_gathers (fun _ => h.deserialize_of_gathers) fun _ => h.gathers_of_deserialize

/-- **MessagePack maps** are read by their fields. -/
theorem MessagePack.Map.readsFields (h : Map es b) : Codec.messagePack.ReadsFields es b :=
  Codec.readsFields_of_gathers (fun _ => h.deserialize_of_gathers) fun _ => h.gathers_of_deserialize

namespace Config

/-- **Documents that give a configuration in part.** Every JSON object, with white space wherever
the format has it and values of any depth under the names that are of no setting, and every
MessagePack map, with such values within the depth limit, are read by their fields. A cache has the
mode that is configured, and the times to live but for zeros, which are five minutes there. -/
theorem decode_documents :
    (∀ es b, JsonText.Object es b → Codec.jsonText.ReadsFields es b) ∧
      (∀ es b, MessagePack.Map es b → Codec.messagePack.ReadsFields es b) ∧
      ∀ l1 l2 codec (c : Config) m, (Manager.create l1 l2 codec c).1 = .ok m →
        m.mode = c.mode ∧ m.warmupTtl = c.warmupTtl.orDefault ∧
          ∀ i, m.fallbackTtl i = (c.fallbackTtl i).orDefault := by
  refine ⟨fun es b h => h.readsFields, fun es b h => h.readsFields, fun l1 l2 codec c m hc => ?_⟩
  refine ⟨?_, Manager.warmupTtl_of_create hc, Manager.fallbackTtl_of_create hc⟩
  obtain ⟨_, -, -, rfl⟩ := Manager.create_eq_ok_iff.mp hc
  rfl

end Config

/-! ### A sample -/

/-- The configuration of the samples. -/
def sampleConfig : Config := { mode := .l2Only, warmupTtl := .zero }

/-- A mode, something else, and a zero. -/
theorem Codec.ReadsFields.deserialize_sample {m x w : Bytes}
    (h : codec.ReadsFields [("mode", m), ("extra", x), ("warmup_ttl", w)] b)
    (hm : codec.ReadsAlone .mode m Mode.l2Only)
    (hw : codec.ReadsAlone .warmupTtl w Duration.zero) :
    codec.deserialize Config.shape b = .ok sampleConfig := by
  refine h.deserialize_eq (fun s => ?_) (fun e he s hs => ?_) fun s hs => ?_
  · have hnames (s : Setting) : ["mode", "extra", "warmup_ttl"].count s.storedName ≤ 1 := by
      cases s <;> decide
    exact hnames s
  · simp only [List.mem_cons, List.not_mem_nil, or_false] at he
    -- the mode, something of no setting, and a zero
    rcases he with rfl | rfl | rfl
    · obtain rfl : Setting.mode = s := Setting.storedName_inj hs
      exact hm
    · have hne : "extra" ≠ s.storedName := by cases s <;> decide
      exact absurd hs hne
    · obtain rfl : Setting.warmupTtl = s := Setting.storedName_inj hs
      exact hw
  · cases s with
    | mode => exact absurd rfl (hs _ List.mem_cons_self)
    | warmupTtl => exact absurd rfl (hs ("warmup_ttl", w) (by simp))
    | l1Ttl | l2Ttl => rfl

namespace JsonText

theorem names_mode : Names (Bytes.ofText "\"mode\"") "mode" := by
  unfold Names
  decide +kernel

theorem readsAlone_mode :
    Codec.jsonText.ReadsAlone .mode (Bytes.ofText " \"l2_only\"") Mode.l2Only := by
  show Codec.jsonText.deserialize Mode.shape _ = .ok Mode.l2Only
  decide +kernel

theorem readsAlone_zero : Codec.jsonText.ReadsAlone .warmupTtl
    (Bytes.ofText "\x7b\"secs\":0,\"nanos\":0\x7d ") Duration.zero := by
  show Codec.jsonText.deserialize Duration.shape _ = .ok Duration.zero
  decide +kernel

/-- An array of an object and a word. -/
theorem document_extra : Document (Bytes.ofText "[\x7b\x7d, null]") := by
  have hobject : Value (Bytes.ofText "\x7b\x7d, null]") (Bytes.ofText ", null]") :=
    .empty .object (.nil _)
  have hnull : Value (Bytes.ofText " null]") (Bytes.ofText "]") :=
    .blank (by decide) (.word (w := "null") (by decide) _)
  have htail : Tail .array (Bytes.ofText ", null]") [] :=
    .comma (u := Bytes.ofText " null]") (.nil _) (.part (.array _) hnull (.close (.nil _)))
  exact ⟨[], .parts .array (.part (.array _) hobject htail), .nil _⟩

/-- An object with two settings and something else, … -/
def sample : Bytes := Bytes.ofText <|
  " \x7b\"mode\": \"l2_only\", \"extra\":[\x7b\x7d, null]," ++
    "\"warmup_ttl\":\x7b\"secs\":0,\"nanos\":0\x7d \x7d"

/-- … and its entries. -/
def sampleEntries : List (String × Bytes) :=
  [("mode", Bytes.ofText " \"l2_only\""), ("extra", Bytes.ofText "[\x7b\x7d, null]"),
    ("warmup_ttl", Bytes.ofText "\x7b\"secs\":0,\"nanos\":0\x7d ")]

/-- The sample is an object, whoever reads it. -/
theorem object_sample : Object sampleEntries sample := by
  have hextra : Names (Bytes.ofText " \"extra\"") "extra" := by
    unfold Names
    decide +kernel
  have hwarmup : Names (Bytes.ofText "\"warmup_ttl\"") "warmup_ttl" := by
    unfold Names
    decide +kernel
  -- from the last entry back, each with its comma
  have hlast := Members.one hwarmup (document_of_readsAlone readsAlone_zero)
  have hmembers := Members.more names_mode (document_of_readsAlone readsAlone_mode)
    (.more hextra document_extra hlast)
  exact .members (t := []) ⟨[Bytes.ascii ' '], by decide +kernel, List.forall_mem_singleton.mpr rfl⟩
    hmembers (.nil _)

/-- An object with one setting twice, … -/
def twice : Bytes := Bytes.ofText "\x7b\"mode\": \"l2_only\",\"mode\": \"l2_only\"\x7d"

/-- … and its entries. -/
def twiceEntries : List (String × Bytes) :=
  [("mode", Bytes.ofText " \"l2_only\""), ("mode", Bytes.ofText " \"l2_only\"")]

/-- So is the one with a setting twice: it is the reader that refuses it. -/
theorem object_twice : Object twiceEntries twice := by
  have hvalue := document_of_readsAlone readsAlone_mode
  have hmembers := Members.more names_mode hvalue (.one names_mode hvalue)
  exact .members (t := []) ⟨[], by decide +kernel, List.forall_mem_nil _⟩ hmembers (.nil _)

end JsonText

namespace MessagePack

theorem names_mode : Names (0xa4 :: Bytes.ofText "mode") "mode" :=
  ⟨.text (w := Bytes.ofText "mode") (.text (by decide)), by decide +kernel⟩

theorem packed_mode : Packed (maxDepth - 1) (0xa7 :: Bytes.ofText "l2_only") :=
  .text (w := Bytes.ofText "l2_only") (.text (by decide))

/-- A map with two settings and something else, … -/
def sample : Bytes :=
  0x83 :: 0xa4 :: Bytes.ofText "mode" ++ 0xa7 :: Bytes.ofText "l2_only" ++
    0xa5 :: Bytes.ofText "extra" ++ [0x92, 0x80, 0xc0] ++
    0xaa :: Bytes.ofText "warmup_ttl" ++ [0x92, 0, 0]

/-- … and its entries. -/
def sampleEntries : List (String × Bytes) :=
  [("mode", 0xa7 :: Bytes.ofText "l2_only"), ("extra", [0x92, 0x80, 0xc0]),
    ("warmup_ttl", [0x92, 0, 0])]

/-- The sample is a map. -/
theorem map_sample : Map sampleEntries sample := by
  have hextra : Names (0xa5 :: Bytes.ofText "extra") "extra" :=
    ⟨.text (w := Bytes.ofText "extra") (.text (by decide)), by decide +kernel⟩
  have hwarmup : Names (0xaa :: Bytes.ofText "warmup_ttl") "warmup_ttl" :=
    ⟨.text (w := Bytes.ofText "warmup_ttl") (.text (by decide)), by decide +kernel⟩
  -- an array of a map and nil, and one of two zeros
  have hempty : Packed 1021 ([0x80] ++ [].flatten) := .map (n := 0) (.map (by decide)) rfl nofun
  have hvalue : Packed (1021 + 1) ([0x92] ++ [[0x80], [0xc0]].flatten) :=
    .array (.array (by decide)) <| by simpa using ⟨hempty, .single (by decide)⟩
  have hzero : Packed (1021 + 1) ([0x92] ++ [[0], [0]].flatten) :=
    .array (.array (by decide)) <| by simpa using .single (by decide)
  have hpairs := Pairs.cons names_mode packed_mode (.cons hextra hvalue (.cons hwarmup hzero .nil))
  exact Map.intro (h := [0x83]) (.map (n := 3) (by decide)) hpairs

/-- A map with one setting twice, … -/
def twice : Bytes :=
  0x82 :: 0xa4 :: Bytes.ofText "mode" ++ 0xa7 :: Bytes.ofText "l2_only" ++
    0xa4 :: Bytes.ofText "mode" ++ 0xa7 :: Bytes.ofText "l2_only"

/-- … and its entries. -/
def twiceEntries : List (String × Bytes) :=
  [("mode", 0xa7 :: Bytes.ofText "l2_only"), ("mode", 0xa7 :: Bytes.ofText "l2_only")]

/-- So is the one with a setting twice. -/
theorem map_twice : Map twiceEntries twice := by
  have hpairs := Pairs.cons names_mode packed_mode (.cons names_mode packed_mode .nil)
  exact Map.intro (h := [0x82]) (.map (n := 2) (by decide)) hpairs

theorem readsAlone_mode :
    Codec.messagePack.ReadsAlone .mode (0xa7 :: Bytes.ofText "l2_only") Mode.l2Only := by
  show Codec.messagePack.deserialize Mode.shape _ = .ok Mode.l2Only
  decide +kernel

theorem readsAlone_zero :
    Codec.messagePack.ReadsAlone .warmupTtl [0x92, 0, 0] Duration.zero := by
  show Codec.messagePack.deserialize Duration.shape _ = .ok Duration.zero
  decide +kernel

end MessagePack

/-- The samples in both formats, and a cache of what they hold. -/
theorem Config.decode_documents_sample :
    (JsonText.Object JsonText.sampleEntries JsonText.sample ∧
        Codec.jsonText.deserialize Config.shape JsonText.sample = .ok sampleConfig) ∧
      (JsonText.Object JsonText.twiceEntries JsonText.twice ∧
        ∃ e, Codec.jsonText.deserialize Config.shape JsonText.twice = .error e) ∧
      (MessagePack.Map MessagePack.sampleEntries MessagePack.sample ∧
        Codec.messagePack.deserialize Config.shape MessagePack.sample = .ok sampleConfig) ∧
      (MessagePack.Map MessagePack.twiceEntries MessagePack.twice ∧
        ∃ e, Codec.messagePack.deserialize Config.shape MessagePack.twice = .error e) ∧
      let m := Manager.sample .l2Only
      (Manager.create m.l1 m.l2 (some m.codec) sampleConfig).1 = .ok m ∧
        sampleConfig.warmupTtl = .zero ∧ m.warmupTtl = defaultTtl := by
  obtain ⟨hjson, hmap, hcreate⟩ := decode_documents
  have hobject := hjson _ _ JsonText.object_sample
  have hobject' := hjson _ _ JsonText.object_twice
  have hpairs := hmap _ _ MessagePack.map_sample
  have hpairs' := hmap _ _ MessagePack.map_twice
  refine ⟨⟨JsonText.object_sample, ?_⟩, ⟨JsonText.object_twice, ?_⟩,
    ⟨MessagePack.map_sample, ?_⟩, ⟨MessagePack.map_twice, ?_⟩, ?_⟩
  · exact hobject.deserialize_sample JsonText.readsAlone_mode JsonText.readsAlone_zero
  · exact hobject'.refused .mode (by decide)
  · exact hpairs.deserialize_sample MessagePack.readsAlone_mode MessagePack.readsAlone_zero
  · exact hpairs'.refused .mode (by decide)
  · intro m
    have hc : (Manager.create m.l1 m.l2 (some m.codec) sampleConfig).1 = .ok m := rfl
    obtain ⟨-, hwarmup, -⟩ := hcreate _ _ _ _ _ hc
    exact ⟨hc, rfl, hwarmup.trans (if_pos (by decide))⟩

end TwoTier
