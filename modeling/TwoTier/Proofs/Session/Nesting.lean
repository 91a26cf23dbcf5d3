import TwoTier.Proofs.Codec.JsonText.FreeForm
import TwoTier.Proofs.Codec.RoundTrip
import TwoTier.Proofs.Session.Coherence
import TwoTier.Proofs.Session.Unreadable

/-!
# Free-form values that nest too deep

JSON text is written of free-form values of any depth, but only arrays and objects that nest up to
`JsonText.maxDepth` deep are read. So values without doubles come back exactly if they nest no
deeper (`Codec.deserialize_writeJson`), and a manager with this codec swallows all others
(`Manager.swallows_deep_json`).
-/

namespace TwoTier

/-! ### The codec -/

namespace Codec

variable {v : Json}

theorem serialize_json (v : Json) :
    jsonText.serialize .json v = .ok (JsonText.writeJson v) := rfl

/-- Up to the greatest depth, a value is read back, … -/
theorem deserialize_writeJson (hc : v.Canonical) (hf : v.FloatFree) (hd : v.depth ≤ 127) :
    jsonText.deserialize .json (JsonText.writeJson v) = .ok v := by
  have htakes := (JsonText.takes_json v hc hf JsonText.maxDepth hd).takes
  exact jsonText_of_takes htakes

/-- … and beyond it what was written is malformed. -/
theorem deserialize_writeJson_of_lt (hc : v.Canonical) (hf : v.FloatFree) (hd : 127 < v.depth) :
    jsonText.deserialize .json (JsonText.writeJson v) = .error (.ofJsonText .malformed) := by
  have hrun := (JsonText.refuses_json v hc hf JsonText.maxDepth hd).refuses.run_self
  simp only [jsonText, JsonText.read, JsonText.reader, hrun]
  rfl

end Codec

/-! ### A value of any depth -/

/-- Nothing, within the given number of arrays. -/
def Json.nested : Nat → Json
  | 0 => .null
  | n + 1 => .array [nested n]

namespace Json

/-- Its depth is as given. -/
theorem depth_nested (n : Nat) : (nested n).depth = n := by
  induction n with
  | zero => rfl
  | succ n ih => rw [nested, depth, depthItems, depthItems, ih, Nat.max_zero]

/-- It has no object, and so no keys out of order. -/
theorem canonical_nested (n : Nat) : (nested n).Canonical := by
  induction n with
  | zero => trivial
  | succ n ih => exact ⟨ih, trivial⟩

/-- It has no double. -/
theorem floatFree_nested (n : Nat) : (nested n).FloatFree := by
  induction n with
  | zero => trivial
  | succ n ih => exact ⟨ih, trivial⟩

end Json

/-! ### The manager -/

namespace Manager

/-- **Nesting in JSON text.** Every free-form value without doubles has an encoding. It is read back
as that value exactly if arrays and objects nest in it up to 127 deep, and else the encoding is
malformed. So a manager takes values that nest deeper, and every read of one fails. -/
theorem swallows_deep_json :
    (∀ v : Json, v.Canonical → v.FloatFree → ∃ p, Codec.jsonText.serialize .json v = .ok p ∧
      (Codec.jsonText.deserialize .json p = .ok v ↔ v.depth ≤ 127) ∧
      (127 < v.depth →
        Codec.jsonText.deserialize .json p = .error (.ofJsonText .malformed))) ∧
    ∀ m : Manager, m.Created → m.codec = Codec.jsonText →
      ∀ v : Json, v.Canonical → v.FloatFree → 127 < v.depth →
        m.Swallows ⟨.json, v⟩ (.deserialization "serde_json" (.ofJsonText .malformed)) := by
  constructor
  · intro v hc hf
    have hdeep := Codec.deserialize_writeJson_of_lt hc hf
    refine ⟨_, Codec.serialize_json v, ⟨fun hok => ?_, Codec.deserialize_writeJson hc hf⟩, hdeep⟩
    -- what is too deep has a fault instead
    refine Nat.not_lt.mp fun hlt => ?_
    rw [hdeep hlt] at hok
    cases hok
  · intro m hm hcodec v hc hf hd
    -- taken by the codec, but malformed to it afterwards
    have hu : Typed.Unreadable m.codec ⟨.json, v⟩ (.ofJsonText .malformed) := by
      rw [hcodec]
      exact ⟨_, Codec.serialize_json v, Codec.deserialize_writeJson_of_lt hc hf hd⟩
    have hs := swallows hm hu
    rwa [hcodec] at hs

/-- Two tiers over JSON text. -/
def textSample : Manager := { sample .bothLevels with codec := Codec.jsonText }

theorem textSample_created : textSample.Created := by
  refine ⟨textSample.l1, textSample.l2, some Codec.jsonText, .ofMode .bothLevels, ?_⟩
  exact create_eq_ok_iff.mpr ⟨_, rfl, checkTiers_eq_ok_iff.mpr (.inl ⟨rfl, rfl⟩), rfl⟩

/-- A write of 128 arrays, one within the other, for one second near and five minutes far, and two
seconds after it. -/
def deepSteps : List Step :=
  [.request (.set .json "k" (.nested 128) { l1Ttl := some (.ofSecs 1) }),
    .clock ⟨⟨2000000000⟩, 2000000000⟩]

/-- Of 127 arrays, one within the other, all are read back; 128 of them are taken and kept, and two
seconds later, when only the record far is left, a read fails. -/
theorem swallows_deep_json_nested :
    (∃ p, Codec.jsonText.serialize .json (.nested 127) = .ok p ∧
      Codec.jsonText.deserialize .json p = .ok (.nested 127)) ∧
    (twoFresh.run textSample (textSample.set .json "k" (.nested 128) {})).1 = .ok () ∧
    ∀ S, Session.run textSample ⟨twoFresh, []⟩ deepSteps = S →
      (S.deployment.run textSample (textSample.get .json "k" {})).1 =
        .error (.deserialization "serde_json" (.ofJsonText .malformed)) := by
  obtain ⟨hcodec, hswallows⟩ := swallows_deep_json
  have hs := hswallows textSample textSample_created rfl (.nested 128) (Json.canonical_nested _)
    (Json.floatFree_nested _) (Nat.lt_of_lt_of_eq (by decide) (Json.depth_nested 128).symm)
  have hdistinct : textSample.Distinct := sample_distinct .bothLevels
  have hplain : Deployment.Hosted Store.Plain textSample twoFresh := twoFresh_hosted .bothLevels
  have hproper : textSample.Proper "k" {} := proper_of_flagless rfl (by decide) rfl
  refine ⟨?_, ?_, fun S hS => ?_⟩
  · obtain ⟨p, hp, hback, -⟩ := hcodec (.nested 127) (Json.canonical_nested _)
      (Json.floatFree_nested _)
    exact ⟨p, hp, hback.mpr (Nat.le_of_eq (Json.depth_nested 127))⟩
  · exact hs.set_hosted hdistinct twoFresh (hplain.imp fun _ h => h.inProcess) "k" {} hproper
  · subst hS
    -- the record far is still live, so the read finds it there and cannot decode it
    exact hs.get_lasting hdistinct twoFresh hplain deepSteps _ rfl ⟨Nat.zero_le _, trivial⟩ "k"
      ⟨"k", ⟨.json, .nested 128⟩, { l1Ttl := some (.ofSecs 1) }, 0⟩ (by rfl) rfl {} hproper .l2 rfl
      rfl (fun _ _ => rfl) (by decide)

end Manager

end TwoTier
