import TwoTier.Config
import TwoTier.Value.Shape

/-!
# Shapes of configurations

The layout of a configuration as a stored or exchanged value (`Config.shape`), and of its parts:

* a span of time is a record of seconds and nanoseconds, which has no other fields; nanoseconds
  beyond a second are carried (`Duration.shape`);
* a mode is one of three names (`Mode.shape`);
* a configuration is a record all of whose fields may be missing, and then have their defaults.
-/

namespace TwoTier

/-! ### Durations -/

namespace Duration

/-- The fields of a span of time. -/
def fields : Fields (IntKind.nat64.Value × IntKind.nat32.Value × Unit) :=
  .cons "secs" none (.int .nat64) (.cons "nanos" none (.int .nat32) .nil)

/-- The seconds of a span of time, as an integer of 64 bits. -/
def secsField (d : Duration) : IntKind.nat64.Value :=
  ⟨d.secs, by
    have := d.secs_lt
    simp only [UInt64.size] at this
    simp only [IntKind.least, IntKind.greatest]
    omega⟩

/-- The nanoseconds of a span of time, as an integer of 32 bits. -/
def nanosField (d : Duration) : IntKind.nat32.Value :=
  ⟨d.nanos, by
    have := d.nanos_lt
    simp only [nanosPerSec] at this
    simp only [IntKind.least, IntKind.greatest]
    omega⟩

/-- The layout of a span of time. -/
def shape : Shape Duration :=
  .record true fields (fun f => ofParts? f.1.1.toNat f.2.1.1.toNat)
    (fun d => (d.secsField, d.nanosField, ())) fun d => by simp [secsField, nanosField]

end Duration

/-! ### Modes -/

namespace Mode

/-- The names of the modes in stored values, in the order of their indexes. -/
def storedNames : List String := ["both_levels", "l1_only", "l2_only"]

/-- The mode with an index. -/
def ofIndex : Fin 3 → Mode
  | 0 => .bothLevels
  | 1 => .l1Only
  | 2 => .l2Only

/-- The index of a mode. -/
def index : Mode → Fin 3
  | .bothLevels => 0
  | .l1Only => 1
  | .l2Only => 2

/-- The layout of a mode. -/
def shape : Shape Mode := .choice storedNames ofIndex index fun m => by cases m <;> rfl

end Mode

/-! ### Configurations -/

namespace Config

/-- The fields of a configuration, each with its default. -/
def fields : Fields (Mode × Duration × Duration × Duration × Unit) :=
  .cons "mode" (some .bothLevels) Mode.shape <|
  .cons "warmup_ttl" (some defaultTtl) Duration.shape <|
  .cons "l1_default_ttl" (some defaultTtl) Duration.shape <|
  .cons "l2_default_ttl" (some defaultTtl) Duration.shape .nil

/-- The layout of a configuration. -/
def shape : Shape Config :=
  .record false fields (fun f => some ⟨f.1, f.2.1, f.2.2.1, f.2.2.2.1⟩)
    (fun c => (c.mode, c.warmupTtl, c.l1Ttl, c.l2Ttl, ())) fun _ => rfl

end Config

end TwoTier
