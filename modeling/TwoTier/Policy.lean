import TwoTier.Text.Blank
import TwoTier.Text.Outline

/-!
# Which tiers take part

A cache has up to two **tiers**: `l1` in the process, `l2` shared. Its **mode** says which of them
an operation touches unless the call says otherwise, and the **targets** of a call are what comes
out of the two:

* `Mode.targets` is the mode's own choice;
* `Mode.resolve` replaces the choice for a tier by the call's flag for it, where there is one;
* `Mode.warms` says when a hit in `l2` is copied into `l1`.

`Mode.parse` reads the names that a mode has in settings.
-/

namespace TwoTier

/-- One of the two tiers. -/
inductive Tier where
  /-- In the process. -/
  | l1
  /-- Shared. -/
  | l2
deriving DecidableEq, Repr

/-- The name of a tier. -/
def Tier.name : Tier → String
  | .l1 => "L1"
  | .l2 => "L2"

/-- Both tiers, in the order in which they are read. -/
def Tier.all : List Tier := [.l1, .l2]

/-! ### Targets -/

/-- The tiers that an operation touches. -/
structure Targets where
  l1 : Bool
  l2 : Bool
deriving DecidableEq, Repr

namespace Targets

/-- Whether an operation touches a tier. -/
def contains (t : Targets) : Tier → Bool
  | .l1 => t.l1
  | .l2 => t.l2

/-- Whether an operation touches no tier. -/
def isEmpty (t : Targets) : Bool := !t.l1 && !t.l2

/-- The tiers touched, in the order in which they are read. -/
def toList (t : Targets) : List Tier := Tier.all.filter t.contains

theorem mem_toList {t : Targets} {tier : Tier} : tier ∈ t.toList ↔ t.contains tier = true := by
  cases tier <;> simp [toList, Tier.all]

/-- The targets as an outline. -/
def outline (t : Targets) : Text.Outline :=
  .record "TierTargets" [("l1", .bool t.l1), ("l2", .bool t.l2)]

end Targets

/-! ### Modes -/

/-- Which tiers take part unless a call says otherwise. -/
inductive Mode where
  /-- Both tiers; a hit in `l2` warms `l1`. -/
  | bothLevels
  | l1Only
  | l2Only
deriving DecidableEq, Repr

namespace Mode

instance : Inhabited Mode := ⟨.bothLevels⟩

/-- The name of a mode in messages. -/
def name : Mode → String
  | .bothLevels => "BothLevels"
  | .l1Only => "L1Only"
  | .l2Only => "L2Only"

/-- The tiers that take part in a mode. -/
def targets : Mode → Targets
  | .bothLevels => ⟨true, true⟩
  | .l1Only => ⟨true, false⟩
  | .l2Only => ⟨false, true⟩

/-- The mode that uses one tier only. -/
def only : Tier → Mode
  | .l1 => .l1Only
  | .l2 => .l2Only

/-- The targets of a call: its flag for a tier, where it has one, else the mode's choice. -/
def resolve (m : Mode) (l1 l2 : Option Bool) : Targets :=
  -- the flags go tier by tier: one of them does not turn the other off
  ⟨l1.getD m.targets.l1, l2.getD m.targets.l2⟩

@[simp] theorem resolve_none_none (m : Mode) : m.resolve none none = m.targets := rfl

/-- Whether a hit in `l2` is copied into `l1`: only if both tiers take part by the mode, the call
read `l1`, and had no flag for it. -/
def warms (m : Mode) (t : Targets) (l1 : Option Bool) : Bool :=
  t.l1 && m == .bothLevels && l1.isNone

/-! ### Reading a mode -/

/-- A character of a mode's name as it is compared: ASCII letters in lower case, and an underscore
for a hyphen. -/
def foldChar (c : Char) : Char := if c == '-' then '_' else c.toLower

/-- The text of a mode's name as it is compared. -/
def foldText (s : String) : String := String.ofList ((Text.trimBlank s.toList).map foldChar)

/-- The spellings of the modes. -/
def spellings : List (String × Mode) :=
  -- after folding, so that hyphens are not among them
  [("both", .bothLevels), ("both_levels", .bothLevels), ("bothlevels", .bothLevels),
    ("l1", .l1Only), ("l1_only", .l1Only), ("l1only", .l1Only),
    ("l2", .l2Only), ("l2_only", .l2Only), ("l2only", .l2Only)]

/-- The mode with the given name; white space around it, the case of ASCII letters, and the choice
between hyphen and underscore do not matter. -/
def parse (s : String) : Except String Mode :=
  match spellings.lookup (foldText s) with
  | some m => .ok m
  | none => .error ("unknown cache mode '" ++ foldText s ++ "'")

end Mode

end TwoTier
