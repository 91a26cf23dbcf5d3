/-!
# Failures from outside

What a store, an encoding or a loader reports when it fails: a text, and the texts of what led to
it, the outermost first. The cache passes a failure on as it is, and shows its first text.
-/

namespace TwoTier

/-- A failure: what is shown, and what led to it. -/
structure Failure where
  /-- The text shown. -/
  text : String
  /-- The texts of what led to it, the nearest first. -/
  causes : List String := []
deriving DecidableEq, Inhabited, Repr

/-- All texts of a failure, the outermost first. -/
def Failure.chain (f : Failure) : List String := f.text :: f.causes

end TwoTier
