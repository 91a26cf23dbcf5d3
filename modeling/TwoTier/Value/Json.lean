import TwoTier.Decimal.Binary64
import TwoTier.TextMap

/-!
# Free-form values

`Json` is a value without a fixed form. Its integers are those of 64 bits, signed or not; a number
outside of that range, or with a fraction or an exponent, is a double. The entries of an object
stand in ascending order of their keys (`Json.Canonical`); `Json.ofMap` builds such objects.
-/

namespace TwoTier

/-- A value without a fixed form. -/
inductive Json where
  | null
  | bool (b : Bool)
  | int (i : Int)
  | float (x : Binary64)
  | text (s : String)
  | array (items : List Json)
  | object (entries : List (String × Json))
deriving Inhabited

namespace Json

/-- The object with the entries of a map. -/
def ofMap (m : TextMap Json) : Json := .object m.entries

/-- The object with the given entries, of which the last wins among those with one key. -/
def ofEntries (l : List (String × Json)) : Json := ofMap (TextMap.ofList l)

/-! ### Depth and canonical form -/

mutual
/-- How deep arrays and objects nest; a scalar has depth zero. -/
def depth : Json → Nat
  | .array items => depthItems items + 1
  | .object entries => depthEntries entries + 1
  | _ => 0
/-- The greatest depth among the items of an array. -/
def depthItems : List Json → Nat
  | [] => 0
  | v :: vs => max v.depth (depthItems vs)
/-- The greatest depth among the values of an object. -/
def depthEntries : List (String × Json) → Nat
  | [] => 0
  | (_, v) :: es => max v.depth (depthEntries es)
end

/-- The integers that a free-form value holds as such. -/
def InRange (i : Int) : Prop := -0x8000000000000000 ≤ i ∧ i ≤ 0xffffffffffffffff

instance (i : Int) : Decidable (InRange i) := inferInstanceAs (Decidable (_ ∧ _))

mutual
/-- Integers in range, and every object with its keys ascending. -/
def Canonical : Json → Prop
  | .int i => InRange i
  | .array items => CanonicalItems items
  | .object entries => (entries.Pairwise fun a b => a.1 < b.1) ∧ CanonicalEntries entries
  | _ => True
/-- Every item is canonical. -/
def CanonicalItems : List Json → Prop
  | [] => True
  | v :: vs => v.Canonical ∧ CanonicalItems vs
/-- Every value is canonical. -/
def CanonicalEntries : List (String × Json) → Prop
  | [] => True
  | (_, v) :: es => v.Canonical ∧ CanonicalEntries es
end

mutual
/-- No double occurs in the value. -/
def FloatFree : Json → Prop
  | .float _ => False
  | .array items => FloatFreeItems items
  | .object entries => FloatFreeEntries entries
  | _ => True
/-- No double occurs in the items. -/
def FloatFreeItems : List Json → Prop
  | [] => True
  | v :: vs => v.FloatFree ∧ FloatFreeItems vs
/-- No double occurs in the values. -/
def FloatFreeEntries : List (String × Json) → Prop
  | [] => True
  | (_, v) :: es => v.FloatFree ∧ FloatFreeEntries es
end

/-! ### Access -/

/-- The value under a key of an object. -/
def field? (key : String) : Json → Option Json
  | .object entries => (entries.find? fun e => e.1 == key).map (·.2)
  | _ => none

end Json

end TwoTier
