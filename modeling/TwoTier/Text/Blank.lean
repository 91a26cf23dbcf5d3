/-!
# White space

The white space of Unicode: the twenty-five characters with the property `White_Space`. Settings are
read without the white space around them (`trimBlank`).
-/

namespace TwoTier.Text

/-- The characters with the property `White_Space`, as ranges of codes. -/
def blankRanges : List (Nat × Nat) :=
  [(0x9, 0xd), (0x20, 0x20), (0x85, 0x85), (0xa0, 0xa0), (0x1680, 0x1680), (0x2000, 0x200a),
    (0x2028, 0x2029), (0x202f, 0x202f), (0x205f, 0x205f), (0x3000, 0x3000)]

/-- Whether a character is white space. -/
def isBlank (c : Char) : Bool := blankRanges.any fun r => r.1 ≤ c.toNat && c.toNat ≤ r.2

/-- The characters without the white space at both ends. -/
def trimBlank (cs : List Char) : List Char :=
  ((cs.dropWhile isBlank).reverse.dropWhile isBlank).reverse

end TwoTier.Text
