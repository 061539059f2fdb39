import Crosslink.Unicode.Bounds

/-!
# White space

The code points with the Unicode property `White_Space`. Trimming, blank
tests and the patterns of the markup reader all mean this set.
-/

namespace Crosslink.Unicode

/-- Bounds of the property `White_Space`. -/
def whiteBounds : List Nat :=
  [9, 14, 32, 33, 133, 134, 160, 161, 5760, 5761, 8192, 8203, 8232, 8234,
   8239, 8240, 8287, 8288, 12288, 12289]

/-- White space in the sense of Unicode. -/
def isWhite (c : Char) : Bool := within whiteBounds c.toNat

end Crosslink.Unicode
