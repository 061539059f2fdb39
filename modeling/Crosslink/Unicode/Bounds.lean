/-!
# Character sets as boundary lists

A set of code points is kept as the increasing list of the places where
membership changes: the first bound opens a range, the second closes it,
and so on. `within` reads such a list. The tables of the sibling modules
(`White`, `Alphanumeric`, `Case`) are all of this form.
-/

namespace Crosslink.Unicode

/-- Membership flips at every bound that is at most `n`. -/
def within : List Nat → Nat → Bool
  | [], _ => false
  | bound :: bounds, n => if n < bound then false else !within bounds n

end Crosslink.Unicode
