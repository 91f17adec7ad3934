/-
Sets of characters given as ranges of code points.
-/
namespace UpgradeBridge

/-- A set of characters: the first and the last code point of each of its runs, in order. -/
abbrev CodePoints := List (Nat × Nat)

/-- The character is in the set. -/
def CodePoints.holds (set : CodePoints) (c : Char) : Bool :=
  set.any fun r => r.1 ≤ c.toNat && c.toNat ≤ r.2

end UpgradeBridge
