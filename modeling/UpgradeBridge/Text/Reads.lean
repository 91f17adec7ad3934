/-
Readers of text: what stands at the front of some characters, and the
characters after it.
-/
namespace UpgradeBridge

/-- Reads an `α` off the front of some characters, or refuses them. -/
abbrev Reads (α : Type) := List Char → Option (α × List Char)

end UpgradeBridge
