/-
A SHA-1 hasher that takes its message in parts: whole blocks are absorbed as
they fill, the rest is kept until more octets come or the digest is asked for.
-/
import UpgradeBridge.Digest.Sha1

namespace UpgradeBridge.Sha1

/-- A hasher in the middle of a message. -/
structure Hasher where
  /-- The chaining words after the whole blocks seen so far. -/
  chain : Chain := Chain.initial
  /-- The octets after the last whole block. -/
  pending : Bytes := []
  /-- How many octets were taken in. -/
  length : Nat := 0

namespace Hasher

/-- Takes in more octets. -/
def update (h : Hasher) (bytes : Bytes) : Hasher :=
  let (chain, pending) := absorb h.chain (h.pending ++ bytes)
  { chain, pending, length := h.length + bytes.length }

/-- The digest of everything taken in. -/
def finalize (h : Hasher) : Bytes :=
  (absorb h.chain (h.pending ++ padding h.length)).1.output

end Hasher

end UpgradeBridge.Sha1
