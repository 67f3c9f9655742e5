import Keyring.Bytes

/-!
# Random bytes

An operation that draws random bytes is given all it may draw, as a sequence
without end.  Two calls under the same sequence give the same result.
-/

namespace Keyring

/-- The bytes an operation may draw, in order. -/
abbrev Entropy := Nat → UInt8

namespace Entropy

/-- The first `n` bytes. -/
def bytes (e : Entropy) (n : Nat) : Bytes := (List.range n).map e

@[simp] theorem length_bytes (e : Entropy) (n : Nat) : (e.bytes n).length = n := by simp [bytes]

/-- `n` bytes other than zero. -/
def nonzero (e : Entropy) (n : Nat) : Bytes :=
  (e.bytes n).map fun b => UInt8.ofNat (b.toNat % 255 + 1)

@[simp] theorem length_nonzero (e : Entropy) (n : Nat) : (e.nonzero n).length = n := by
  simp [nonzero]

/-- A number from one to `bound - 1`, drawn from some bytes more than the bound has. -/
def positiveBelow (e : Entropy) (bound : Nat) : Nat :=
  Bytes.value (e.bytes (byteLength bound + 8)) % (bound - 1) + 1

/-- The sequence without its first `n` bytes. -/
def skip (e : Entropy) (n : Nat) : Entropy := fun i => e (n + i)

end Entropy

end Keyring
