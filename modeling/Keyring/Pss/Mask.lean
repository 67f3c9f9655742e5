import Keyring.Hash.Algorithm

/-!
# The mask generation function MGF1

A mask is the concatenation of the hashes of a seed followed by a counter in
four bytes, cut to the wanted length.  The counter is a 32-bit number: it is
advanced after every block, so a mask of `2 ^ 32` blocks cannot be made.
-/

namespace Keyring.Pss

/-- `n` blocks of the mask, the first under counter value `c`. -/
def maskBlocks (D : DigestFunction) (seed : Bytes) : Nat → Nat → Bytes
  | 0, _ => []
  | n + 1, c => D.hash (seed ++ Bytes.ofNat 4 c) ++ maskBlocks D seed n (c + 1)

/-- The number of blocks a mask of `length` bytes takes. -/
def maskCount (D : DigestFunction) (length : Nat) : Nat := (length + D.length - 1) / D.length

/-- A mask of `length` bytes; none when the counter would run over. -/
def mgf1 (D : DigestFunction) (seed : Bytes) (length : Nat) : Option Bytes :=
  if maskCount D length < twoTo 32 then
    some ((maskBlocks D seed (maskCount D length) 0).take length)
  else none

end Keyring.Pss
