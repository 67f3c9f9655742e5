import Keyring.Hash.Algorithm

/-!
# Keys from passwords by iterated keyed hashing

PBKDF2: every block of the key is the exclusive or of a chain of keyed
hashes, the first of the salt and the number of the block.
-/

namespace Keyring.Kdf

/-- Adds `n` more keyed hashes of the chain to `sum`; `u` is the last one. -/
def addHashes {H : MerkleDamgard} (k : H.Keyed) : Nat → Bytes → Bytes → Bytes
  | 0, _, sum => sum
  | n + 1, u, sum =>
    let u := k.mac u
    addHashes k n u (Bytes.xor sum u)

/-- A key of `size` bytes after `iterations` rounds for each block. -/
def pbkdf2 (a : HashAlgorithm) (password salt : Bytes) (iterations size : Nat) : Bytes :=
  let k := a.core.keyed password
  let blocks := (size + a.digestLength - 1) / a.digestLength
  ((List.range blocks).flatMap fun i =>
    let u := k.mac (salt ++ Bytes.ofNat 4 (i + 1))
    addHashes k (iterations - 1) u u).take size

end Keyring.Kdf
