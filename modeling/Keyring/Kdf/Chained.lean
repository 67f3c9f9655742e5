import Keyring.Hash.Algorithm

/-!
# Keys from passwords by a chain of digests

Every digest is that of the digest before it, the password and the salt.
-/

namespace Keyring.Kdf

/-- `n` digests of the chain, `previous` being the one before them. -/
def digestChain (a : HashAlgorithm) (password salt : Bytes) : Nat → Bytes → Bytes
  | 0, _ => []
  | n + 1, previous =>
    let d := a.digest (previous ++ password ++ salt)
    d ++ digestChain a password salt n d

/-- A key of `size` bytes. -/
def chained (a : HashAlgorithm) (password salt : Bytes) (size : Nat) : Bytes :=
  (digestChain a password salt (size / a.digestLength + 1) []).take size

end Keyring.Kdf
