import Keyring.Asn1.Write
import Keyring.Hash.Algorithm
import Keyring.Rsa.Power

/-!
# RSA signatures of PKCS #1 version 1.5

The digest of a message, together with the identifier of the hash algorithm, is
padded with bytes `ff` to a block and raised to the private exponent.

## Main definitions

* `digestInfo` — the digest with its identifier.
* `PrivateKey.sign`, `PublicKey.verify` — signatures of messages.
-/

namespace Keyring.Rsa

open Asn1

/-- The identifier of a hash algorithm. -/
def hashOid : HashAlgorithm → Oid
  | .md5 => [1, 2, 840, 113549, 2, 5]
  | .sha1 => [1, 3, 14, 3, 2, 26]
  | .sha224 => [2, 16, 840, 1, 101, 3, 4, 2, 4]
  | .sha256 => [2, 16, 840, 1, 101, 3, 4, 2, 1]
  | .sha384 => [2, 16, 840, 1, 101, 3, 4, 2, 2]
  | .sha512 => [2, 16, 840, 1, 101, 3, 4, 2, 3]

/-- The digest of a message with the identifier of the algorithm. -/
def digestInfo (a : HashAlgorithm) (m : Bytes) : Bytes :=
  Write.sequence
    [Write.sequence [Write.oid (hashOid a), Write.null], Write.octetString (a.digest m)]

/-- The block of `k` bytes for a digest; it has at least eight bytes of padding. -/
def padDigest (k : Nat) (info : Bytes) : Option Bytes :=
  if k < info.length + 11 then none
  else some ([0, 1] ++ List.replicate (k - 3 - info.length) 0xff ++ [0] ++ info)

/-- Signs a message. -/
def PrivateKey.sign (k : PrivateKey) (a : HashAlgorithm) (m : Bytes) : Option Bytes :=
  (padDigest k.publicKey.byteSize (digestInfo a m)).bind k.applyBlock

/-- Whether a signature is one of the message. -/
def PublicKey.verify (k : PublicKey) (a : HashAlgorithm) (m signature : Bytes) : Bool :=
  match padDigest k.byteSize (digestInfo a m), k.applyBlock signature with
  | some expected, some found => expected == found
  | _, _ => false

end Keyring.Rsa
