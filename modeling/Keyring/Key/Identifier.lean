import Keyring.Asn1.Oid

/-!
# Identifiers of key algorithms
-/

namespace Keyring.Identifier

/-- RSA keys. -/
def rsaEncryption : Oid := [1, 2, 840, 113549, 1, 1, 1]

/-- RSA keys, as an older standard identifies them. -/
def rsa : Oid := [2, 5, 8, 1, 1]

/-- RSA keys that are for PSS signatures only. -/
def rsaPss : Oid := [1, 2, 840, 113549, 1, 1, 10]

/-- Masks made from a hash function. -/
def mgf1 : Oid := [1, 2, 840, 113549, 1, 1, 8]

/-- The hash functions that parameters may name. -/
def digests : List Oid :=
  [[1, 2, 840, 113549, 2, 4], [1, 2, 840, 113549, 2, 5], [1, 3, 14, 3, 2, 26],
   [1, 3, 36, 3, 2, 1], [1, 0, 10118, 3, 0, 55], [1, 2, 156, 10197, 1, 401],
   [1, 3, 6, 1, 4, 1, 1722, 12, 2, 1, 16], [1, 3, 6, 1, 4, 1, 1722, 12, 2, 2, 8]] ++
    (List.range 12).map fun i => [2, 16, 840, 1, 101, 3, 4, 2, i + 1]

/-- RSA signatures, which stand for their hash function where that is named. -/
def digestSignatures : List Oid :=
  [3, 4, 5, 11, 12, 13, 14, 15, 16].map fun i => [1, 2, 840, 113549, 1, 1, i]

/-- DSA keys. -/
def dsa : Oid := [1, 2, 840, 10040, 4, 1]

/-- Other identifiers under which DSA keys occur. -/
def dsaOthers : List Oid :=
  [[1, 3, 14, 3, 2, 12], [1, 3, 14, 3, 2, 13], [1, 3, 14, 3, 2, 27], [1, 2, 840, 10040, 4, 3]]

/-- EC keys. -/
def ecPublicKey : Oid := [1, 2, 840, 10045, 2, 1]

/-- Diffie-Hellman keys. -/
def dh : Oid := [1, 2, 840, 113549, 1, 3, 1]

/-- Diffie-Hellman keys of groups with a subgroup of prime order. -/
def dhx : Oid := [1, 2, 840, 10046, 2, 1]

/-- Keys of Montgomery and Edwards curves: identifier, name, bytes to a key. -/
def curveKeys : List (Oid × String × Nat) :=
  [([1, 3, 101, 110], "X25519", 32), ([1, 3, 101, 111], "X448", 56),
   ([1, 3, 101, 112], "ED25519", 32), ([1, 3, 101, 113], "ED448", 57)]

end Keyring.Identifier
