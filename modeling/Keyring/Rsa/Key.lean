import Keyring.Asn1.Lenient
import Keyring.Asn1.Write

/-!
# RSA keys and their encodings

The structures of PKCS #1.  A private key may have more than two primes; the
version number in front says whether it does, but other numbers occur and are kept.

## Main definitions

* `PublicKey`, `PrivateKey` — the keys.
* `PublicKey.read`, `PublicKey.write` — RSAPublicKey.
* `PrivateKey.read`, `PrivateKey.write` — RSAPrivateKey.
-/

namespace Keyring.Rsa

open Asn1

/-- A public key. -/
structure PublicKey where
  modulus : Nat
  /-- The public exponent. -/
  exponent : Nat
  deriving DecidableEq, Repr

/-- The number of bits of a modulus. -/
def PublicKey.bitSize (k : PublicKey) : Nat := bitLength k.modulus

/-- The number of bytes of a modulus. -/
def PublicKey.byteSize (k : PublicKey) : Nat := bytesFor k.bitSize

/-- A prime of a modulus beyond the first two. -/
structure ExtraPrime where
  prime : Nat
  /-- The private exponent modulo the prime less one. -/
  exponent : Nat
  /-- The inverse of the product of the primes before it. -/
  coefficient : Nat
  deriving DecidableEq, Repr

/-- A private key. -/
structure PrivateKey where
  /-- The version number of the encoding it was read from. -/
  version : Int
  modulus : Nat
  /-- The public exponent. -/
  exponent : Nat
  privateExponent : Nat
  /-- The first prime. -/
  p : Nat
  /-- The second prime. -/
  q : Nat
  /-- The private exponent modulo `p - 1`. -/
  dp : Nat
  /-- The private exponent modulo `q - 1`. -/
  dq : Nat
  /-- The inverse of `q` modulo `p`. -/
  qInverse : Nat
  /-- The further primes, if the encoding has a place for them. -/
  others : Option (List ExtraPrime)
  deriving DecidableEq, Repr

/-- The public part of a private key. -/
def PrivateKey.publicKey (k : PrivateKey) : PublicKey := ⟨k.modulus, k.exponent⟩

/-! ### Public keys -/

/-- Reads the two numbers of a public key. -/
def PublicKey.ofParts : List Element → Option PublicKey
  | [n, e] => do
    let (n, _) ← Lenient.take .integer [n]
    let (e, _) ← Lenient.take .integer [e]
    return ⟨← Lenient.unsigned? n, ← Lenient.unsigned? e⟩
  | _ => none

/-- Reads RSAPublicKey; what follows it is ignored. -/
def PublicKey.read (input : Bytes) : Option PublicKey :=
  (Lenient.sequence input).bind PublicKey.ofParts

/-- Writes RSAPublicKey. -/
def PublicKey.write (k : PublicKey) : Bytes :=
  Write.sequence [Write.integer k.modulus, Write.integer k.exponent]

/-! ### Private keys -/

/-- Takes `n` integers, read without sign. -/
def takeNumbers : Nat → List Element → Option (List Nat × List Element)
  | 0, parts => some ([], parts)
  | n + 1, parts => do
    let (e, rest) ← Lenient.take .integer parts
    let v ← Lenient.unsigned? e
    let (more, rest) ← takeNumbers n rest
    return (v :: more, rest)

/-- Reads the three numbers of a further prime. -/
def ExtraPrime.ofElement (e : Element) : Option ExtraPrime := do
  if !Lenient.sameTag .sequence e.tag then none
  match ← takeNumbers 3 (← Lenient.partsOf e) with
  | ([r, d, t], []) => some ⟨r, d, t⟩
  | _ => none

/-- Reads the list of further primes, which may be missing. -/
def readOthers : List Element → Option (Option (List ExtraPrime))
  | [] => some none
  | [e] => do
    if !Lenient.sameTag .sequence e.tag then none
    return some (← (← Lenient.partsOf e).mapM ExtraPrime.ofElement)
  | _ => none

/-- Reads the parts of a private key; version one promises further primes. -/
def PrivateKey.ofParts (parts : List Element) : Option PrivateKey := do
  let (v, rest) ← Lenient.take .integer parts
  let version ← Lenient.small? v
  let (numbers, rest) ← takeNumbers 8 rest
  let others ← readOthers rest
  if version = 1 && (others.getD []).isEmpty then none
  match numbers with
  | [n, e, d, p, q, dp, dq, qInv] => some ⟨version, n, e, d, p, q, dp, dq, qInv, others⟩
  | _ => none

/-- Reads RSAPrivateKey; what follows it is ignored. -/
def PrivateKey.read (input : Bytes) : Option PrivateKey :=
  (Lenient.sequence input).bind PrivateKey.ofParts

/-- Writes a further prime. -/
def ExtraPrime.write (x : ExtraPrime) : Bytes :=
  Write.sequence [Write.integer x.prime, Write.integer x.exponent, Write.integer x.coefficient]

/-- Writes RSAPrivateKey under a version number. -/
def PrivateKey.writeAs (k : PrivateKey) (version : Int) (others : Option (List ExtraPrime)) :
    Bytes :=
  Write.sequence <|
    [Write.signed version] ++
    ([k.modulus, k.exponent, k.privateExponent, k.p, k.q, k.dp, k.dq, k.qInverse].map
      Write.integer) ++
    (others.toList.map fun xs => Write.sequence (xs.map ExtraPrime.write))

/-- Writes RSAPrivateKey under the version number it was read with. -/
def PrivateKey.writeKept (k : PrivateKey) : Bytes := k.writeAs k.version k.others

/-- Writes RSAPrivateKey: version zero, or one with further primes. -/
def PrivateKey.write (k : PrivateKey) : Bytes :=
  match k.others with
  | some (x :: xs) => k.writeAs 1 (some (x :: xs))
  | _ => k.writeAs 0 none

end Keyring.Rsa
