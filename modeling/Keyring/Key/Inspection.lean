import Keyring.Asn1.Strict
import Keyring.Key.Identifier
import Keyring.Key.Parameters

/-!
# What a SubjectPublicKeyInfo says of its key

The structure is read strictly, apart from whatever decoded the key before: the
curve of an EC key is taken from the parameters of its algorithm, the modulus of
an RSA key from the bit string.

## Main definitions

* `PublicKeyInfo` — the structure itself, `PublicKeyInfo.read` its reader.
* `curveOf` — the curve of an EC key.
* `modulusOf` — the modulus of an RSA key, without leading zero bytes.
-/

namespace Keyring.Inspection

open Asn1 Asn1.Strict Identifier

/-- The curves that have a name. -/
def curveNames : List (Oid × String) :=
  [([1, 2, 840, 10045, 3, 1, 1], "secp192r1"),
   ([1, 3, 132, 0, 33], "secp224r1"),
   ([1, 2, 840, 10045, 3, 1, 7], "secp256r1"),
   ([1, 3, 132, 0, 34], "secp384r1"),
   ([1, 3, 132, 0, 35], "secp521r1"),
   ([1, 3, 132, 0, 10], "secp256k1")]

/-- The name of a curve: that of the table, or its dotted identifier. -/
def curveName (o : Oid) : String := (curveNames.lookup o).getD o.text

/-- A public key with its algorithm. -/
structure PublicKeyInfo where
  algorithm : Oid
  /-- The whole encoding of the algorithm's parameters, if there are any. -/
  parameters : Option Bytes
  /-- The key itself. -/
  key : Bytes

/-- The parameters of an algorithm: at most one element of any kind. -/
def readParameters (input : Bytes) : Option (Option Bytes) :=
  if input.isEmpty then some none else (single input).map fun e => some e.whole

/-- Reads the structure; nothing may follow it. -/
def PublicKeyInfo.read (input : Bytes) : Option PublicKeyInfo := do
  let content ← singleOf .sequence input
  let (algorithm, rest) ← next .sequence content
  let (oid, parameters) ← next .oid algorithm
  let algorithm ← Oid.ofContent? oid
  let parameters ← readParameters parameters
  let key ← singleOf .bitString rest
  let key ← bitString? key
  return ⟨algorithm, parameters, key⟩

/-- How the parameters of an EC key give the curve: an object identifier names
it, NULL or nothing leaves it to be inherited, any other element spells it out. -/
def curveOfParameters : Option Bytes → CurveSpec
  | none => .inherited
  | some p =>
    match oid? p with
    | some o => .named (curveName o)
    | none => if singleOf .null p = some [] then .inherited else .explicit

/-- The curve of an EC key. -/
def curveOf (input : Bytes) : Option CurveSpec := do
  let info ← PublicKeyInfo.read input
  if info.algorithm = ecPublicKey then some (curveOfParameters info.parameters) else none

/-- Reads an RSA key: modulus and exponent, neither negative. -/
def readRsaKey (input : Bytes) : Option (Bytes × Bytes) := do
  let content ← singleOf .sequence input
  let (modulus, rest) ← next .integer content
  let modulus ← unsigned? modulus
  let exponent ← singleOf .integer rest
  let exponent ← unsigned? exponent
  return (modulus, exponent)

/-- The modulus of an RSA key, without leading zero bytes. -/
def modulusOf (input : Bytes) : Option Bytes := do
  let info ← PublicKeyInfo.read input
  if info.algorithm ≠ rsaEncryption then none
  let (modulus, _) ← readRsaKey info.key
  return modulus.dropZeros

end Keyring.Inspection
