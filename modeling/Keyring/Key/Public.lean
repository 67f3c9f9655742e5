import Keyring.Dsa.Key
import Keyring.Elliptic.Key
import Keyring.Key.Identifier
import Keyring.Rsa.Key
import Keyring.Rsa.PssParameters

/-!
# Public keys

A public key of any algorithm, and its encoding together with the algorithm, the
SubjectPublicKeyInfo.  Keys of algorithms that are never imported are known by name.

## Main definitions

* `PublicKey` — a public key.
* `PublicKey.read`, `PublicKey.write` — SubjectPublicKeyInfo.
* `PublicKey.bitSize` — the size of a key.
-/

namespace Keyring

open Asn1 Asn1.Lenient

/-- A public key. -/
inductive PublicKey where
  | rsa (key : Rsa.PublicKey)
  /-- An RSA key that is for PSS signatures only. -/
  | rsaPss (key : Rsa.PublicKey)
  | dsa (key : Dsa.PublicKey)
  | ec (key : Elliptic.PublicKey)
  /-- A key of another algorithm, by the name of the algorithm. -/
  | other (name : String)

namespace PublicKey

/-- The algorithm, if it is one of those imported. -/
def algorithm? : PublicKey → Option KeyAlgorithm
  | rsa _ => some .rsa
  | dsa _ => some .dsa
  | ec _ => some .ec
  | rsaPss _ | other _ => none

/-- The name of an algorithm that is not imported. -/
def unsupportedName : PublicKey → String
  | rsaPss _ => "RSASSA-PSS"
  | other name => name
  | rsa _ => "rsaEncryption"
  | dsa _ => "DSA"
  | ec _ => "id-ecPublicKey"

/-- The numbers of a key to which the RSA operations apply. -/
def rsa? : PublicKey → Option Rsa.PublicKey
  | rsa k | rsaPss k => some k
  | _ => none

/-- The size of a key in bits. -/
def bitSize : PublicKey → Nat
  | rsa k | rsaPss k => k.bitSize
  | dsa k => k.domain.bitSize
  | ec k => k.group.bitSize
  | other _ => 0

/-! ### Reading -/

/-- The key of an EC point; one of the curves belongs to an algorithm of its own. -/
def ofEc (k : Elliptic.PublicKey) : PublicKey :=
  if k.group.curve = Elliptic.sm2 then other "-1" else ec k

/-- Reads a DSA key in a group. -/
def readDsa (parameters : Option Element) (content : Bytes) : Option PublicKey := do
  let e ← parameters
  if !sameTag .sequence e.tag then none
  let domain ← Dsa.Domain.ofParts (← partsOf e)
  return dsa ⟨domain, ← integer? (← first .integer content)⟩

/-- Whether parameters and content are those of a Diffie-Hellman key. -/
def isDiffieHellman (parameters : Option Element) (content : Bytes) : Bool :=
  match parameters with
  | none => false
  | some e =>
    sameTag .sequence e.tag &&
      match partsOf e with
      | some (p :: g :: _) =>
        sameTag .integer p.tag && sameTag .integer g.tag &&
          ((first .integer content).bind integer?).isSome
      | _ => false

/-- Reads the key of an algorithm from the bytes of a bit string. -/
def ofAlgorithm (a : Algorithm) (content : Bytes) : Option PublicKey :=
  if a.is Identifier.rsaEncryption || a.is Identifier.rsa then
    (Rsa.PublicKey.read content).map rsa
  else if a.is Identifier.rsaPss then
    if Rsa.arePssParameters a.parameters then (Rsa.PublicKey.read content).map rsaPss else none
  else if (Identifier.dsa :: Identifier.dsaOthers).any a.is then readDsa a.parameters content
  else if a.is Identifier.ecPublicKey then do
    let group ← Elliptic.Group.read (← a.parameters)
    return ofEc (← Elliptic.PublicKey.ofPoint group content)
  else if a.is Identifier.dh then
    if isDiffieHellman a.parameters content then some (other "dhKeyAgreement") else none
  else if a.is Identifier.dhx then
    if isDiffieHellman a.parameters content then some (other "dhpublicnumber") else none
  else
    match Identifier.curveKeys.find? fun (o, _) => a.is o with
    | some (_, name, size) =>
      if a.parameters.isNone && content.length = size then some (other name) else none
    | none => none

/-- Algorithm and bits of a key, before the key itself is read. -/
def readParts (e : Element) : Option (Algorithm × Bytes) := do
  if !sameTag .sequence e.tag then none
  let (a, rest) ← takeAlgorithm (← partsOf e)
  match rest with
  | [k] => if sameTag .bitString k.tag then return (a, ← bits k) else none
  | _ => none

/-- Reads the key in a SubjectPublicKeyInfo. -/
def ofElement (e : Element) : Option PublicKey := do
  let (a, content) ← readParts e
  ofAlgorithm a content

/-- Reads SubjectPublicKeyInfo; what follows it is ignored. -/
def read (input : Bytes) : Option PublicKey := (first .sequence input).bind ofElement

/-! ### Writing -/

/-- The algorithm of a key, with its parameters. -/
def writeAlgorithm (o : Oid) (parameters : Bytes) : Bytes :=
  Write.sequence [Write.oid o, parameters]

/-- Writes the SubjectPublicKeyInfo of a key that can be imported. -/
def write : PublicKey → Option Bytes
  | rsa k =>
    some (Write.sequence
      [writeAlgorithm Identifier.rsaEncryption Write.null, Write.bitString k.write])
  | dsa k =>
    some (Write.sequence
      [writeAlgorithm Identifier.dsa k.domain.write, Write.bitString (Write.signed k.y)])
  | ec k => do
    let parameters ← k.group.write
    let point ← k.writePoint
    return Write.sequence
      [writeAlgorithm Identifier.ecPublicKey parameters, Write.bitString point]
  | rsaPss _ | other _ => none

end PublicKey

end Keyring
