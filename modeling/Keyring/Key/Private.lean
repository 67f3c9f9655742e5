import Keyring.Cipher.Protection
import Keyring.Key.Public

/-!
# Private keys

A private key of any algorithm, with the encodings it comes in: wrapped together
with its algorithm (PKCS #8), wrapped and encrypted, or in the structure that its
algorithm has of its own.

## Main definitions

* `PrivateKey` — a private key, `PrivateKey.publicKey` its public part.
* `PrivateKey.readWrapped`, `PrivateKey.readBare`, `PrivateKey.read` — decoding.
* `PrivateKey.readProtected` — decoding under a password.
* `PrivateKey.writeWrapped`, `PrivateKey.writeBare` — encoding.
-/

namespace Keyring

open Asn1 Asn1.Lenient

/-- A private key. -/
inductive PrivateKey where
  | rsa (key : Rsa.PrivateKey)
  /-- An RSA key that is for PSS signatures only. -/
  | rsaPss (key : Rsa.PrivateKey)
  | dsa (key : Dsa.PrivateKey)
  | ec (key : Elliptic.PrivateKey)
  /-- A key of another algorithm, by the name of the algorithm. -/
  | other (name : String)

namespace PrivateKey

/-- The public part of a private key. -/
def publicKey : PrivateKey → PublicKey
  | rsa k => .rsa k.publicKey
  | rsaPss k => .rsaPss k.publicKey
  | dsa k => .dsa k.publicKey
  | ec k => .ec k.publicKey
  | other name => .other name

/-- The algorithm, if it is one of those imported. -/
def algorithm? (k : PrivateKey) : Option KeyAlgorithm := k.publicKey.algorithm?

/-- The numbers of a key to which the RSA operations apply. -/
def rsa? : PrivateKey → Option Rsa.PrivateKey
  | rsa k | rsaPss k => some k
  | _ => none

/-! ### Decoding -/

/-- The key of an EC number; one of the curves belongs to an algorithm of its own. -/
def ofEc (k : Elliptic.PrivateKey) : PrivateKey :=
  if k.group.curve = Elliptic.sm2 then other "-1" else ec k

/-- Reads the exponent of a DSA key in a group, which has to be given modulo an odd
number for the public element to be worked out. -/
def readDsaExponent (parameters : Option Element) (content : Bytes) : Option PrivateKey := do
  let e ← parameters
  if !sameTag .sequence e.tag then none
  let domain ← Dsa.Domain.ofParts (← partsOf e)
  let x ← integer? (← first .integer content)
  if x < 0 || domain.p % 2 = 0 then none
  return dsa (.ofExponent domain x.toNat)

/-- Reads the key of an algorithm. -/
def ofAlgorithm (a : Algorithm) (content : Bytes) : Option PrivateKey :=
  if a.is Identifier.rsaEncryption || a.is Identifier.rsa then
    (Rsa.PrivateKey.read content).map rsa
  else if a.is Identifier.rsaPss then
    if Rsa.arePssParameters a.parameters then (Rsa.PrivateKey.read content).map rsaPss
    else none
  else if (Identifier.dsa :: Identifier.dsaOthers).any a.is then
    readDsaExponent a.parameters content
  else if a.is Identifier.ecPublicKey then do
    let group ← Elliptic.Group.read (← a.parameters)
    return ofEc (← Elliptic.PrivateKey.read (some group) content)
  else if a.is Identifier.dh then
    if PublicKey.isDiffieHellman a.parameters content then some (other "dhKeyAgreement") else none
  else if a.is Identifier.dhx then
    if PublicKey.isDiffieHellman a.parameters content then some (other "dhpublicnumber") else none
  else
    match Identifier.curveKeys.find? fun (o, _) => a.is o with
    | some (_, name, size) => do
      let inner ← octets (← first .octetString content)
      if a.parameters.isNone && inner.length = size then some (other name) else none
    | none => none

/-- Whether what follows the key itself are attributes, if anything follows. -/
def areAttributes : List Element → Bool
  | [] => true
  | [e] => sameTag (.context 0) e.tag && ((partsOf e).any fun as => as.all isAttribute)
  | _ => false

/-- Reads a key that is wrapped together with its algorithm. -/
def ofWrappedElement (e : Element) : Option PrivateKey := do
  if !sameTag .sequence e.tag then none
  let (version, rest) ← take .integer (← partsOf e)
  let _ ← integer? version
  let (a, rest) ← takeAlgorithm rest
  let (content, rest) ← take .octetString rest
  if !areAttributes rest then none
  ofAlgorithm a (← octets content)

/-- Reads a wrapped key; what follows it is ignored. -/
def readWrapped (input : Bytes) : Option PrivateKey :=
  (first .sequence input).bind ofWrappedElement

/-- Reads a key in the structure of its own algorithm. -/
def readBare (input : Bytes) : Option PrivateKey :=
  ((Rsa.PrivateKey.read input).map rsa) <|> ((Dsa.PrivateKey.read input).map dsa) <|>
    ((Elliptic.PrivateKey.read none input).map ofEc)

/-- Reads a key that is not encrypted, wrapped or not. -/
def read (input : Bytes) : Option PrivateKey := readWrapped input <|> readBare input

/-- Algorithm and text of an encrypted key. -/
def protectedParts (input : Bytes) : Option (Algorithm × Bytes) := do
  let (a, rest) ← takeAlgorithm (← Lenient.sequence input)
  match rest with
  | [text] => if sameTag .octetString text.tag then return (a, ← octets text) else none
  | _ => none

/-- Reads an encrypted wrapped key. -/
def readProtected (password input : Bytes) : Option PrivateKey := do
  let (a, text) ← protectedParts input
  readWrapped (← Protection.decrypt a (some password) text)

/-! ### Encoding -/

/-- A key wrapped together with its algorithm. -/
def wrap (algorithm content : Bytes) : Bytes :=
  Write.sequence [Write.integer 0, algorithm, Write.octetString content]

/-- Writes a key that can be imported, wrapped. -/
def writeWrapped : PrivateKey → Option Bytes
  | rsa k =>
    some (wrap (PublicKey.writeAlgorithm Identifier.rsaEncryption Write.null) k.writeKept)
  | dsa k =>
    some (wrap (PublicKey.writeAlgorithm Identifier.dsa k.domain.write) (Write.integer k.x))
  | ec k => do
    let parameters ← k.group.write
    let content ← k.writeKept
    return wrap (PublicKey.writeAlgorithm Identifier.ecPublicKey parameters) content
  | rsaPss _ | other _ => none

/-- Writes a key that can be imported in the structure of its algorithm. -/
def writeBare : PrivateKey → Option Bytes
  | rsa k => some k.write
  | dsa k => some k.write
  | ec k => k.write
  | rsaPss _ | other _ => none

end PrivateKey

end Keyring
