import Keyring.Cipher.Protection
import Keyring.Rsa.Signature

/-!
# Containers and their authentication

A container (PKCS #12) is an outer shell around encoded safes, authenticated by a
keyed hash under a key derived from the password.

## Main definitions

* `Container` — the shell, `Container.read` its reader.
* `Container.accepts` — whether a password authenticates the content.
* `ContentInfo` — a content with its type, as the safes come.
-/

namespace Keyring

open Asn1 Asn1.Lenient

/-- The authentication of a container. -/
structure ContainerMac where
  /-- The hash function. -/
  hash : Option HashAlgorithm
  /-- The expected keyed hash. -/
  digest : Bytes
  salt : Bytes
  /-- The number of iterations. -/
  iterations : Nat

/-- A container. -/
structure Container where
  /-- The encoded safes. -/
  content : Bytes
  /-- The authentication, if there is one. -/
  mac : Option ContainerMac

namespace Container

/-- Content as it is. -/
def dataOid : Oid := [1, 2, 840, 113549, 1, 7, 1]

/-- Content under a password. -/
def encryptedOid : Oid := [1, 2, 840, 113549, 1, 7, 6]

/-- The hash function of an identifier. -/
def hashOf (a : Algorithm) : Option HashAlgorithm :=
  [HashAlgorithm.md5, .sha1, .sha224, .sha256, .sha384, .sha512].find? fun h =>
    a.is (Rsa.hashOid h)

/-- Reads a content with its type: the type's identifier and the element inside. -/
def contentInfo? (e : Element) : Option (Bytes × Option Element) := do
  if !sameTag .sequence e.tag then none
  let (kind, rest) ← take .oid (← partsOf e)
  let (inner, rest) ← takeExplicit 0 rest
  if rest.isEmpty then return (← oid? kind, inner) else none

/-- The bytes of an element that has to be an octet string. -/
def octetsOf (e : Option Element) : Option Bytes := do
  let e ← e
  if sameTag .octetString e.tag then octets e else none

/-- Reads hash function and expected value. -/
def readDigest (e : Element) : Option (Algorithm × Bytes) := do
  let (a, rest) ← takeAlgorithm (← partsOf e)
  match rest with
  | [d] => return (a, ← octetsOf (some d))
  | _ => none

/-- Reads the authentication. -/
def readMac (e : Element) : Option ContainerMac := do
  if !sameTag .sequence e.tag then none
  let (digest, rest) ← take .sequence (← partsOf e)
  let (a, expected) ← readDigest digest
  let (salt, rest) ← take .octetString rest
  let salt ← octets salt
  match rest with
  | [] => return ⟨hashOf a, expected, salt, 1⟩
  | [n] =>
    if sameTag .integer n.tag then return ⟨hashOf a, expected, salt, ← Protection.count? n⟩
    else none
  | _ => none

/-- Reads a container; what follows it is ignored. -/
def read (input : Bytes) : Option Container := do
  let (version, rest) ← take .integer (← Lenient.sequence input)
  let _ ← integer? version
  let (safes, rest) ← take .sequence rest
  let (kind, inner) ← contentInfo? safes
  -- containers that are signed are not read
  if kind ≠ dataOid.content then none
  let content ← octetsOf inner
  match rest with
  | [] => return ⟨content, none⟩
  | [mac] => return ⟨content, some (← readMac mac)⟩
  | _ => none

/-- Whether a password gives the expected keyed hash. -/
def ContainerMac.accepts (m : ContainerMac) (content : Bytes) (p : Protection.Password) : Bool :=
  match m.hash with
  | none => false
  | some h =>
    let key := Kdf.containerKey h (Protection.wideOf p) m.salt .authentication m.iterations
      h.digestLength
    h.hmac key content == m.digest

/-- The password in the form that authenticates the content.  An empty password may
stand for none at all. -/
def passwordFor (c : Container) (password : Bytes) : Option Protection.Password :=
  let forms := if password.isEmpty then [none, some []] else [some password]
  match c.mac with
  | none => forms.head?
  | some m => forms.find? (ContainerMac.accepts m c.content)

end Container

end Keyring
