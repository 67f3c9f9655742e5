import Keyring.Certificate.Encoding
import Keyring.Container.Encoding
import Keyring.Key.Private

/-!
# What containers hold

The safes of a container, encrypted or not, hold bags; a bag holds a key, an
encrypted key, a certificate or further bags.  The first key counts, and of the
certificates the first one that certifies it.

## Main definitions

* `Contents` — a key, its certificate and all others.
* `Container.open?` — the contents of a container under a password.
-/

namespace Keyring

open Asn1 Asn1.Lenient

/-- What a container holds. -/
structure Contents where
  key : Option PrivateKey
  /-- The certificate of the key. -/
  certificate : Option X509
  /-- All other certificates, in the order of the container. -/
  others : List X509

namespace Container

/-- What was found in bags so far. -/
structure Findings where
  /-- The first key. -/
  key : Option PrivateKey := none
  /-- The certificates, in reverse. -/
  certificates : List X509 := []

/-- The `n`th type of bag. -/
def bagOid (n : Nat) : Oid := [1, 2, 840, 113549, 1, 12, 10, 1, n]

/-- Certificates in bags. -/
def x509Oid : Oid := [1, 2, 840, 113549, 1, 9, 22, 1]

/-- Adds a key; only the first one is read. -/
def Findings.addKey (f : Findings) (key : Unit → Option PrivateKey) : Option Findings :=
  match f.key with
  | some _ => some f
  | none => (key ()).map fun k => { f with key := some k }

/-- The key in an encrypted bag. -/
def protectedKey (p : Protection.Password) (e : Element) : Option PrivateKey := do
  let (a, text) ← PrivateKey.protectedParts e.whole
  PrivateKey.readWrapped (← Protection.decrypt a p text)

/-- Adds the certificate in a bag, if it is one of the known type. -/
def Findings.addCertificate (f : Findings) (e : Element) : Option Findings := do
  if !sameTag .sequence e.tag then none
  let (kind, inner) ← contentInfo? e
  if kind ≠ x509Oid.content then return f
  let c ← X509.read (← octetsOf inner)
  return { f with certificates := c :: f.certificates }

/-- Whether what follows the value of a bag are its attributes. -/
def areBagAttributes : List Element → Bool
  | [] => true
  | [e] => sameTag .set e.tag && ((partsOf e).any fun as => as.all isAttribute)
  | _ => false

/-- Type and value of a bag. -/
def bag? (e : Element) : Option (Bytes × Option Element) := do
  if !sameTag .sequence e.tag then none
  let (kind, rest) ← take .oid (← partsOf e)
  let (value, rest) ← takeExplicit 0 rest
  if areBagAttributes rest then return (← oid? kind, value) else none

/-- Adds what bags hold; bags in bags are nested at most `depth` deep. -/
def addBags (p : Protection.Password) : Nat → List Element → Findings → Option Findings
  | _, [], f => some f
  | 0, _, _ => none
  | depth + 1, e :: rest, f => do
    let (kind, value) ← bag? e
    let f ←
      -- a key as it is, a protected key, a certificate, more bags
      if kind = (bagOid 1).content then
        f.addKey fun _ => value.bind PrivateKey.ofWrappedElement
      else if kind = (bagOid 2).content then
        f.addKey fun _ => value.bind (protectedKey p)
      else if kind = (bagOid 3).content then value.bind f.addCertificate
      else if kind = (bagOid 6).content then
        match value.bind partsOf with
        | some inner => addBags p depth inner f
        | none => none
      else some f
    addBags p (depth + 1) rest f

/-- The bags of a safe: none of a type that is not known. -/
def bagsOf (p : Protection.Password) (e : Element) : Option (List Element) := do
  let (kind, inner) ← contentInfo? e
  -- bags in the clear, or under the password
  if kind = dataOid.content then Lenient.sequence (← octetsOf inner)
  else if kind = encryptedOid.content then
    let (version, rest) ← take .integer (← partsOf (← inner))
    let _ ← integer? version
    match rest with
    | [info] =>
      let (kind, rest) ← take .oid (← partsOf info)
      let _ ← oid? kind
      let (a, rest) ← takeAlgorithm rest
      match rest with
      | [text] =>
        if !sameTag (.implicit 0) text.tag then none
        Lenient.sequence (← Protection.decrypt a p (← octets text))
      | _ => none
    | _ => none
  else return []

/-- What the safes hold. -/
def addSafes (p : Protection.Password) : List Element → Findings → Option Findings
  | [], f => some f
  | e :: rest, f => do
    let bags ← bagsOf p e
    addSafes p rest (← addBags p (e.content.length + 1) bags f)

/-- Whether two public keys are the same key. -/
def sameKey : PublicKey → PublicKey → Bool
  | .rsa a, .rsa b => a = b
  | .dsa a, .dsa b => a = b
  | .ec a, .ec b => a.group.curve = b.group.curve && a.point = b.point
  | _, _ => false

/-- Whether a certificate is for a key. -/
def certifies (c : X509) (k : PrivateKey) : Bool :=
  match c.key with
  | some p => sameKey p k.publicKey
  | none => false

/-- The findings with the certificate of the key set apart. -/
def Findings.contents (f : Findings) : Contents :=
  let all := f.certificates.reverse
  match f.key with
  | none => ⟨none, none, all⟩
  | some k =>
    match all.findIdx? (certifies · k) with
    | none => ⟨f.key, none, all⟩
    | some i => ⟨f.key, all[i]?, all.eraseIdx i⟩

/-- The contents of a container under a password. -/
def open? (c : Container) (password : Bytes) : Option Contents := do
  let p ← c.passwordFor password
  let f ← addSafes p (← Lenient.sequence c.content) {}
  return f.contents

end Container

end Keyring
