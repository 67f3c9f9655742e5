import Keyring.Pss.Padding
import Keyring.Session.Encryption

/-!
# Signatures

RSA signatures have padding of PKCS #1 version 1.5 or PSS padding; DSA and ECDSA
signatures are pairs of numbers.  PSS padding is made and checked here, around raw
operations of the service; all other signatures are the service's own.

A signature that is not one of the message is an error of its own, `invalidSignature`.

## Main definitions

* `SignatureScheme` — the schemes.
* `sign`, `verify` — the operations.
-/

namespace Keyring

/-- A signature scheme. -/
inductive SignatureScheme where
  /-- RSA with padding of PKCS #1 version 1.5. -/
  | pkcs1
  /-- RSA with PSS padding, under a salt of the length of the digest. -/
  | pss
  | dsa
  | ecdsa
  deriving DecidableEq, Repr

/-- The algorithm of the keys of a scheme. -/
def SignatureScheme.algorithm : SignatureScheme → KeyAlgorithm
  | pkcs1 | pss => .rsa
  | dsa => .dsa
  | ecdsa => .ec

/-- A failure of PSS padding as a failure of the library. -/
def ofPss {α : Type} : Except Pss.Error α → Action α
  | .ok a => pure a
  | .error (.unsupportedDigest name) => throw (.unsupportedHash name)
  | .error .overflow => ExceptT.mk fun r => .error .sizeOverflow r
  | .error _ => throw .pssPadding

variable (P : Provider)

/-! ### Signatures of the service -/

/-- Signs in the service. -/
def signStaged (a : HashAlgorithm) (k : PrivateHandle) (message : Bytes) (e : Entropy) :
    Action Bytes := do
  let x ← Action.ofExcept (owned k.ref)
  ExceptT.mk (stagedSign (.registry P) x k.info.algorithm a message e)

/-- Verifies in the service. -/
def verifyStaged (a : HashAlgorithm) (k : PublicHandle) (signature message : Bytes)
    (e : Entropy) : Action Bool := do
  let x ← Action.ofExcept (owned k.ref)
  ExceptT.mk (stagedVerify (.registry P) x k.info.algorithm a signature message e)

/-! ### PSS signatures -/

/-- Signs with PSS padding: the encoded message goes through the raw private operation.
The salt and the operation draw from `e` one after the other. -/
def signPss (a : HashAlgorithm) (k : PrivateHandle) (message : Bytes) (e : Entropy) :
    Action Bytes := do
  let salt := e.bytes (Pss.saltLength a)
  let block ← ofPss (Pss.addPadding a.name k.info.bitSize message salt)
  decryptUnder P .raw k block (e.skip (Pss.saltLength a))

/-- Whether a signature is of the length of the modulus and below it, byte by byte. -/
def signatureInRange (modulus signature : Bytes) : Bool :=
  signature.length == modulus.length && decide (signature < modulus)

/-- Verifies a signature with PSS padding: the raw public operation has to recover the
encoded message. -/
def verifyPss (a : HashAlgorithm) (k : PublicHandle) (signature message : Bytes)
    (e : Entropy) : Action Bool := do
  let _ ← Action.ofExcept (owned k.ref)
  match k.info.modulus with
  | none => throw .malformedPublicKey
  | some n =>
    -- larger numbers would denote a second signature
    if signatureInRange n signature then
      let block ← encryptUnder P .raw k signature e
      ofPss (Pss.verifyPadding a.name (Pss.saltLength a) k.info.bitSize message block)
    else return false

/-! ### The operations -/

/-- Signs a message under a hash algorithm given by name. -/
def sign (scheme : SignatureScheme) (hash : String) (k : PrivateHandle) (message : Bytes)
    (e : Entropy) : Action Bytes := do
  Action.ofExcept (requireAlgorithm k.info.algorithm scheme.algorithm)
  let a ← Action.ofExcept (hashAlgorithm hash)
  match scheme with
  | .pss => signPss P a k message e
  | _ => signStaged P a k message e

/-- The result of a verification. -/
def verdict (valid : Bool) : Except CryptoError Unit :=
  if valid then .ok () else .error .invalidSignature

/-- Verifies a signature of a message under a hash algorithm given by name. -/
def verify (scheme : SignatureScheme) (hash : String) (s : PublicSource)
    (signature message : Bytes) (e : Entropy) :
    EStateM Halt Registry (Except CryptoError Unit × PublicSource) :=
  s.use scheme.algorithm (hashAlgorithm hash) fun a k => do
    let valid ←
      match scheme with
      | .pss => verifyPss P a k signature message e
      | _ => verifyStaged P a k signature message e
    Action.ofExcept (verdict valid)

end Keyring
