import Keyring.Key.Parse
import Keyring.Policy
import Keyring.Service.Keys

/-!
# Handles

A handle owns one object of the service, together with what was known of the key or
certificate when it was loaded.  A released handle keeps that knowledge but owns
nothing any more.  A certificate derives its public key when it is first asked for
and keeps it.

## Main definitions

* `PrivateHandle`, `PublicHandle`, `CertificateHandle`, `Handle` — the handles.
* `Action` — a call of the library on the registry.
* `CertificateHandle.key` — the public key of a certificate.
* `Handle.release` — gives back what a handle owns.
-/

namespace Keyring

/-- A call of the library: it may use the service and ends with a result or an error. -/
abbrev Action := ExceptT CryptoError (EStateM Halt Registry)

namespace Action

/-- The result of a check. -/
def ofExcept {α : Type} (x : Except CryptoError α) : Action α := ExceptT.mk (pure x)

/-- A call of the service. -/
def ofService {α : Type} (s : Service α) : Action α :=
  ExceptT.mk (EStateM.map (Except.mapError CryptoError.service) s)

/-- The result of a parser. -/
def ofParsed {α : Type} : Except Failure α → Action α
  | .ok a => pure a
  | .error (.error e) => throw e
  | .error (.halt h) => ExceptT.mk fun r => .error h r

/-- A call that, if it ends with an error, is followed by another. -/
def onError {α : Type} (x : Action α) (cleanup : EStateM Halt Registry Unit) : Action α :=
  ExceptT.mk do
    match ← x.run with
    | .ok a => return .ok a
    | .error e => do
      cleanup
      return .error e

end Action

/-- A private key in the service. -/
structure PrivateHandle where
  /-- The key object, unless it was released. -/
  ref : Option Ref
  /-- What is known of the key. -/
  info : PrivateInfo

/-- A public key in the service. -/
structure PublicHandle where
  /-- The key object, unless it was released. -/
  ref : Option Ref
  /-- What is known of the key. -/
  info : PublicInfo

/-- A certificate in the service. -/
structure CertificateHandle where
  /-- The certificate object, unless it was released. -/
  ref : Option Ref
  /-- What is known of the certificate. -/
  info : CertificateInfo
  /-- The public key, once it was derived. -/
  derived : Option PublicHandle := none

/-- The object that a handle owns. -/
def owned (ref : Option Ref) : Except CryptoError Ref :=
  match ref with
  | some x => .ok x
  | none => .error .released

/-- Derives the public key of a certificate. -/
def CertificateHandle.derive (c : CertificateHandle) : Action PublicHandle := do
  let x ← Action.ofExcept (owned c.ref)
  let y ← Action.ofService (Service.certificateCopyPublicKey x)
  return ⟨some y, c.info.publicKey⟩

/-- The public key of a certificate, and the certificate afterwards: what was derived
once is kept. -/
def CertificateHandle.key (c : CertificateHandle) :
    EStateM Halt Registry (Except CryptoError PublicHandle × CertificateHandle) :=
  match c.derived with
  | some k => pure (.ok k, c)
  | none => do
    match ← c.derive.run with
    | .ok k => return (.ok k, { c with derived := some k })
    | .error e => return (.error e, c)

/-- A handle. -/
inductive Handle where
  | privateKey (k : PrivateHandle)
  | publicKey (k : PublicHandle)
  | certificate (c : CertificateHandle)

namespace Handle

/-- The object a handle owns. -/
def ref : Handle → Option Ref
  | privateKey k => k.ref
  | publicKey k => k.ref
  | certificate c => c.ref

/-- Whether a handle was released. -/
def isReleased (h : Handle) : Bool := h.ref.isNone

/-- The algorithm of the key. -/
def algorithm : Handle → KeyAlgorithm
  | privateKey k => k.info.algorithm
  | publicKey k => k.info.algorithm
  | certificate c => c.info.algorithm

/-- The size of the key in bits. -/
def bitSize : Handle → Nat
  | privateKey k => k.info.bitSize
  | publicKey k => k.info.bitSize
  | certificate c => c.info.bitSize

/-- The objects a handle owns, in the order in which they are given back: a derived
key goes before its certificate. -/
def owns : Handle → List Ref
  | privateKey k => k.ref.toList
  | publicKey k => k.ref.toList
  | certificate c => (c.derived.bind (·.ref)).toList ++ c.ref.toList

/-- The handle after its release. -/
def released : Handle → Handle
  | privateKey k => privateKey { k with ref := none }
  | publicKey k => publicKey { k with ref := none }
  | certificate c => certificate { c with ref := none, derived := none }

/-- Gives back what a handle owns. -/
def release (h : Handle) : EStateM Halt Registry Handle := do
  h.owns.forM Service.release
  return h.released

end Handle

/-- A handle that can supply a public key. -/
inductive PublicSource where
  | key (k : PublicHandle)
  | certificate (c : CertificateHandle)

namespace PublicSource

/-- The algorithm of the key. -/
def algorithm : PublicSource → KeyAlgorithm
  | key k => k.info.algorithm
  | certificate c => c.info.algorithm

/-- The public key, and the handle afterwards.  A public key supplies itself, whether
released or not. -/
def publicKey : PublicSource →
    EStateM Halt Registry (Except CryptoError PublicHandle × PublicSource)
  | key k => pure (.ok k, key k)
  | certificate c => do
    let (k, c) ← c.key
    return (k, certificate c)

/-- The source as a handle. -/
def handle : PublicSource → Handle
  | key k => .publicKey k
  | certificate c => .certificate c

/-- Runs a call on the public key after a check of its algorithm and a further check. -/
def use {α β : Type} (s : PublicSource) (required : KeyAlgorithm) (check : Except CryptoError α)
    (f : α → PublicHandle → Action β) :
    EStateM Halt Registry (Except CryptoError β × PublicSource) :=
  match requireAlgorithm s.algorithm required, check with
  | .error e, _ => pure (.error e, s)
  | .ok _, .error e => pure (.error e, s)
  | .ok _, .ok a => do
    match ← s.publicKey with
    | (.error e, s) => return (.error e, s)
    | (.ok k, s) => return (← (f a k).run, s)

end PublicSource

/-- A handle as a source of a public key. -/
def Handle.source? : Handle → Option PublicSource
  | publicKey k => some (.key k)
  | certificate c => some (.certificate c)
  | privateKey _ => none

end Keyring
