import Keyring.Session.Loading
import Keyring.Session.Signing

/-!
# Sessions

A session is the key service together with the handles that are held on its objects,
each under a name.  It changes by requests.  A name that is given to a new handle is
taken from the handle that had it before, which is dropped.

## Main definitions

* `Session` — the registry and the handles.
* `Request`, `PublicRequest`, `PrivateRequest` — what can be asked of a session.
* `Outcome` — what becomes of a request.
* `Request.run` — one request.
* `Session.close` — drops all handles.
-/

namespace Keyring

/-- The service and the handles on its objects. -/
structure Session where
  /-- The objects of the service. -/
  registry : Registry := {}
  /-- The handles by name. -/
  handles : List (String × Handle) := []

/-! ### Requests -/

/-- What is asked of a public key or certificate. -/
inductive PublicRequest where
  /-- The public key itself. -/
  | key
  /-- The modulus of the key. -/
  | modulus
  | encrypt (padding : RsaPadding) (input : Bytes)
  | verify (scheme : SignatureScheme) (hash : String) (signature message : Bytes)

/-- What is asked of a private key. -/
inductive PrivateRequest where
  | decrypt (padding : RsaPadding) (input : Bytes)
  | sign (scheme : SignatureScheme) (hash : String) (message : Bytes)

/-- What is asked of a session.  The handles that a container gives have its name
followed by `.key`, `.cert` and, for all other certificates, `.extra` with a number. -/
inductive Request where
  | loadPrivate (name : String) (source : Source PrivateInfo) (password : Option Bytes)
  | loadPublic (name : String) (source : Source PublicInfo)
  | loadCertificate (name : String) (source : Source CertificateInfo)
  | loadContainer (name : String) (source : Source ContainerInfo) (password : Option Bytes)
  /-- The handle of a name. -/
  | look (name : String)
  /-- Releases a handle, which keeps its name. -/
  | release (name : String)
  /-- Releases a handle and frees its name. -/
  | drop (name : String)
  | ofPublic (name : String) (r : PublicRequest)
  | ofPrivate (name : String) (r : PrivateRequest)

/-- What a request that succeeds gives. -/
inductive Answer where
  /-- Nothing. -/
  | done
  | handle (h : Handle)
  | bundle (b : Bundle)
  | bytes (b : Bytes)

/-- What becomes of a request that comes to its end. -/
inductive Outcome where
  | answer (a : Answer)
  | failure (e : CryptoError)
  /-- No handle has the name, or it is not of a kind that can be asked this. -/
  | unbound

/-- The outcome of a call. -/
def Outcome.ofExcept {α : Type} (f : α → Answer) : Except CryptoError α → Outcome
  | .ok a => answer (f a)
  | .error e => failure e

namespace Session

/-- A session with one handle set. -/
def set (s : Session) (name : String) (h : Handle) : Session :=
  { s with handles := (name, h) :: s.handles.filter fun p => p.1 != name }

/-- A session with one name freed. -/
def erase (s : Session) (name : String) : Session :=
  { s with handles := s.handles.filter fun p => p.1 != name }

/-- The handle of a name. -/
def find? (s : Session) (name : String) : Option Handle := s.handles.lookup name

end Session

/-! ### What becomes of them -/

/-- A change of a session, which may be abandoned on the way. -/
abbrev SessionM := EStateM Halt Session

namespace SessionM

/-- Uses the service. -/
def ofRegistry {α : Type} (x : EStateM Halt Registry α) : SessionM α := fun s =>
  match x s.registry with
  | .ok a r => .ok a { s with registry := r }
  | .error h r => .error h { s with registry := r }

/-- Gives a name to a new handle and drops the handle that had it. -/
def assign (name : String) (h : Handle) : SessionM Unit := do
  let old := (← get).find? name
  modify (·.set name h)
  releaseHandles old.toList |> ofRegistry

/-- Gives names to handles. -/
def assignAll : List (String × Handle) → SessionM Unit
  | [] => pure ()
  | (name, h) :: rest => do
    assign name h
    assignAll rest

/-- A call that gives handles, which are then given their names. -/
def load {α : Type} (call : Action α) (answer : α → Answer)
    (handles : α → List (String × Handle)) : SessionM Outcome := do
  match ← ofRegistry call.run with
  | .error e => return .failure e
  | .ok a =>
    assignAll (handles a)
    return .answer (answer a)

/-- A call on a handle. -/
def withHandle (name : String) (f : Handle → SessionM Outcome) : SessionM Outcome := do
  match (← get).find? name with
  | none => return .unbound
  | some h => f h

end SessionM

/-- The handles of a container with their names. -/
def Bundle.handles (name : String) (b : Bundle) : List (String × Handle) :=
  b.privateKey.toList.map (fun k => (name ++ ".key", .privateKey k)) ++
    b.certificate.toList.map (fun c => (name ++ ".cert", .certificate c)) ++
    b.others.mapIdx fun i c => (name ++ ".extra" ++ toString i, .certificate c)

variable (P : Provider)

/-- Runs a request on a public key or certificate, which may be another afterwards. -/
def PublicRequest.run (s : PublicSource) (e : Entropy) :
    PublicRequest → EStateM Halt Registry (Outcome × PublicSource)
  | key => do
    let (k, s) ← s.publicKey
    return (.ofExcept (.handle ∘ .publicKey) k, s)
  | modulus => do
    let (k, s) ← s.publicKey
    let n := do
      match (← k).info.modulus with
      | some n => .ok n
      | none => .error .malformedPublicKey
    return (.ofExcept .bytes n, s)
  | encrypt padding input => do
    let (b, s) ← Keyring.encrypt P padding s input e
    return (.ofExcept .bytes b, s)
  | verify scheme hash signature message => do
    let (v, s) ← Keyring.verify P scheme hash s signature message e
    return (.ofExcept (fun _ => .done) v, s)

/-- Runs a request on a private key. -/
def PrivateRequest.run (k : PrivateHandle) (e : Entropy) : PrivateRequest → Action Bytes
  | decrypt padding input => Keyring.decrypt P padding k input e
  | sign scheme hash message => Keyring.sign P scheme hash k message e

open SessionM

/-- Runs a request; `e` is what it may draw random bytes from. -/
def Request.run (e : Entropy) : Request → SessionM Outcome
  | loadPrivate name source password =>
    load (Keyring.loadPrivate P source password) (.handle ∘ .privateKey)
      fun k => [(name, .privateKey k)]
  | loadPublic name source =>
    load (Keyring.loadPublic P source) (.handle ∘ .publicKey) fun k => [(name, .publicKey k)]
  | loadCertificate name source =>
    load (Keyring.loadCertificate P source) (.handle ∘ .certificate)
      fun c => [(name, .certificate c)]
  | loadContainer name source password =>
    load (Keyring.loadContainer P source password) .bundle (Bundle.handles name)
  | look name => withHandle name fun h => return .answer (.handle h)
  | release name => withHandle name fun h => do
    let h ← ofRegistry h.release
    modify (·.set name h)
    return .answer .done
  | drop name => withHandle name fun h => do
    let _ ← ofRegistry h.release
    modify (·.erase name)
    return .answer .done
  | ofPublic name r => withHandle name fun h =>
    match h.source? with
    | none => return .unbound
    | some s => do
      let (outcome, s) ← ofRegistry (r.run P s e)
      modify (·.set name s.handle)
      return outcome
  | ofPrivate name r => withHandle name fun h =>
    match h with
    | .privateKey k => do
      return .ofExcept .bytes (← ofRegistry (r.run P k e).run)
    | _ => return .unbound

/-- Drops all handles. -/
def Session.close : SessionM Unit := do
  SessionM.ofRegistry (releaseHandles ((← get).handles.map (·.2)))
  modify fun s => { s with handles := [] }

end Keyring
