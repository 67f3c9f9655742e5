import Keyring.Session.Handle

/-!
# Loading keys and certificates

What is loaded comes as bytes, from a file or already parsed.  Keys are checked
against the import policy before the service sees them; certificates are not.

## Main definitions

* `Source` — where something comes from.
* `loadPrivate`, `loadPublic`, `loadCertificate`, `loadContainer` — the loaders.
-/

namespace Keyring

/-- Where something that is loaded comes from. -/
inductive Source (α : Type) where
  /-- From its encoding. -/
  | bytes (b : Bytes)
  /-- From a file: its content, unless it cannot be read. -/
  | file (content : Option Bytes)
  /-- It was parsed before. -/
  | parsed (a : α)

/-- What a source describes. -/
def Source.resolve {α : Type} (s : Source α) (parse : Bytes → Except Failure α) :
    Except Failure α :=
  match s with
  | bytes b => parse b
  | file (some b) => parse b
  | file none => .error (.error .sourceUnreadable)
  | parsed a => .ok a

variable (P : Provider)

/-! ### Import -/

/-- What a key is created as: it may do everything. -/
def importAttributes (p : KeyParameters) (isPrivate : Bool) : KeyAttributes :=
  ⟨p.algorithm, isPrivate, true, true⟩

/-- Imports a private key. -/
def importPrivate (i : PrivateInfo) : Action PrivateHandle := do
  Action.ofExcept (checkParameters i.parameters i.bitSize)
  let x ← Action.ofService (Service.keyCreate P (importAttributes i.parameters true) i.bare)
  return ⟨some x, i⟩

/-- Imports a public key. -/
def importPublic (i : PublicInfo) : Action PublicHandle := do
  Action.ofExcept (checkParameters i.parameters i.bitSize)
  let x ← Action.ofService (Service.keyCreate P (importAttributes i.parameters false) i.encoding)
  return ⟨some x, i⟩

/-- Imports a certificate. -/
def importCertificate (i : CertificateInfo) : Action CertificateHandle := do
  let x ← Action.ofService (Service.certificateCreate P i.encoding)
  return { ref := some x, info := i }

/-- Releases handles in order. -/
def releaseHandles : List Handle → EStateM Halt Registry Unit
  | [] => pure ()
  | h :: rest => do
    let _ ← h.release
    releaseHandles rest

/-- Imports certificates in order; if one fails, those before it are released. -/
def importCertificates (done : List CertificateHandle) :
    List CertificateInfo → Action (List CertificateHandle)
  | [] => pure done
  | i :: rest => do
    let c ← (importCertificate P i).onError (releaseHandles (done.map .certificate))
    importCertificates (done ++ [c]) rest

/-! ### Loading -/

/-- Loads a private key. -/
def loadPrivate (s : Source PrivateInfo) (password : Option Bytes) : Action PrivateHandle := do
  importPrivate P (← Action.ofParsed (s.resolve fun b => parsePrivate P b password))

/-- Loads a public key. -/
def loadPublic (s : Source PublicInfo) : Action PublicHandle := do
  importPublic P (← Action.ofParsed (s.resolve fun b => failing (parsePublic P b)))

/-- Loads a certificate. -/
def loadCertificate (s : Source CertificateInfo) : Action CertificateHandle := do
  importCertificate P (← Action.ofParsed (s.resolve fun b => failing (parseCertificate P b)))

/-- The handles of what a container holds. -/
structure Bundle where
  privateKey : Option PrivateHandle
  /-- The certificate of the private key. -/
  certificate : Option CertificateHandle
  /-- All other certificates, in order. -/
  others : List CertificateHandle

/-- Imports what a container holds, all of it or nothing. -/
def importContainer (i : ContainerInfo) : Action Bundle := do
  let key ← i.privateKey.mapM (importPrivate P)
  let keys := key.toList.map Handle.privateKey
  let certificate ← (i.certificate.mapM (importCertificate P)).onError (releaseHandles keys)
  let certificates := certificate.toList.map Handle.certificate
  let others ← (importCertificates P [] i.others).onError (releaseHandles (certificates ++ keys))
  return ⟨key, certificate, others⟩

/-- Loads a container. -/
def loadContainer (s : Source ContainerInfo) (password : Option Bytes) : Action Bundle := do
  importContainer P (← Action.ofParsed (s.resolve fun b => parseContainer P b password))

end Keyring
