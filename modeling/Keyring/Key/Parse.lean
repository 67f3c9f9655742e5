import Keyring.Error
import Keyring.Key.Info
import Keyring.Pem.Block
import Keyring.Provider

/-!
# From encoded keys to what is known of them

A byte string is taken for text with blocks or for an encoding by how it starts.
Public keys are looked for in three forms: with their algorithm, as a bare RSA key,
in a certificate.  Private keys are looked for encrypted first.

## Main definitions

* `parsePublic`, `parsePrivate`, `parseCertificate`, `parseContainer` — the parsers.
-/

namespace Keyring

variable (P : Provider)

/-- Algorithm and parameters of a decoded key, of which `encoding` is the encoding. -/
def parametersOf (k : PublicKey) (encoding : Bytes) : Except CryptoError KeyParameters :=
  match k with
  | .rsa _ => .ok .rsa
  | .dsa k => .ok (.dsa k.domain.hash)
  | .ec _ =>
    match Inspection.curveOf encoding with
    | some c => .ok (.ec c)
    | none => .error .malformedPublicKey
  | _ => .error (.unsupportedAlgorithm k.unsupportedName)

/-- What is known of a decoded public key. -/
def publicInfo (k : PublicKey) : Except CryptoError PublicInfo :=
  if k.algorithm?.isNone then .error (.unsupportedAlgorithm k.unsupportedName)
  else
    match P.encodePublic k with
    | none => .error .malformedPublicKey
    | some encoding => do
      let parameters ← parametersOf k encoding
      return ⟨parameters, k.bitSize, encoding⟩

/-- What is known of a decoded private key. -/
def privateInfo (k : PrivateKey) : Except CryptoError PrivateInfo := do
  let info ← publicInfo P k.publicKey
  match P.encodeWrapped k, P.encodeBare k with
  | some wrapped, some bare => return ⟨info.parameters, info.bitSize, wrapped, bare⟩
  | _, _ => throw .malformedPrivateKey

/-- What is known of a decoded certificate. -/
def certificateInfo (c : X509) : Except CryptoError CertificateInfo :=
  match c.key with
  | none => .error .malformedCertificate
  | some k => do return ⟨c.encoding, ← publicInfo P k⟩

/-- Parses a certificate. -/
def parseCertificate (input : Bytes) : Except CryptoError CertificateInfo :=
  match if Pem.isText input then P.certificateOfText input else P.certificate input with
  | none => .error .malformedCertificate
  | some c => certificateInfo P c

/-- The public key in a byte string, in the first of the three forms that fits. -/
def findPublic (input : Bytes) : Option PublicKey :=
  if Pem.isText input then
    P.publicKeyOfText input <|> P.rsaPublicKeyOfText input <|>
      (P.certificateOfText input).bind (·.key)
  else
    P.publicKey input <|> P.rsaPublicKey input <|> (P.certificate input).bind (·.key)

/-- Parses a public key. -/
def parsePublic (input : Bytes) : Except CryptoError PublicInfo :=
  match findPublic P input with
  | none => .error .malformedPublicKey
  | some k => publicInfo P k

/-- The private key in a byte string. -/
def findPrivate (input password : Bytes) : Option PrivateKey :=
  if Pem.isText input then P.privateKeyOfText password input
  else P.protectedPrivateKey password input <|> P.privateKey input

/-- An error as a failure. -/
def failing {α : Type} : Except CryptoError α → Except Failure α
  | .ok a => .ok a
  | .error e => .error (.error e)

/-- Parses a private key, decrypting it if it is encrypted.  No password counts as
an empty one; a password with a zero byte cannot be handed to the decoder. -/
def parsePrivate (input : Bytes) (password : Option Bytes) : Except Failure PrivateInfo :=
  let password := password.getD []
  if 0 ∈ password then .error (.halt .passwordWithZero)
  else
    match findPrivate P input password with
    | none => .error (.error .malformedPrivateKey)
    | some k => failing (privateInfo P k)

/-- Whether a byte string is the UTF-8 encoding of a text. -/
def isUtf8 (b : Bytes) : Bool := (String.fromUTF8? ⟨b.toArray⟩).isSome

/-- What is known of the contents of a container. -/
def containerInfo (c : Contents) : Except CryptoError ContainerInfo := do
  let key ← c.key.mapM (privateInfo P)
  let certificate ← c.certificate.mapM (certificateInfo P)
  let others ← c.others.mapM (certificateInfo P)
  return ⟨key, certificate, others⟩

/-- Parses a container.  Its password has to be a text. -/
def parseContainer (input : Bytes) (password : Option Bytes) : Except Failure ContainerInfo :=
  let password := password.getD []
  if !isUtf8 password then .error (.error .invalidPassword)
  else
    match P.container input with
    | none => .error (.error .malformedContainer)
    | some openWith =>
      if 0 ∈ password then .error (.halt .passwordWithZero)
      else
        match openWith password with
        | none => .error (.error .malformedContainer)
        | some c => failing (containerInfo P c)

end Keyring
