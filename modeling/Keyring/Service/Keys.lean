import Keyring.Service.Registry

/-!
# Certificates and keys in the service

Certificates and keys are created from their encodings.  RSA keys encrypt and
decrypt in a single call, with padding of PKCS #1 version 1.5.

## Main definitions

* `certificateCreate`, `certificateCopyPublicKey`, `keyCreate` — creation.
* `encryptWith`, `decryptWith` — the RSA operations of a key object.
* `keyEncrypt`, `keyDecrypt` — the single calls.
-/

namespace Keyring

variable (P : Provider)

namespace Service

/-! ### Creation -/

/-- The value of a decoder, or that there is none. -/
def decoded {α : Type} : Option α → Except ServiceError α
  | some a => .ok a
  | none => .error .undecodable

/-- Creates a certificate. -/
def certificateCreate (encoding : Bytes) : Service Ref :=
  create fun _ => (decoded (P.certificate encoding)).map .certificate

/-- Creates the key of a certificate, for verifying only. -/
def certificateCopyPublicKey (certificate : Ref) : Service Ref :=
  create fun r => do
    let c ← r.certificate certificate
    let k ← decoded c.key
    return .key ⟨.ofPublic k, false, true⟩

/-- Decodes a private key of an algorithm: RSA and EC keys from their own structure,
DSA keys from any. -/
def decodePrivate : KeyAlgorithm → Bytes → Option PrivateKey
  | .rsa => P.rsaPrivateKey
  | .dsa => P.privateKey
  | .ec => P.ecPrivateKey

/-- Decodes a key for an algorithm, which it may not be of. -/
def decodeKey (algorithm : KeyAlgorithm) (isPrivate : Bool) (encoding : Bytes) :
    Option KeyMaterial :=
  if isPrivate then (decodePrivate P algorithm encoding).map .ofPrivate
  else (P.publicKey encoding).map .ofPublic

/-- Creates a key. -/
def keyCreate (a : KeyAttributes) (encoding : Bytes) : Service Ref :=
  create fun _ => do
    let m ← decoded (decodeKey P a.algorithm a.isPrivate encoding)
    if m.algorithm? = some a.algorithm then return .key ⟨m, a.canSign, a.canVerify⟩
    else throw .keyTypeMismatch

/-- Creates a byte string. -/
def dataCreate (bytes : Bytes) : Service Ref := create fun _ => .ok (.data bytes)

/-- Creates a number. -/
def numberCreate (value : Int) : Service Ref := create fun _ => .ok (.number value)

/-! ### RSA operations -/

/-- The value of an operation, or that it failed. -/
def performed {α : Type} : Option α → Except ServiceError α
  | some a => .ok a
  | none => .error .operationFailed

/-- The input of an operation on `size` bytes: without padding it is filled up with
zeros in front. -/
def fitInput (padding : RsaPadding) (size : Nat) (input : Bytes) : Except ServiceError Bytes :=
  if padding ≠ .raw || input.length = size then .ok input
  else if size < input.length then .error .inputTooLong
  else .ok (Bytes.padLeft size input)

/-- The numbers of an RSA key. -/
def asRsa {α : Type} : Option α → Except ServiceError α
  | some k => .ok k
  | none => .error .notRsaKey

/-- Encrypts with the public part of a key into a buffer of `capacity` bytes. -/
def encryptWith (k : KeyObject) (padding : RsaPadding) (capacity : Nat) (e : Entropy)
    (input : Bytes) : Except ServiceError Bytes := do
  let rsa ← asRsa k.material.publicKey.rsa?
  if capacity < rsa.byteSize then throw .bufferTooSmall
  let input ← fitInput padding rsa.byteSize input
  performed (P.rsaEncrypt rsa padding e input)

/-- Decrypts with a private key into a buffer of `capacity` bytes. -/
def decryptWith (k : KeyObject) (padding : RsaPadding) (capacity : Nat) (input : Bytes) :
    Except ServiceError Bytes :=
  match k.material with
  | .ofPublic _ => .error .decryptionNeedsPrivateKey
  | .ofPrivate key => do
    let rsa ← asRsa key.rsa?
    if capacity < rsa.publicKey.byteSize then throw .bufferTooSmall
    let input ← fitInput padding rsa.publicKey.byteSize input
    performed (P.rsaDecrypt rsa padding input)

/-- Encrypts in a single call. -/
def keyEncrypt (key : Ref) (capacity : Nat) (e : Entropy) (input : Bytes) : Service Bytes :=
  query fun r => do encryptWith P (← r.key key) .pkcs1 capacity e input

/-- Decrypts in a single call. -/
def keyDecrypt (key : Ref) (capacity : Nat) (input : Bytes) : Service Bytes :=
  query fun r => do decryptWith P (← r.key key) .pkcs1 capacity input

end Service

end Keyring
