import Keyring.Key.Parameters
import Keyring.Text.Quoted

/-!
# Errors

A call of the key service fails for one of a few causes, each with a status code
and a wording.  A call of the library fails for a cause of its own or passes a
failure of the service on.  A call may also not come to an end at all.

## Main definitions

* `ServiceError` — failures of the key service, with `code` and `message`.
* `CryptoError` — failures of the library, with `message` and `isContractViolation`.
* `Halt` — why a call is abandoned, with `message`.
-/

namespace Keyring

/-! ### Failures of the key service -/

/-- A failure of the key service. -/
inductive ServiceError where
  /-- No object has the reference. -/
  | unknownReference
  | notCertificate
  | notKey
  | notData
  | notNumber
  | notBoolean
  | notTransform
  /-- A key or certificate cannot be decoded. -/
  | undecodable
  /-- A key is of another algorithm than it was said to be. -/
  | keyTypeMismatch
  /-- Padding is set for a key that is no RSA key. -/
  | paddingNeedsRsa
  /-- Signing or decrypting is asked of a public key. -/
  | transformNeedsPrivateKey
  /-- Decrypting is asked of a public key. -/
  | decryptionNeedsPrivateKey
  /-- Signing is asked of a public key. -/
  | signingNeedsPrivateKey
  /-- Verifying is asked without a signature. -/
  | signatureMissing
  /-- A transform has no input. -/
  | inputMissing
  /-- SHA-2 has no member with a digest of the length. -/
  | digestLength (bits : Int)
  /-- The input of a raw operation is longer than the modulus. -/
  | inputTooLong
  /-- An RSA operation is asked of another key. -/
  | notRsaKey
  /-- The output does not fit. -/
  | bufferTooSmall
  | keyNotForSigning
  | keyNotForVerifying
  /-- Signatures do not have the padding. -/
  | paddingUnimplemented
  /-- The cryptographic operation itself fails. -/
  | operationFailed
  /-- A bare status code. -/
  | status (code : Int)
  deriving DecidableEq, Repr

namespace ServiceError

/-- The status for a parameter that is not valid. -/
def invalidParameter : Int := -50

/-- The status for a function that does not exist. -/
def unimplemented : Int := -4

/-- The status for data that cannot be decoded. -/
def decodeFailed : Int := -26275

/-- The status for a buffer that is too small. -/
def smallBuffer : Int := -25301

/-- The status for a reference that is not to a usable key. -/
def invalidKeyReference : Int := -67712

/-- The wording of a bare status code. -/
def statusText (code : Int) : String :=
  if code = invalidParameter then "One or more parameters passed to a function were not valid."
  else if code = unimplemented then "Function or operation not implemented."
  else if code = decodeFailed then "Unable to decode the provided data."
  else if code = smallBuffer then "The buffer is too small."
  else if code = invalidKeyReference then "A reference to a key is invalid."
  else "Unknown security service error."

/-- The status code of a failure. -/
def code : ServiceError → Int
  | notKey | transformNeedsPrivateKey | decryptionNeedsPrivateKey | signingNeedsPrivateKey
  | notRsaKey => invalidKeyReference
  | undecodable => decodeFailed
  | bufferTooSmall => smallBuffer
  | paddingUnimplemented => unimplemented
  | status code => code
  | _ => invalidParameter

/-- The wording of a failure. -/
def message : ServiceError → String
  | unknownReference => "unknown object reference"
  | notCertificate => "object is not a certificate"
  | notKey => statusText invalidKeyReference
  | notData => "object is not a data object"
  | notNumber => "object is not a number"
  | notBoolean => "object is not a boolean"
  | notTransform => "object is not a transform"
  | undecodable => statusText decodeFailed
  | keyTypeMismatch => "key data does not match the requested key type"
  | paddingNeedsRsa => "padding is only defined for RSA keys"
  | transformNeedsPrivateKey => "transform requires a private key"
  | decryptionNeedsPrivateKey => "decryption requires a private key"
  | signingNeedsPrivateKey => statusText invalidKeyReference
  | signatureMissing => "verify transform requires a signature"
  | inputMissing => "transform input is not set"
  | digestLength bits => "unsupported SHA-2 digest length " ++ toString bits
  | inputTooLong => "input is longer than the key modulus"
  | notRsaKey => "key is not an RSA key"
  | bufferTooSmall => statusText smallBuffer
  | keyNotForSigning => "key is not usable for signing"
  | keyNotForVerifying => "key is not usable for verification"
  | paddingUnimplemented => statusText unimplemented
  | operationFailed => "cryptographic operation failed"
  | status code => statusText code

end ServiceError

/-! ### Failures of the library -/

/-- A failure of the library. -/
inductive CryptoError where
  /-- No hash algorithm has the name, or the operation does not take it. -/
  | unsupportedHash (name : String)
  /-- The key is of another algorithm than the operation requires. -/
  | algorithmMismatch (expected actual : KeyAlgorithm)
  /-- The curve of an EC key is not one of those imported. -/
  | unsupportedCurve (curve : String)
  /-- The subgroup of a DSA key is of SHA-2 size. -/
  | unsupportedDsaKey (bits : Nat)
  /-- The key is neither an RSA nor a DSA nor an EC key. -/
  | unsupportedAlgorithm (name : String)
  /-- The handle was released. -/
  | released
  /-- The password of a container is not UTF-8. -/
  | invalidPassword
  /-- The source cannot be read. -/
  | sourceUnreadable
  | malformedCertificate
  | malformedPrivateKey
  | malformedPublicKey
  | malformedContainer
  /-- A message cannot be encoded for a PSS signature. -/
  | pssPadding
  /-- A signature is not one of the message. -/
  | invalidSignature
  /-- The key service fails. -/
  | service (e : ServiceError)
  deriving DecidableEq, Repr

namespace CryptoError

/-- Whether a failure is the caller's, found before the key service is called. -/
def isContractViolation : CryptoError → Bool
  | unsupportedHash _ | algorithmMismatch _ _ | unsupportedCurve _ | unsupportedDsaKey _
  | unsupportedAlgorithm _ | released | invalidPassword => true
  | _ => false

/-- The wording of a failure. -/
def message : CryptoError → String
  | unsupportedHash name =>
    "hash algorithm must be one of \"md5\", \"sha1\", \"sha224\", \"sha256\", \"sha384\", " ++
      "\"sha512\", not " ++ Text.quote name
  | algorithmMismatch expected actual =>
    "key algorithm mismatch: operation requires " ++ expected.name ++ ", key is " ++ actual.name
  | unsupportedCurve curve =>
    "only EC keys using the named curves secp256r1, secp384r1 and secp521r1 are supported, not " ++
      curve
  | unsupportedDsaKey bits =>
    "only DSA keys based on SHA1 are supported, this key is based on SHA2 and is " ++
      toString bits ++ " bits"
  | unsupportedAlgorithm name => "unsupported key algorithm " ++ name
  | released => "native handle has already been released"
  | invalidPassword => "password is not valid UTF-8"
  | sourceUnreadable => "failed to read key source"
  | malformedCertificate => "failed to parse certificate"
  | malformedPrivateKey => "failed to parse private key"
  | malformedPublicKey => "failed to parse public key"
  | malformedContainer => "failed to parse PKCS#12 container"
  | pssPadding => "PSS padding error"
  | invalidSignature => "signature is invalid"
  | service e => "security service error " ++ toString e.code ++ ": " ++ e.message

end CryptoError

/-! ### Calls that do not end -/

/-- Why a call is abandoned. -/
inductive Halt where
  /-- A password holds a zero byte, which decoders cannot be given. -/
  | passwordWithZero
  /-- An object was released that is not there. -/
  | overRelease
  /-- A size does not fit 64 bits. -/
  | sizeOverflow
  deriving DecidableEq, Repr

/-- The wording of a sum that does not fit its number of bits. -/
def overflowMessage : String := "attempt to add with overflow"

/-- The wording of a reason.  That a decoder cannot be given a password has none. -/
def Halt.message : Halt → Option String
  | passwordWithZero => none
  | overRelease => some "release of an unknown or freed object"
  | sizeOverflow => some overflowMessage

/-- How a call fails. -/
inductive Failure where
  /-- With an error. -/
  | error (e : CryptoError)
  /-- By being abandoned. -/
  | halt (h : Halt)
  deriving DecidableEq, Repr

end Keyring
