import Keyring.Key.Inspection
import Keyring.Text.Quoted

/-!
# What is known of a key before it is imported

A decoded key or certificate is described by its algorithm with parameters, its size
and the exact encodings that are handed on.

## Main definitions

* `PublicInfo`, `PrivateInfo`, `CertificateInfo` — the descriptions.
* `ContainerInfo` — what a container holds.
* `PrivateInfo.text` — a description in which the key itself does not appear.
-/

namespace Keyring

/-- What is known of a public key. -/
structure PublicInfo where
  /-- Algorithm and parameters. -/
  parameters : KeyParameters
  /-- The size in bits. -/
  bitSize : Nat
  /-- The key with its algorithm, encoded. -/
  encoding : Bytes
  deriving DecidableEq, Repr

/-- What is known of a private key. -/
structure PrivateInfo where
  /-- Algorithm and parameters. -/
  parameters : KeyParameters
  /-- The size in bits. -/
  bitSize : Nat
  /-- The key with its algorithm, encoded. -/
  wrapped : Bytes
  /-- The key in the structure of its algorithm, encoded. -/
  bare : Bytes
  deriving DecidableEq, Repr

/-- What is known of a certificate. -/
structure CertificateInfo where
  /-- The certificate, encoded. -/
  encoding : Bytes
  /-- Its key. -/
  publicKey : PublicInfo
  deriving DecidableEq, Repr

/-- What a container holds. -/
structure ContainerInfo where
  privateKey : Option PrivateInfo
  /-- The certificate of the private key. -/
  certificate : Option CertificateInfo
  /-- All other certificates, in order. -/
  others : List CertificateInfo
  deriving DecidableEq, Repr

namespace PublicInfo

/-- The algorithm. -/
def algorithm (i : PublicInfo) : KeyAlgorithm := i.parameters.algorithm

/-- The size in bytes. -/
def byteSize (i : PublicInfo) : Nat := bytesFor i.bitSize

/-- The modulus of an RSA key, without leading zero bytes. -/
def modulus (i : PublicInfo) : Option Bytes := Inspection.modulusOf i.encoding

end PublicInfo

namespace PrivateInfo

/-- The algorithm. -/
def algorithm (i : PrivateInfo) : KeyAlgorithm := i.parameters.algorithm

/-- The size in bytes. -/
def byteSize (i : PrivateInfo) : Nat := bytesFor i.bitSize

end PrivateInfo

namespace CertificateInfo

/-- The algorithm of the key. -/
def algorithm (i : CertificateInfo) : KeyAlgorithm := i.publicKey.algorithm

/-- The size of the key in bits. -/
def bitSize (i : CertificateInfo) : Nat := i.publicKey.bitSize

/-- The size of the key in bytes. -/
def byteSize (i : CertificateInfo) : Nat := i.publicKey.byteSize

end CertificateInfo

/-- The hash family of a DSA key. -/
def KeyParameters.dsaHash? : KeyParameters → Option DsaHash
  | dsa h => some h
  | _ => none

/-- The curve of an EC key. -/
def KeyParameters.curve? : KeyParameters → Option CurveSpec
  | ec c => some c
  | _ => none

/-! ### Text -/

/-- The parameters as they are shown in a description. -/
def KeyParameters.text : KeyParameters → String
  | rsa => "Rsa"
  | dsa .sha1 => "Dsa(Sha1)"
  | dsa .sha2 => "Dsa(Sha2)"
  | ec (.named name) => "Ec(Named(" ++ Text.quote name ++ "))"
  | ec .explicit => "Ec(Explicit)"
  | ec .inherited => "Ec(ImplicitlyCa)"

/-- A description without the key itself. -/
def PrivateInfo.text (i : PrivateInfo) : String :=
  "PrivateKeyInfo \x7b params: " ++ i.parameters.text ++ ", bit_size: " ++ toString i.bitSize ++
    ", .. \x7d"

end Keyring
