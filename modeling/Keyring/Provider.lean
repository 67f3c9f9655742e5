import Keyring.Certificate.Encoding
import Keyring.Container.Contents
import Keyring.Entropy
import Keyring.Hash.Algorithm

/-!
# The cryptographic provider

Decoding, encoding and the operations on keys are a parameter of everything built on
them: the import of keys, the key service and the operations through handles only
use what is listed here.

## Main definitions

* `RsaPadding` — the paddings of RSA blocks.
* `Provider` — decoders, encoders and operations.
-/

namespace Keyring

/-- A padding of RSA blocks. -/
inductive RsaPadding where
  /-- None: the block is the input. -/
  | raw
  /-- PKCS #1 version 1.5. -/
  | pkcs1
  | oaep
  deriving DecidableEq, Repr

/-- The cryptography that keys and operations rest on.  A decoder gives nothing for
what it does not take; an operation gives nothing if it fails. -/
structure Provider where
  /-- A public key with its algorithm. -/
  publicKey : Bytes → Option PublicKey
  /-- An RSA key in its own structure. -/
  rsaPublicKey : Bytes → Option PublicKey
  /-- A certificate. -/
  certificate : Bytes → Option X509
  /-- The public key in a text. -/
  publicKeyOfText : Bytes → Option PublicKey
  /-- The RSA key in its own structure in a text. -/
  rsaPublicKeyOfText : Bytes → Option PublicKey
  /-- The certificate in a text. -/
  certificateOfText : Bytes → Option X509
  /-- A private key that is not encrypted, in any structure. -/
  privateKey : Bytes → Option PrivateKey
  /-- An encrypted private key, under a password. -/
  protectedPrivateKey : Bytes → Bytes → Option PrivateKey
  /-- The private key in a text, under a password. -/
  privateKeyOfText : Bytes → Bytes → Option PrivateKey
  /-- An RSA private key in its own structure. -/
  rsaPrivateKey : Bytes → Option PrivateKey
  /-- An EC private key in its own structure. -/
  ecPrivateKey : Bytes → Option PrivateKey
  /-- A container: what opens it under a password. -/
  container : Bytes → Option (Bytes → Option Contents)
  /-- A public key together with its algorithm. -/
  encodePublic : PublicKey → Option Bytes
  /-- A private key together with its algorithm. -/
  encodeWrapped : PrivateKey → Option Bytes
  /-- A private key in the structure of its algorithm. -/
  encodeBare : PrivateKey → Option Bytes
  /-- The RSA operation of a public key after padding. -/
  rsaEncrypt : Rsa.PublicKey → RsaPadding → Entropy → Bytes → Option Bytes
  /-- The RSA operation of a private key before the padding is removed. -/
  rsaDecrypt : Rsa.PrivateKey → RsaPadding → Bytes → Option Bytes
  /-- Whether messages can be signed, or signatures verified, by way of a digest. -/
  takesDigest : PublicKey → Bool
  /-- The signature of a message, with padding of PKCS #1 version 1.5 for RSA keys and none for
  others. -/
  sign : PrivateKey → HashAlgorithm → Entropy → Bytes → Option Bytes
  /-- Whether a message has a signature of this kind: key, hash algorithm, message, signature.
  There need not be an answer for bytes that are no signature at all. -/
  verify : PublicKey → HashAlgorithm → Bytes → Bytes → Option Bool

end Keyring
