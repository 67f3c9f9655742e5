import Keyring.Session.Handle
import Keyring.Session.Scope

/-!
# RSA encryption and decryption

Whoever holds a public key or a certificate can encrypt, whoever holds the private
key can decrypt.  Padding of PKCS #1 version 1.5 is a single call of the service with
a buffer of the size of the key; OAEP and raw operations are put together step by
step.

## Main definitions

* `encrypt`, `decrypt` — the operations under a padding.
-/

namespace Keyring

variable (P : Provider)

/-- Encrypts with a public key in the service. -/
def encryptUnder (padding : RsaPadding) (k : PublicHandle) (input : Bytes) (e : Entropy) :
    Action Bytes := do
  let x ← Action.ofExcept (owned k.ref)
  match padding with
  | .pkcs1 => Action.ofService (Service.keyEncrypt P x k.info.byteSize e input)
  | _ => ExceptT.mk (stagedCipher (.registry P) .encrypt x padding input e)

/-- Encrypts with the RSA key of a public key or certificate. -/
def encrypt (padding : RsaPadding) (s : PublicSource) (input : Bytes) (e : Entropy) :
    EStateM Halt Registry (Except CryptoError Bytes × PublicSource) :=
  s.use .rsa (.ok ()) fun _ k => encryptUnder P padding k input e

/-- Decrypts with a private key in the service. -/
def decryptUnder (padding : RsaPadding) (k : PrivateHandle) (input : Bytes) (e : Entropy) :
    Action Bytes := do
  let x ← Action.ofExcept (owned k.ref)
  match padding with
  | .pkcs1 => Action.ofService (Service.keyDecrypt P x k.info.byteSize input)
  | _ => ExceptT.mk (stagedCipher (.registry P) .decrypt x padding input e)

/-- Decrypts with an RSA key. -/
def decrypt (padding : RsaPadding) (k : PrivateHandle) (input : Bytes) (e : Entropy) :
    Action Bytes := do
  Action.ofExcept (requireAlgorithm k.info.algorithm .rsa)
  decryptUnder P padding k input e

end Keyring
