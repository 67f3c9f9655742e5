import Keyring.Dsa.Signature
import Keyring.Elliptic.Signature
import Keyring.Provider
import Keyring.Rsa.Encryption
import Keyring.Rsa.Signature

/-!
# The provider in use

The decoders, encoders and operations of this library, put together.
-/

namespace Keyring

/-- The most bytes of a password that a decoder of keys looks at. -/
def maxPassword : Nat := 1024

/-- The operation of a public key after padding. -/
def Rsa.PublicKey.encryptWith (k : Rsa.PublicKey) (p : RsaPadding) (e : Entropy) (m : Bytes) :
    Option Bytes :=
  match p with
  | .raw => k.applyBlock m
  | .pkcs1 => k.encrypt e m
  | .oaep => k.encryptOaep e m

/-- The operation of a private key before the padding is removed. -/
def Rsa.PrivateKey.decryptWith (k : Rsa.PrivateKey) (p : RsaPadding) (c : Bytes) : Option Bytes :=
  match p with
  | .raw => k.applyBlock c
  | .pkcs1 => k.decrypt c
  | .oaep => k.decryptOaep c

/-- Whether keys sign and verify by way of a digest. -/
def PublicKey.takesDigest : PublicKey → Bool
  | .other _ => false
  | _ => true

/-- Signs a message. -/
def PrivateKey.sign (k : PrivateKey) (a : HashAlgorithm) (e : Entropy) (m : Bytes) :
    Option Bytes :=
  match k with
  | .rsa k => k.sign a m
  | .dsa k => k.sign e a m
  | .ec k => k.sign e a m
  | .rsaPss _ | .other _ => none

/-- Whether a message has a signature. -/
def PublicKey.verify (k : PublicKey) (a : HashAlgorithm) (m signature : Bytes) : Option Bool :=
  match k with
  | .rsa k => some (k.verify a m signature)
  | .dsa k => some (k.verify a m signature)
  | .ec k => some (k.verify a m signature)
  | .rsaPss _ | .other _ => none

/-- The provider in use. -/
def Provider.standard : Provider where
  publicKey := PublicKey.read
  rsaPublicKey := fun b => (Rsa.PublicKey.read b).map .rsa
  certificate := X509.read
  publicKeyOfText := PublicKey.ofText
  rsaPublicKeyOfText := PublicKey.rsaOfText
  certificateOfText := X509.ofText
  privateKey := PrivateKey.read
  protectedPrivateKey := fun password b => PrivateKey.readProtected (password.take maxPassword) b
  privateKeyOfText := fun password b => PrivateKey.ofText (password.take maxPassword) b
  rsaPrivateKey := fun b => (Rsa.PrivateKey.read b).map .rsa
  ecPrivateKey := fun b => (Elliptic.PrivateKey.read none b).map PrivateKey.ofEc
  container := fun b => (Container.read b).map Container.open?
  encodePublic := PublicKey.write
  encodeWrapped := PrivateKey.writeWrapped
  encodeBare := PrivateKey.writeBare
  rsaEncrypt := Rsa.PublicKey.encryptWith
  rsaDecrypt := Rsa.PrivateKey.decryptWith
  takesDigest := PublicKey.takesDigest
  sign := PrivateKey.sign
  verify := PublicKey.verify

end Keyring
