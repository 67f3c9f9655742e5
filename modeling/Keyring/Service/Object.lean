import Keyring.Provider

/-!
# The objects of the key service

The service keeps certificates, keys, byte strings, numbers, truth values and
transforms.  Objects are known to callers by reference only.

## Main definitions

* `Ref` — a reference.
* `KeyObject`, `Transform`, `NativeObject` — the objects.
* `Transform.retained` — the references that a transform holds on to.
-/

namespace Keyring

/-- A reference to an object: the number under which it was created. -/
abbrev Ref := Nat

/-- The key in a key object. -/
inductive KeyMaterial where
  | ofPublic (key : PublicKey)
  | ofPrivate (key : PrivateKey)

namespace KeyMaterial

/-- The public key, or the public part of the private key. -/
def publicKey : KeyMaterial → PublicKey
  | ofPublic k => k
  | ofPrivate k => k.publicKey

/-- Whether the key is a private one. -/
def isPrivate : KeyMaterial → Bool
  | ofPublic _ => false
  | ofPrivate _ => true

/-- The algorithm, if it is one of those imported. -/
def algorithm? (m : KeyMaterial) : Option KeyAlgorithm := m.publicKey.algorithm?

end KeyMaterial

/-- A key with what it may be used for. -/
structure KeyObject where
  /-- The key. -/
  material : KeyMaterial
  /-- Whether it may sign. -/
  canSign : Bool
  /-- Whether it may verify. -/
  canVerify : Bool

/-- What a transform does. -/
inductive TransformKind where
  | encrypt
  | decrypt
  | sign
  | verify
  deriving DecidableEq, Repr

/-- Whether a transform needs a private key. -/
def TransformKind.needsPrivate : TransformKind → Bool
  | sign | decrypt => true
  | encrypt | verify => false

/-- An operation that is put together step by step. -/
structure Transform where
  /-- What it does. -/
  kind : TransformKind
  key : Ref
  /-- The signature to verify. -/
  signature : Option Ref
  /-- The family of the digest. -/
  digestType : Option DigestFamily := none
  /-- The length of the digest in bits, a number. -/
  digestLength : Option Ref := none
  padding : Option RsaPadding := none
  /-- The input, a byte string. -/
  input : Option Ref := none
  deriving DecidableEq, Repr

/-- The references that a transform holds on to, in the order in which it gives
them back. -/
def Transform.retained (t : Transform) : List Ref :=
  t.key :: (t.signature.toList ++ t.digestLength.toList ++ t.input.toList)

/-- An object of the service. -/
inductive NativeObject where
  | certificate (c : X509)
  | key (k : KeyObject)
  | data (bytes : Bytes)
  | number (value : Int)
  | boolean (value : Bool)
  | transform (t : Transform)

/-- The references that an object holds on to. -/
def NativeObject.retained : NativeObject → List Ref
  | transform t => t.retained
  | _ => []

/-- What a setting of a transform is set to. -/
inductive Attribute where
  | digestType (family : DigestFamily)
  | digestLength (number : Ref)
  | padding (padding : RsaPadding)
  | input (data : Ref)
  deriving DecidableEq, Repr

/-- What a key is created as. -/
structure KeyAttributes where
  /-- The algorithm its encoding has to be of. -/
  algorithm : KeyAlgorithm
  /-- Whether it is a private key. -/
  isPrivate : Bool
  /-- Whether it may sign. -/
  canSign : Bool
  /-- Whether it may verify. -/
  canVerify : Bool
  deriving DecidableEq, Repr

end Keyring
