import Keyring.Service.Transforms

/-!
# Operations put together from service calls

An operation that is put together step by step creates objects on the way.  Whether
it succeeds or not, all of them are given back at its end, the last one first.  The
service behind it is a parameter, with calls in any monad.

## Main definitions

* `StagedService` — the calls that operations are put together from.
* `Scope` — an operation under way, `Scope.close` its end.
* `stagedCipher`, `stagedSign`, `stagedVerify` — the operations.
-/

namespace Keyring

/-- The calls of a service that operations are put together from. -/
structure StagedService (m : Type → Type) where
  /-- Creates a byte string. -/
  dataCreate : Bytes → m (Except ServiceError Ref)
  /-- Creates a number. -/
  numberCreate : Int → m (Except ServiceError Ref)
  /-- Creates a transform for a key. -/
  transformCreate : TransformKind → Ref → Option Ref → m (Except ServiceError Ref)
  /-- Sets an attribute of a transform. -/
  transformSet : Ref → Attribute → m (Except ServiceError Unit)
  /-- Executes a transform. -/
  transformExecute : Ref → Entropy → m (Except ServiceError Ref)
  /-- Reads a byte string. -/
  dataBytes : Ref → m (Except ServiceError Bytes)
  /-- Reads a truth value. -/
  booleanValue : Ref → m (Except ServiceError Bool)
  /-- Gives a reference back. -/
  release : Ref → m Unit

/-- The key service. -/
def StagedService.registry (P : Provider) : StagedService (EStateM Halt Registry) where
  dataCreate := Service.dataCreate
  numberCreate := Service.numberCreate
  transformCreate := Service.transformCreate
  transformSet := Service.transformSet
  transformExecute := Service.transformExecute P
  dataBytes := Service.dataBytes
  booleanValue := Service.booleanValue
  release := Service.release

/-- An operation under way, with the objects it has created, the last one first. -/
abbrev Scope (m : Type → Type) (α : Type) := ExceptT CryptoError (StateT (List Ref) m) α

namespace Scope

variable {m : Type → Type} [Monad m] {α : Type}

/-- A call whose failure ends the operation. -/
def ask (call : m (Except ServiceError α)) : Scope m α := do
  match ← (liftM call : StateT (List Ref) m (Except ServiceError α)) with
  | .ok a => return a
  | .error e => throw (.service e)

/-- A call that creates an object. -/
def create (call : m (Except ServiceError Ref)) : Scope m Ref := do
  let x ← ask call
  modifyThe (List Ref) (x :: ·)
  return x

/-- Runs an operation to its end and gives back what it has created. -/
def close (S : StagedService m) (body : Scope m α) : m (Except CryptoError α) := do
  let (result, created) ← body.run.run []
  created.forM S.release
  return result

variable (S : StagedService m)

/-- Gives a transform its input. -/
def setInput (t : Ref) (bytes : Bytes) : Scope m Unit := do
  let d ← create (S.dataCreate bytes)
  ask (S.transformSet t (.input d))

/-- Sets the hash algorithm of a transform: the family, and within SHA-2 the length. -/
def setDigest (t : Ref) (a : HashAlgorithm) : Scope m Unit := do
  ask (S.transformSet t (.digestType a.family))
  match a.lengthAttribute with
  | none => return ()
  | some bits =>
    let n ← create (S.numberCreate bits)
    ask (S.transformSet t (.digestLength n))

/-- Sets the padding of a signature: that of PKCS #1 for RSA keys, none for others. -/
def setSignaturePadding (t : Ref) (algorithm : KeyAlgorithm) : Scope m Unit :=
  if algorithm = .rsa then ask (S.transformSet t (.padding .pkcs1)) else pure ()

end Scope

variable {m : Type → Type} [Monad m] (S : StagedService m)

open Scope

/-- Encrypts or decrypts under a padding. -/
def stagedCipher (kind : TransformKind) (key : Ref) (padding : RsaPadding) (input : Bytes)
    (e : Entropy) : m (Except CryptoError Bytes) :=
  close S do
    let t ← create (S.transformCreate kind key none)
    ask (S.transformSet t (.padding padding))
    setInput S t input
    let out ← create (S.transformExecute t e)
    ask (S.dataBytes out)

/-- Signs a message. -/
def stagedSign (key : Ref) (algorithm : KeyAlgorithm) (a : HashAlgorithm) (message : Bytes)
    (e : Entropy) : m (Except CryptoError Bytes) :=
  close S do
    let t ← create (S.transformCreate .sign key none)
    setDigest S t a
    setSignaturePadding S t algorithm
    setInput S t message
    let out ← create (S.transformExecute t e)
    ask (S.dataBytes out)

/-- Verifies a signature. -/
def stagedVerify (key : Ref) (algorithm : KeyAlgorithm) (a : HashAlgorithm)
    (signature message : Bytes) (e : Entropy) : m (Except CryptoError Bool) :=
  close S do
    -- the signature is created first, so it is given back last
    let s ← create (S.dataCreate signature)
    let t ← create (S.transformCreate .verify key (some s))
    setDigest S t a
    setSignaturePadding S t algorithm
    setInput S t message
    let out ← create (S.transformExecute t e)
    ask (S.booleanValue out)

end Keyring
