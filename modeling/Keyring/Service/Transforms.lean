import Keyring.Service.Keys

/-!
# Transforms in the service

A transform is created for a key, set up attribute by attribute and executed.  It
holds on to everything it was given.  Execution first captures all that the
transform refers to and then runs on what was captured, without the registry.

## Main definitions

* `transformCreate`, `transformSet` — putting a transform together.
* `Captured`, `capture`, `Captured.run`, `transformExecute` — its execution.
* `dataBytes`, `booleanValue` — reading what came out.
-/

namespace Keyring

variable (P : Provider)

namespace Service

/-! ### Putting together -/

/-- The signature a new transform holds on to: only verifying takes one. -/
def transformSignature (r : Registry) (kind : TransformKind) (signature : Option Ref) :
    Except ServiceError (Option Ref) :=
  match kind with
  | .verify =>
    match signature with
    | none => .error .signatureMissing
    | some s => do
      let _ ← r.data s
      return some s
  | _ => .ok none

/-- A new transform for a key. -/
def newTransform (r : Registry) (kind : TransformKind) (key : Ref) (signature : Option Ref) :
    Except ServiceError Transform := do
  let k ← r.key key
  if kind.needsPrivate && !k.material.isPrivate then throw .transformNeedsPrivateKey
  return { kind, key, signature := ← transformSignature r kind signature }

/-- Creates a transform, which becomes an owner of its key and its signature. -/
def transformCreate (kind : TransformKind) (key : Ref) (signature : Option Ref) : Service Ref :=
  fun r =>
    match newTransform r kind key signature with
    | .error e => .ok (.error e) r
    | .ok t =>
      let held := t.signature.toList.foldl Registry.retain (r.retain t.key)
      .ok (.ok (held.last + 1)) (held.insert (.transform t))

/-- The transform with an attribute set, with the reference that becomes held and
the one that is not held any more. -/
structure Setting where
  /-- The transform after the change. -/
  transform : Transform
  /-- What it holds on to from now on. -/
  gained : Option Ref
  /-- What it held on to before. -/
  lost : Option Ref

/-- Checks the setting of an attribute. -/
def setting (r : Registry) (x : Ref) (a : Attribute) : Except ServiceError Setting :=
  match a with
  | .digestType family => do
    let t ← r.transformToChange x
    return ⟨{ t with digestType := some family }, none, none⟩
  | .padding padding => do
    let t ← r.transform x
    if padding ≠ .raw then
      let k ← r.key t.key
      if k.material.algorithm? ≠ some .rsa then throw .paddingNeedsRsa
    return ⟨{ t with padding := some padding }, none, none⟩
  | .digestLength number => do
    let t ← r.transform x
    let _ ← r.number number
    return ⟨{ t with digestLength := some number }, some number, t.digestLength⟩
  | .input data => do
    let t ← r.transform x
    let _ ← r.data data
    return ⟨{ t with input := some data }, some data, t.input⟩

/-- Sets an attribute.  What the transform held on to in its place is given back
last. -/
def transformSet (x : Ref) (a : Attribute) : Service Unit := fun r =>
  match setting r x a with
  | .error e => .ok (.error e) r
  | .ok s =>
    -- retained before anything is given back: it may be the same object
    let held := s.gained.toList.foldl Registry.retain r
    match (held.replace x (.transform s.transform)).releaseAll s.lost.toList with
    | .ok _ r => .ok (.ok ()) r
    | .error h r => .error h r

/-! ### Execution -/

/-- The hash algorithm of a family and a length; without a family it is SHA-1. -/
def digestOf (family : Option DigestFamily) (length : Option Int) :
    Except ServiceError HashAlgorithm :=
  match family.getD .sha1, length with
  | .md5, _ => .ok .md5
  | .sha1, _ => .ok .sha1
  | .sha2, none => .ok .sha512
  | .sha2, some n =>
    if n = 224 then .ok .sha224
    else if n = 256 then .ok .sha256
    else if n = 384 then .ok .sha384
    else if n = 512 then .ok .sha512
    else .error (.digestLength n)

/-- The hash algorithm that a transform is set to. -/
def transformDigest (r : Registry) (t : Transform) : Except ServiceError HashAlgorithm := do
  let length ← t.digestLength.mapM r.number
  digestOf t.digestType length

/-- Everything that the execution of a transform needs. -/
structure Captured where
  /-- What it does. -/
  kind : TransformKind
  key : KeyObject
  padding : Option RsaPadding
  /-- Its hash algorithm, if it signs or verifies. -/
  digest : Option HashAlgorithm
  input : Bytes
  /-- The signature to verify. -/
  signature : Option Bytes

/-- Hash algorithm and signature that a transform needs. -/
def captureDigest (r : Registry) (t : Transform) :
    Except ServiceError (Option HashAlgorithm × Option Bytes) :=
  match t.kind with
  | .encrypt | .decrypt => .ok (none, none)
  | .sign => do return (some (← transformDigest r t), none)
  | .verify =>
    match t.signature with
    | none => .error (.status ServiceError.invalidParameter)
    | some s => do
      let digest ← transformDigest r t
      return (some digest, some (← r.data s))

/-- Captures what the execution of a transform needs. -/
def capture (r : Registry) (x : Ref) : Except ServiceError Captured := do
  let t ← r.transform x
  match t.input with
  | none => throw .inputMissing
  | some input =>
    let (digest, signature) ← captureDigest r t
    let key ← r.key t.key
    return ⟨t.kind, key, t.padding, digest, ← r.data input, signature⟩

/-- The padding of a signature: RSA keys have that of PKCS #1, others have none. -/
def checkSignaturePadding (k : KeyObject) (padding : Option RsaPadding) :
    Except ServiceError Unit :=
  if k.material.algorithm? = some .rsa then
    match padding with
    | none | some .pkcs1 => .ok ()
    | some _ => .error .paddingUnimplemented
  else
    match padding with
    | none => .ok ()
    | some _ => .error .paddingNeedsRsa

/-- Signs a message with a key. -/
def signWith (k : KeyObject) (a : HashAlgorithm) (padding : Option RsaPadding) (e : Entropy)
    (input : Bytes) : Except ServiceError Bytes := do
  if !k.canSign then throw .keyNotForSigning
  match k.material with
  | .ofPublic _ => throw .signingNeedsPrivateKey
  | .ofPrivate key =>
    if !P.takesDigest key.publicKey then throw .operationFailed
    checkSignaturePadding k padding
    performed (P.sign key a e input)

/-- Verifies a signature with a key. -/
def verifyWith (k : KeyObject) (a : HashAlgorithm) (padding : Option RsaPadding)
    (input signature : Bytes) : Except ServiceError Bool := do
  if !k.canVerify then throw .keyNotForVerifying
  if !P.takesDigest k.material.publicKey then throw .operationFailed
  checkSignaturePadding k padding
  -- a malformed signature is an invalid one
  return (P.verify k.material.publicKey a input signature).getD false

/-- The bytes that an output of a key takes. -/
def outputSize (k : KeyObject) : Nat := (k.material.publicKey.rsa?).elim 0 Rsa.PublicKey.byteSize

/-- A part of what was captured that is needed. -/
def needed {α : Type} : Option α → Except ServiceError α
  | some a => .ok a
  | none => .error (.status ServiceError.invalidParameter)

/-- Runs what was captured. -/
def Captured.run (c : Captured) (e : Entropy) : Except ServiceError NativeObject :=
  match c.kind with
  | .encrypt =>
    (encryptWith P c.key (c.padding.getD .pkcs1) (outputSize c.key) e c.input).map .data
  | .decrypt =>
    (decryptWith P c.key (c.padding.getD .pkcs1) (outputSize c.key) c.input).map .data
  | .sign => do return .data (← signWith P c.key (← needed c.digest) c.padding e c.input)
  | .verify => do
    let a ← needed c.digest
    return .boolean (← verifyWith P c.key a c.padding c.input (← needed c.signature))

/-- Executes a transform; its output is a new object. -/
def transformExecute (x : Ref) (e : Entropy) : Service Ref :=
  create fun r => do (← capture r x).run P e

/-- The bytes of a byte string. -/
def dataBytes (x : Ref) : Service Bytes := query fun r => r.data x

/-- The value of a truth value. -/
def booleanValue (x : Ref) : Service Bool := query fun r => r.boolean x

end Service

end Keyring
