import Keyring.Elliptic.Group

/-!
# EC keys and their encodings

A public key is a point of a curve, a private key the number that the generator is
multiplied by to get it.  A private key may come with its public point or without;
its encoding is written as it came.

## Main definitions

* `PublicKey`, `PrivateKey` — the keys.
* `PublicKey.ofPoint` — reads a point as a key.
* `PrivateKey.read`, `PrivateKey.write` — ECPrivateKey, with the curve inside.
-/

namespace Keyring.Elliptic

open Asn1

/-- A public key. -/
structure PublicKey where
  /-- The curve. -/
  group : Group
  /-- The form in which the point is written. -/
  form : PointForm
  point : Point

/-- A private key. -/
structure PrivateKey where
  /-- The version number of the encoding it was read from. -/
  version : Int
  /-- The curve. -/
  group : Group
  /-- The number. -/
  scalar : Nat
  /-- The public point in its form, if the encoding had it. -/
  point : Option (PointForm × Point)

/-- The public part of a private key, worked out if it did not come with it. -/
def PrivateKey.publicKey (k : PrivateKey) : PublicKey :=
  match k.point with
  | some (form, q) => ⟨k.group, form, q⟩
  | none => ⟨k.group, .uncompressed, k.group.curve.scale k.scalar k.group.curve.generator⟩

/-- The size of a key: that of the order of its group. -/
def Group.bitSize (g : Group) : Nat := bitLength g.curve.order

/-- Reads the point of a public key. -/
def PublicKey.ofPoint (g : Group) (input : Bytes) : Option PublicKey :=
  (PointForm.read g.curve input).map fun (form, q) => ⟨g, form, q⟩

/-- Writes the point of a public key. -/
def PublicKey.writePoint (k : PublicKey) : Option Bytes := k.form.write k.group.curve k.point

/-- Reads the optional point of a private key. -/
def readPoint (g : Group) : Option Element → Option (Option (PointForm × Point))
  | none => some none
  | some e => do
    if !Lenient.sameTag .bitString e.tag then none
    return some (← PointForm.read g.curve (← Lenient.bits e))

/-- Reads the parts of a private key; a curve inside goes before one given outside. -/
def PrivateKey.ofParts (outer : Option Group) (parts : List Element) : Option PrivateKey := do
  let (v, parts) ← Lenient.take .integer parts
  let version ← Lenient.small? v
  let (scalar, parts) ← Lenient.take .octetString parts
  let scalar ← Lenient.octets scalar
  let (parameters, parts) ← Lenient.takeExplicit 0 parts
  let (point, parts) ← Lenient.takeExplicit 1 parts
  if !parts.isEmpty then none
  let group ← match parameters with
    | some e => Group.read e
    | none => outer
  return ⟨version, group, Bytes.value scalar, ← readPoint group point⟩

/-- Reads ECPrivateKey; what follows it is ignored. -/
def PrivateKey.read (outer : Option Group) (input : Bytes) : Option PrivateKey :=
  (Lenient.sequence input).bind (PrivateKey.ofParts outer)

/-- Writes ECPrivateKey, with or without the curve. -/
def PrivateKey.writeAs (k : PrivateKey) (version : Int) (withGroup : Bool) : Option Bytes := do
  let n := k.group.scalarSize
  if n < byteLength k.scalar then none
  let parameters ← if withGroup then (k.group.write).map fun p => [Write.context 0 p] else some []
  let point ← match k.point with
    | some (form, q) =>
      (form.write k.group.curve q).map fun b => [Write.context 1 (Write.bitString b)]
    | none => some []
  return Write.sequence
    ([Write.signed version, Write.octetString (Bytes.ofNat n k.scalar)] ++ parameters ++ point)

/-- Writes ECPrivateKey under the version number it was read with, without the curve. -/
def PrivateKey.writeKept (k : PrivateKey) : Option Bytes := k.writeAs k.version false

/-- Writes ECPrivateKey under version one with the curve. -/
def PrivateKey.write (k : PrivateKey) : Option Bytes := k.writeAs 1 true

end Keyring.Elliptic
