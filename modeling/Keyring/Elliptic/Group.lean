import Keyring.Asn1.Lenient
import Keyring.Asn1.Write
import Keyring.Elliptic.Named
import Keyring.Elliptic.PointForm

/-!
# How a key gives its curve

The parameters of an EC key name a known curve or spell out field, coefficients,
generator, order and cofactor.  Spelled-out parameters of a known curve are written
again from what is known of that curve.

## Main definitions

* `Group` — a curve together with how it is given.
* `Group.read`, `Group.write` — the parameters.
-/

namespace Keyring.Elliptic

open Asn1

/-- A curve as the parameters of a key give it. -/
structure Group where
  curve : Curve
  /-- The identifier, if the curve is named. -/
  name : Option Oid
  /-- The seed, if the curve is spelled out with one. -/
  seed : Option Bytes
  /-- The form in which the generator is spelled out. -/
  form : PointForm

namespace Group

/-- Prime fields. -/
def primeField : Oid := [1, 2, 840, 10045, 1, 1]

/-- Fields of characteristic two. -/
def binaryField : Oid := [1, 2, 840, 10045, 1, 2]

/-- Polynomials of three terms. -/
def trinomial : Oid := [1, 2, 840, 10045, 1, 2, 3, 2]

/-- Polynomials of five terms. -/
def pentanomial : Oid := [1, 2, 840, 10045, 1, 2, 3, 3]

/-- The largest degree of a field. -/
def maxDegree : Nat := 661

/-! ### Reading -/

/-- Reads the polynomial of a field of degree `m`. -/
def readPolynomial (m : Nat) (basis : Bytes) (e : Element) : Option Nat := do
  if basis = trinomial.content then
    if !Lenient.sameTag .integer e.tag then none
    let k ← Lenient.integer? e
    -- the polynomial `x ^ m + x ^ k + 1`
    if 0 < k && k < m then return twoTo m + twoTo k.toNat + 1 else none
  else if basis = pentanomial.content then
    if !Lenient.sameTag .sequence e.tag then none
    match ← (← Lenient.partsOf e).mapM fun e =>
        if Lenient.sameTag .integer e.tag then Lenient.small? e else none with
    | [k₁, k₂, k₃] =>
      if 0 < k₁ && k₁ < k₂ && k₂ < k₃ && k₃ < m then
        return twoTo m + twoTo k₃.toNat + twoTo k₂.toNat + twoTo k₁.toNat + 1
      else none
    | _ => none
  else none

/-- Reads a field. -/
def readField (e : Element) : Option Field := do
  match ← Lenient.partsOf e with
  | [kind, details] =>
    if !Lenient.sameTag .oid kind.tag then none
    let kind ← Lenient.oid? kind
    if kind = primeField.content then
      if !Lenient.sameTag .integer details.tag then none
      let p ← Lenient.integer? details
      -- that it is a prime is not tested
      if p ≤ 4 || p % 2 = 0 || maxDegree < bitLength p.toNat then none
      return .prime p.toNat
    else if kind = binaryField.content then
      if !Lenient.sameTag .sequence details.tag then none
      match ← Lenient.partsOf details with
      | [m, basis, polynomial] =>
        if !Lenient.sameTag .integer m.tag || !Lenient.sameTag .oid basis.tag then none
        let m ← Lenient.small? m
        if m < 1 || Int.ofNat maxDegree < m then none
        return .binary (← readPolynomial m.toNat (← Lenient.oid? basis) polynomial)
      | _ => none
    else none
  | _ => none

/-- A coefficient brought into the field. -/
def reduce : Field → Nat → Nat
  | .prime p, x => x % p
  | .binary f, x => Arith.Binary.mul f (x % twoTo (Arith.Binary.degree f)) 1

/-- The cofactor of a subgroup, worked out from the sizes of field and subgroup;
zero if the subgroup is too small for that. -/
def impliedCofactor (f : Field) (order : Nat) : Nat :=
  let (bits, q) := match f with
    | .prime p => (bitLength p, p)
    | .binary g => (bitLength g, twoTo (Arith.Binary.degree g))
  if bitLength order ≤ (bits + 1) / 2 + 3 then 0 else (q + 1 + order / 2) / order

/-- A curve of given coefficients without generator. -/
def bare (f : Field) (a b : Nat) : Curve := ⟨f, reduce f a, reduce f b, 0, 0, 0, 0⟩

/-- Reads the coefficients and the seed. -/
def readCoefficients (f : Field) (e : Element) : Option (Curve × Option Bytes) := do
  let parts ← Lenient.partsOf e
  let (a, parts) ← Lenient.take .octetString parts
  let (b, parts) ← Lenient.take .octetString parts
  let curve := bare f (Bytes.value (← Lenient.octets a)) (Bytes.value (← Lenient.octets b))
  match parts with
  | [] => return (curve, none)
  | [s] =>
    if Lenient.sameTag .bitString s.tag then return (curve, some (← Lenient.bits s)) else none
  | _ => none

/-- Replaces a spelled-out curve by the known one with its coefficients. -/
def recognise (g : Group) : Group :=
  match matching? g.curve g.seed with
  | some known =>
    { g with curve := known.curve, seed := g.seed.bind fun _ => known.seed, form := .uncompressed }
  | none => g

/-- Reads a cofactor, which may be missing. -/
def readCofactor (f : Field) (order : Nat) : List Element → Option Nat
  | [] => some (impliedCofactor f order)
  | [e] => do
    if !Lenient.sameTag .integer e.tag then none
    let h ← Lenient.integer? e
    if h < 0 then none
    return if h = 0 then impliedCofactor f order else h.toNat
  | _ => none

/-- Reads a curve that is spelled out. -/
def readExplicit (e : Element) : Option Group := do
  let parts ← Lenient.partsOf e
  let (v, parts) ← Lenient.take .integer parts
  let _ ← Lenient.small? v
  let (field, parts) ← Lenient.take .sequence parts
  let field ← readField field
  let (coefficients, parts) ← Lenient.take .sequence parts
  let (curve, seed) ← readCoefficients field coefficients
  let (base, parts) ← Lenient.take .octetString parts
  let (order, parts) ← Lenient.take .integer parts
  let order ← Lenient.integer? order
  if order < 1 || field.degree + 1 < bitLength order.toNat then none
  let cofactor ← readCofactor field order.toNat parts
  match ← PointForm.read curve (← Lenient.octets base) with
  | (form, .affine x y) =>
    return recognise
      ⟨{ curve with x := x, y := y, order := order.toNat, cofactor := cofactor }, none, seed, form⟩
  | _ => none

/-- The group of a known curve. -/
def ofNamed (n : Named) : Group := ⟨n.curve, some n.oid, none, .uncompressed⟩

/-- Reads the parameters of a key. -/
def read (e : Element) : Option Group :=
  if Lenient.sameTag .oid e.tag then do
    let o ← Lenient.oid? e
    (table.find? fun n => n.oid.content == o).map ofNamed
  else if Lenient.sameTag .sequence e.tag then readExplicit e
  else none

/-! ### Writing -/

/-- The exponents of the terms of a polynomial strictly between its ends. -/
def middleTerms (f : Nat) : List Nat :=
  (List.range (Arith.Binary.degree f)).filter fun i => 0 < i && f.testBit i

/-- Writes a field. -/
def writeField : Field → Bytes
  | .prime p => Write.sequence [Write.oid primeField, Write.integer p]
  | .binary f =>
    let m := Write.integer (Arith.Binary.degree f)
    let basis := match middleTerms f with
      | [k] => [Write.oid trinomial, Write.integer k]
      | ks => [Write.oid pentanomial, Write.sequence (ks.map Write.integer)]
    Write.sequence [Write.oid binaryField, Write.sequence (m :: basis)]

/-- Writes a curve in full. -/
def writeExplicit (g : Group) : Option Bytes := do
  let c := g.curve
  let n := c.field.byteSize
  let base ← g.form.write c c.generator
  return Write.sequence
    [Write.integer 1, writeField c.field,
     Write.sequence
      ([Write.octetString (Bytes.ofNat n c.a), Write.octetString (Bytes.ofNat n c.b)] ++
        g.seed.toList.map Write.bitString),
     Write.octetString base, Write.integer c.order, Write.integer c.cofactor]

/-- Writes the parameters of a key. -/
def write (g : Group) : Option Bytes :=
  match g.name with
  | some o => some (Write.oid o)
  | none => g.writeExplicit

/-- The number of bytes of a private key. -/
def scalarSize (g : Group) : Nat := byteLength g.curve.order

end Group

end Keyring.Elliptic
