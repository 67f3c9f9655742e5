import Keyring.Arith.Binary
import Keyring.Arith.Modular

/-!
# Elliptic curves over finite fields

A curve over a field of prime order is given by `y² = x³ + ax + b`, one over a
field of characteristic two by `y² + xy = x³ + ax² + b`.  The points of a curve,
with one at infinity as zero, form a commutative group; a curve comes with a point
that generates the subgroup computed in.

## Main definitions

* `Curve`, `Point` — curves and their points.
* `Curve.contains` — the equation.
* `Curve.add`, `Curve.scale` — the group operations.
-/

namespace Keyring.Elliptic

open Arith

/-- A finite field. -/
inductive Field where
  /-- The numbers modulo a prime. -/
  | prime (p : Nat)
  /-- The polynomials over two elements modulo an irreducible one. -/
  | binary (f : Nat)
  deriving DecidableEq, Repr

/-- The number of bits of a field element. -/
def Field.degree : Field → Nat
  | prime p => bitLength p
  | binary f => Binary.degree f

/-- The number of bytes of a field element. -/
def Field.byteSize (f : Field) : Nat := bytesFor f.degree

/-- Whether a number stands for a field element. -/
def Field.holds : Field → Nat → Bool
  | prime p, x => x < p
  | binary f, x => bitLength x ≤ Binary.degree f

/-- A curve with a generator of the subgroup in use. -/
structure Curve where
  field : Field
  /-- The first coefficient. -/
  a : Nat
  /-- The second coefficient. -/
  b : Nat
  /-- The first coordinate of the generator. -/
  x : Nat
  /-- The second coordinate of the generator. -/
  y : Nat
  /-- The order of the generator. -/
  order : Nat
  /-- The number of points divided by the order. -/
  cofactor : Nat
  deriving DecidableEq, Repr

/-- A point of a curve. -/
inductive Point where
  /-- The zero of the group. -/
  | infinity
  /-- A point with coordinates. -/
  | affine (x y : Nat)
  deriving DecidableEq, Repr

namespace Curve

/-- The right side of the equation of a curve over a prime field. -/
def cubic (c : Curve) (p x : Nat) : Nat := ((x * x + c.a) * x + c.b) % p

/-- Whether coordinates satisfy the equation of the curve. -/
def contains (c : Curve) (x y : Nat) : Bool :=
  match c.field with
  | .prime p => y * y % p == c.cubic p x
  | .binary f =>
    let xx := Binary.mul f x x
    Binary.mul f y y ^^^ Binary.mul f x y ==
      Binary.mul f xx x ^^^ Binary.mul f c.a xx ^^^ c.b

/-- The generator. -/
def generator (c : Curve) : Point := .affine c.x c.y

/-! ### Characteristic two -/

/-- The sum of two points of a curve over a field of characteristic two. -/
def addBinary (f a : Nat) : Point → Point → Point
  | .infinity, q => q
  | q, .infinity => q
  | .affine x₁ y₁, .affine x₂ y₂ =>
    if x₁ = x₂ then
      if y₁ ^^^ y₂ = x₁ || x₁ = 0 then .infinity
      else
        let l := x₁ ^^^ Binary.div f y₁ x₁
        let x := Binary.mul f l l ^^^ l ^^^ a
        .affine x (Binary.mul f x₁ x₁ ^^^ Binary.mul f (l ^^^ 1) x)
    else
      let l := Binary.div f (y₁ ^^^ y₂) (x₁ ^^^ x₂)
      let x := Binary.mul f l l ^^^ l ^^^ x₁ ^^^ x₂ ^^^ a
      .affine x (Binary.mul f l (x₁ ^^^ x) ^^^ x ^^^ y₁)

/-- The multiple of a point by the number that the `n` low-order bits of `k` form. -/
def scaleBinary (f a : Nat) (q : Point) (k : Nat) : Nat → Point
  | 0 => .infinity
  | n + 1 =>
    let r := scaleBinary f a q (k / 2) n
    let r := addBinary f a r r
    if k % 2 = 1 then addBinary f a r q else r

/-! ### Prime fields

The sum is computed without divisions: a triple `(x, y, z)` stands for the point
`(x / z², y / z³)`, and one with `z = 0` for the point at infinity. -/

/-- A point in coordinates that need no division. -/
structure Projective where
  /-- First coordinate times `z²`. -/
  x : Nat
  /-- Second coordinate times `z³`. -/
  y : Nat
  /-- The common scale. -/
  z : Nat

/-- A point in projective coordinates. -/
def Projective.ofPoint : Point → Projective
  | .infinity => ⟨1, 1, 0⟩
  | .affine x y => ⟨x, y, 1⟩

/-- The point that projective coordinates stand for. -/
def Projective.toPoint (p : Nat) (q : Projective) : Point :=
  match inverse? p q.z with
  | none => .infinity
  | some i =>
    let ii := i * i % p
    .affine (q.x * ii % p) (q.y * (ii * i % p) % p)

/-- Twice a point. -/
def double (p a : Nat) (q : Projective) : Projective :=
  if q.z = 0 || q.y = 0 then ⟨1, 1, 0⟩
  else
    let yy := q.y * q.y % p
    let zz := q.z * q.z % p
    let s := 4 * q.x * yy % p
    let m := (3 * q.x * q.x + a * (zz * zz % p)) % p
    let x := (m * m + 2 * (p - s)) % p
    ⟨x, (m * (s + p - x) + 8 * (p - yy * yy % p)) % p, 2 * q.y * q.z % p⟩

/-- The sum of two points. -/
def addPrime (p a : Nat) (q r : Projective) : Projective :=
  if q.z = 0 then r
  else if r.z = 0 then q
  else
    let qq := q.z * q.z % p
    let rr := r.z * r.z % p
    let u₁ := q.x * rr % p
    let u₂ := r.x * qq % p
    let s₁ := q.y * (rr * r.z % p) % p
    let s₂ := r.y * (qq * q.z % p) % p
    if u₁ = u₂ then
      -- one first coordinate: the same point, or a point and its negative
      if s₁ = s₂ then double p a q else ⟨1, 1, 0⟩
    else
      let h := (u₂ + p - u₁) % p
      let t := (s₂ + p - s₁) % p
      let hh := h * h % p
      let hhh := hh * h % p
      let v := u₁ * hh % p
      let x := (t * t + (p - hhh) + 2 * (p - v)) % p
      ⟨x, (t * (v + p - x) + s₁ * (p - hhh)) % p, h * q.z % p * r.z % p⟩

/-- The multiple of a point by the number that the `n` low-order bits of `k` form. -/
def scalePrime (p a : Nat) (q : Projective) (k : Nat) : Nat → Projective
  | 0 => ⟨1, 1, 0⟩
  | n + 1 =>
    let r := double p a (scalePrime p a q (k / 2) n)
    if k % 2 = 1 then addPrime p a r q else r

/-! ### The group -/

/-- The sum of two points. -/
def add (c : Curve) (q r : Point) : Point :=
  match c.field with
  | .prime p => (addPrime p c.a (.ofPoint q) (.ofPoint r)).toPoint p
  | .binary f => addBinary f c.a q r

/-- The multiple of a point by a number. -/
def scale (c : Curve) (k : Nat) (q : Point) : Point :=
  match c.field with
  | .prime p => (scalePrime p c.a (.ofPoint q) k (bitLength k)).toPoint p
  | .binary f => scaleBinary f c.a q k (bitLength k)

end Curve

end Keyring.Elliptic
