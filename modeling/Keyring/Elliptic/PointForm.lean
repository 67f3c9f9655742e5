import Keyring.Elliptic.Curve

/-!
# Points as byte strings

A point is written with both coordinates, or with the first one and a bit that
tells which of the two possible second ones is meant, or with both and the bit.

## Main definitions

* `PointForm` — the forms, by their first byte.
* `PointForm.write`, `PointForm.read` — a point in a form, and back.
-/

namespace Keyring.Elliptic

open Arith

/-- How a point is written. -/
inductive PointForm where
  /-- The point at infinity: a zero byte. -/
  | zero
  /-- One coordinate and a bit. -/
  | compressed
  /-- Both coordinates. -/
  | uncompressed
  /-- Both coordinates and a bit. -/
  | hybrid
  deriving DecidableEq, Repr

namespace PointForm

/-- The first byte of a form, the bit being zero. -/
def byte : PointForm → UInt8
  | zero => 0
  | compressed => 2
  | uncompressed => 4
  | hybrid => 6

/-- The form of a first byte. -/
def ofByte? (b : UInt8) : Option PointForm :=
  match b &&& 0xfe with
  | 0 => some zero
  | 2 => some compressed
  | 4 => some uncompressed
  | 6 => some hybrid
  | _ => none

/-- The bit that tells a point from the one with the opposite second coordinate. -/
def selector (c : Curve) (x y : Nat) : Bool :=
  match c.field with
  | .prime _ => y.testBit 0
  | .binary f => if x = 0 then false else (Binary.div f y x).testBit 0

/-- The point with a first coordinate and a selecting bit. -/
def decompress (c : Curve) (x : Nat) (bit : Bool) : Option (Nat × Nat) :=
  match c.field with
  | .prime p =>
    match sqrtMod? p (c.cubic p x) with
    | none => none
    | some y =>
      -- of two roots one is odd
      if y.testBit 0 = bit then some (x, y)
      else if y = 0 then none
      else some (x, p - y)
  | .binary f =>
    if x = 0 then some (0, Binary.sqrt f c.b)
    else
      let t := x ^^^ c.a ^^^ Binary.div f c.b (Binary.mul f x x)
      -- the solutions of `z * z + z = t` are this one and the next
      let z := Binary.halfTrace f t
      if Binary.mul f z z ^^^ z ≠ t then none
      else some (x, Binary.mul f x (if z.testBit 0 = bit then z else z ^^^ 1))

/-- Reads the coordinates of a point that has them. -/
def readAffine (c : Curve) (form : PointForm) (bit : Bool) (content : Bytes) : Option Point :=
  let n := c.field.byteSize
  let x := Bytes.value (content.take n)
  let y := Bytes.value (content.drop n)
  if !c.field.holds x then none
  else if form = compressed then
    if content.length ≠ n then none
    else (decompress c x bit).map fun (x, y) => .affine x y
  else if content.length ≠ 2 * n || !c.field.holds y then none
  else if form = hybrid && selector c x y != bit then none
  else if c.contains x y then some (.affine x y)
  else none

/-- Reads a point: its form and the point itself, which lies on the curve. -/
def read (c : Curve) : Bytes → Option (PointForm × Point)
  | [] => none
  | first :: content =>
    let bit := first &&& 1 == 1
    match ofByte? first with
    | none => none
    | some zero => if bit || !content.isEmpty then none else some (zero, .infinity)
    | some form =>
      if form = uncompressed && bit then none
      else (readAffine c form bit content).map fun q => (form, q)

/-- Writes a point; a point with coordinates has no form `zero`. -/
def write (c : Curve) (form : PointForm) (q : Point) : Option Bytes :=
  let n := c.field.byteSize
  match form, q with
  | zero, _ => none
  | _, .infinity => some [0]
  | compressed, .affine x y =>
    some ((byte compressed + if selector c x y then 1 else 0) :: Bytes.ofNat n x)
  | uncompressed, .affine x y => some (byte uncompressed :: Bytes.ofNat n x ++ Bytes.ofNat n y)
  | hybrid, .affine x y =>
    some ((byte hybrid + if selector c x y then 1 else 0) :: Bytes.ofNat n x ++ Bytes.ofNat n y)

end PointForm

end Keyring.Elliptic
