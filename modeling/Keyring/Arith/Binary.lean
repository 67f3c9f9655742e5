import Keyring.Bytes

/-!
# Fields of characteristic two

An element is a polynomial with coefficients zero and one, held as the number
whose bits are the coefficients.  The field is given by the polynomial modulo
which one computes.  Addition is exclusive or.

## Main definitions

* `mul`, `inverse`, `div` — the field operations.
* `sqrt`, `halfTrace` — the solutions of `z ^ 2 = a` and, where the degree is odd
  and there is one, of `z ^ 2 + z = a`.
-/

namespace Keyring.Arith.Binary

/-- The degree of the field. -/
def degree (f : Nat) : Nat := bitLength f - 1

/-- The product of `a` with the polynomial of the `k` low-order bits of `b`. -/
def mulBits (f a b : Nat) : Nat → Nat
  | 0 => 0
  | k + 1 =>
    let r := if b.testBit 0 then a else 0
    let a := a <<< 1
    let a := if a.testBit (degree f) then a ^^^ f else a
    r ^^^ mulBits f a (b >>> 1) k

/-- The product of two field elements. -/
def mul (f a b : Nat) : Nat := mulBits f a b (bitLength b)

/-- The rounds of Euclid's algorithm on polynomials: `u` is `g` times the
starting element, `v` is `h` times it. -/
def inverseRounds : Nat → Nat → Nat → Nat → Nat → Nat
  | 0, _, _, g, _ => g
  | fuel + 1, u, v, g, h =>
    if u ≤ 1 then g
    else if bitLength u < bitLength v then inverseRounds fuel v u h g
    else
      let j := bitLength u - bitLength v
      inverseRounds fuel (u ^^^ (v <<< j)) v (g ^^^ (h <<< j)) h

/-- The inverse of a field element other than zero. -/
def inverse (f a : Nat) : Nat := inverseRounds (4 * bitLength f) a f 1 0

/-- The quotient of two field elements. -/
def div (f a b : Nat) : Nat := mul f a (inverse f b)

/-- The element squared `k` times. -/
def squareTimes (f : Nat) : Nat → Nat → Nat
  | 0, a => a
  | k + 1, a => squareTimes f k (mul f a a)

/-- The square root of a field element. -/
def sqrt (f a : Nat) : Nat := squareTimes f (degree f - 1) a

/-- The sum of `a`, its fourth power, the fourth power of that and so on, `k`
terms after the first. -/
def halfTraceTerms (f a : Nat) : Nat → Nat → Nat
  | 0, z => z
  | k + 1, z => halfTraceTerms f a k (squareTimes f 2 z ^^^ a)

/-- The half-trace of a field element. -/
def halfTrace (f a : Nat) : Nat := halfTraceTerms f a ((degree f - 1) / 2) a

end Keyring.Arith.Binary
