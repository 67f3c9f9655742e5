import Keyring.Bytes

/-!
# Arithmetic modulo a number

Powers by repeated squaring, inverses by the extended Euclidean algorithm, square
roots modulo a prime by the algorithm of Tonelli and Shanks.

## Main definitions

* `powMod b e m` — `b ^ e` modulo `m`; `powMod_eq` says so.
* `inverse? m a` — the inverse of `a` modulo `m`, if there is one.
* `sqrtMod? p a` — a square root of `a` modulo a prime `p`, if there is one.
-/

namespace Keyring.Arith

/-- `b ^ e` modulo `m`, by repeated squaring. -/
def powMod (b e m : Nat) : Nat :=
  if e = 0 then 1 % m
  else
    let h := powMod (b * b % m) (e / 2) m
    if e % 2 = 1 then b * h % m else h
termination_by e
decreasing_by exact Nat.div_lt_self (by omega) (by decide)

theorem pow_mul_self (b e : Nat) : Nat.pow (b * b) e = Nat.pow b (2 * e) :=
  (congrArg (fun x => Nat.pow x e) (Nat.pow_two b).symm).trans (Nat.pow_mul b 2 e).symm

theorem powMod_eq (b e m : Nat) : powMod b e m = Nat.pow b e % m := by
  induction e using Nat.strongRecOn generalizing b with
  | _ e ih =>
    rw [powMod]
    by_cases he : e = 0
    · subst he
      rfl
    · have hpow : Nat.pow (b * b % m) (e / 2) % m = Nat.pow b (2 * (e / 2)) % m :=
        (Nat.pow_mod (b * b) (e / 2) m).symm.trans (congrArg (· % m) (pow_mul_self b (e / 2)))
      rw [if_neg he]
      simp only [ih (e / 2) (Nat.div_lt_self (by omega) (by decide)), hpow]
      split
      · rename_i hodd
        have hsucc : 2 * (e / 2) + 1 = e := by omega
        rw [Nat.mul_mod, Nat.mod_mod, ← Nat.mul_mod, Nat.mul_comm]
        exact congrArg (fun x => Nat.pow b x % m) hsucc
      · have heven : 2 * (e / 2) = e := by omega
        rw [heven]

/-- The greatest common divisor of `r₀` and `r₁` with the factor of the second
starting value in it; `s₀` and `s₁` are the factors so far. -/
def euclid (r₀ r₁ : Nat) (s₀ s₁ : Int) : Nat × Int :=
  if r₁ = 0 then (r₀, s₀)
  else euclid r₁ (r₀ % r₁) s₁ (s₀ - (r₀ / r₁ : Nat) * s₁)
termination_by r₁
decreasing_by exact Nat.mod_lt _ (Nat.pos_of_ne_zero (by assumption))

/-- The inverse of `a` modulo `m`, if they have no common divisor. -/
def inverse? (m a : Nat) : Option Nat :=
  match euclid m (a % m) 0 1 with
  | (1, s) => some (s % m).toNat
  | _ => none

/-- The difference modulo `m` of two numbers below it. -/
def subMod (a b m : Nat) : Nat := (a + m - b) % m

/-- Whether `a` is a square modulo a prime `p`, by Euler's criterion. -/
def isSquareMod (p a : Nat) : Bool := a % p = 0 || powMod a ((p - 1) / 2) p == 1

/-- The number of times that two divides `n`, at most `fuel`. -/
def twos : Nat → Nat → Nat
  | 0, _ => 0
  | fuel + 1, n => if n % 2 = 0 then twos fuel (n / 2) + 1 else 0

/-- The least number from `z` on, among `fuel` many, that is no square modulo `p`. -/
def nonSquare (p : Nat) : Nat → Nat → Nat
  | 0, z => z
  | fuel + 1, z => if isSquareMod p z then nonSquare p fuel (z + 1) else z

/-- How often `t` is squared modulo `p` until it is one, at most `fuel` times. -/
def squarings (p : Nat) : Nat → Nat → Nat
  | 0, _ => 0
  | fuel + 1, t => if t = 1 then 0 else squarings p fuel (t * t % p) + 1

/-- The rounds of the algorithm of Tonelli and Shanks: `r * r` is `t` times the
wanted square, `c` has the order `2 ^ m`. -/
def tonelli (p : Nat) : Nat → Nat → Nat → Nat → Nat → Nat
  | 0, _, _, _, r => r
  | fuel + 1, m, c, t, r =>
    if t = 1 then r
    else
      let i := squarings p m t
      let b := powMod c (twoTo (m - i - 1)) p
      let c := b * b % p
      tonelli p fuel i c (t * c % p) (r * b % p)

/-- A square root of `a` modulo an odd prime `p`, if there is one. -/
def sqrtMod? (p a : Nat) : Option Nat :=
  let a := a % p
  if a = 0 then some 0
  else if !isSquareMod p a then none
  -- here the root is a power
  else if p % 4 = 3 then some (powMod a ((p + 1) / 4) p)
  else
    let s := twos (bitLength p) (p - 1)
    let q := (p - 1) / twoTo s
    let z := nonSquare p 1000 2
    some (tonelli p (s + 1) s (powMod z q p) (powMod a q p) (powMod a ((q + 1) / 2) p))

end Keyring.Arith
