import Keyring.Proofs.Bytes
import Keyring.Rsa.Power
import Mathlib.FieldTheory.Finite.Basic

/-!
# The RSA operations undo each other

The public operation raises to the public exponent.  The private operation takes a way by
the two primes, and checks it; either way, for a key whose exponents undo each other
modulo both primes, the two operations are inverse to each other on the numbers below the
modulus.

## Main definitions

* `PrivateKey.root` — the private operation as a function.
* `PrivateKey.IsConsistent` — the exponents undo each other.

## Main results

* `PublicKey.applyBlock_eq`, `PrivateKey.applyBlock_eq` — the operations on blocks.
* `PrivateKey.IsConsistent.inverse` — **the operations undo each other.**
-/

namespace Keyring.Rsa

open Arith Bytes

/-! ### The operations on blocks -/

/-- A usable public key raises every number below the modulus to its exponent. -/
theorem PublicKey.applyBlock_eq {k : PublicKey} (hk : k.isUsable = true) {block : Bytes}
    (hlen : block.length = k.byteSize) (hlt : value block < k.modulus) :
    k.applyBlock block = some (ofNat k.byteSize (value block ^ k.exponent % k.modulus)) := by
  have hpower : powMod (value block) k.exponent k.modulus =
      value block ^ k.exponent % k.modulus := powMod_eq _ _ _
  simp [applyBlock, hlen, apply, hk, hlt, hpower]

/-- The operation of a private key on numbers, whichever way it takes. -/
def PrivateKey.root (k : PrivateKey) (x : Nat) : Nat :=
  if powMod (k.applyByPrimes x) k.exponent k.modulus = x then k.applyByPrimes x
  else powMod x k.privateExponent k.modulus

theorem PrivateKey.applyBlock_eq {k : PrivateKey}
    (hodd : ¬(k.modulus % 2 = 0 ∨ k.p % 2 = 0 ∨ k.q % 2 = 0)) {block : Bytes}
    (hlen : block.length = k.publicKey.byteSize) (hlt : value block < k.modulus) :
    k.applyBlock block = some (ofNat k.publicKey.byteSize (k.root (value block))) := by
  have happly : k.apply (value block) = some (k.root (value block)) := by
    unfold apply root
    rw [if_neg (by simp only [Bool.or_eq_true, decide_eq_true_eq]; omega)]
    dsimp only
    split <;> rfl
  rw [applyBlock, if_neg (by omega), happly]
  rfl

/-! ### Powers modulo a product of two primes -/

/-- An exponent that leaves one modulo `p - 1` does nothing modulo a prime `p`. -/
theorem pow_modEq_self {p m : Nat} (hp : p.Prime) (hm : m % (p - 1) = 1) (x : Nat) :
    x ^ m ≡ x [MOD p] := by
  by_cases hx : p ∣ x
  · -- powers of a multiple of the prime are multiples of it
    have hm0 : m ≠ 0 := by
      rintro rfl
      simp at hm
    exact (Nat.modEq_zero_iff_dvd.mpr (dvd_pow hx hm0)).trans (Nat.modEq_zero_iff_dvd.mpr hx).symm
  · -- for others, powers to `p - 1` are one by Fermat's little theorem
    have hcop : Nat.Coprime x p := ((Nat.Prime.coprime_iff_not_dvd hp).mpr hx).symm
    have hfermat := Nat.ModEq.pow_totient hcop
    rw [Nat.totient_prime hp] at hfermat
    have hsplit := Nat.div_add_mod m (p - 1)
    rw [hm] at hsplit
    calc x ^ m = (x ^ (p - 1)) ^ (m / (p - 1)) * x := by
          conv_lhs => rw [← hsplit]
          rw [pow_succ, pow_mul]
      _ ≡ 1 ^ (m / (p - 1)) * x [MOD p] := (hfermat.pow _).mul_right x
      _ = x := by rw [one_pow, one_mul]

/-- The exponents of a private key undo each other modulo its two primes. -/
structure PrivateKey.IsConsistent (k : PrivateKey) : Prop where
  /-- The first factor is prime. -/
  prime_p : k.p.Prime
  /-- The second factor is prime. -/
  prime_q : k.q.Prime
  /-- The two are different. -/
  ne : k.p ≠ k.q
  /-- There are no others. -/
  modulus_eq : k.modulus = k.p * k.q
  /-- The exponents undo each other modulo the first. -/
  exponent_p : k.exponent * k.privateExponent % (k.p - 1) = 1
  /-- The exponents undo each other modulo the second. -/
  exponent_q : k.exponent * k.privateExponent % (k.q - 1) = 1

namespace PrivateKey.IsConsistent

variable {k : PrivateKey} {x y : Nat}

theorem pow_mod (hk : k.IsConsistent) (hx : x < k.modulus) :
    x ^ (k.exponent * k.privateExponent) % k.modulus = x := by
  have hcoprime : Nat.Coprime k.p k.q := (Nat.coprime_primes hk.prime_p hk.prime_q).mpr hk.ne
  have hmod : x ^ (k.exponent * k.privateExponent) ≡ x [MOD k.p * k.q] :=
    (Nat.modEq_and_modEq_iff_modEq_mul hcoprime).mp
      ⟨pow_modEq_self hk.prime_p hk.exponent_p x, pow_modEq_self hk.prime_q hk.exponent_q x⟩
  rw [← hk.modulus_eq, Nat.ModEq, Nat.mod_eq_of_lt hx] at hmod
  exact hmod

theorem pos (hk : k.IsConsistent) : 0 < k.modulus := by
  rw [hk.modulus_eq]
  exact Nat.mul_pos hk.prime_p.pos hk.prime_q.pos

/-- What comes by way of the primes is below the modulus. -/
theorem applyByPrimes_lt (hk : k.IsConsistent) : k.applyByPrimes x < k.modulus := by
  have hq : powMod (x % k.q) k.dq k.q < k.q := by
    rw [powMod_eq]
    exact Nat.mod_lt _ hk.prime_q.pos
  unfold applyByPrimes
  dsimp only
  generalize hfactor : subMod (powMod (x % k.p) k.dp k.p)
    (powMod (x % k.q) k.dq k.q % k.p) k.p * k.qInverse % k.p = h
  have hp : h < k.p := hfactor ▸ Nat.mod_lt _ hk.prime_p.pos
  calc h * k.q + powMod (x % k.q) k.dq k.q < h * k.q + k.q := Nat.add_lt_add_left hq _
    _ = (h + 1) * k.q := (Nat.succ_mul h k.q).symm
    _ ≤ k.p * k.q := Nat.mul_le_mul_right _ hp
    _ = k.modulus := hk.modulus_eq.symm

theorem root_lt (hk : k.IsConsistent) : k.root x < k.modulus := by
  unfold root
  split
  · exact hk.applyByPrimes_lt
  · rw [powMod_eq]
    exact Nat.mod_lt _ hk.pos

/-- The public exponent undoes the private one. -/
theorem power_pow (hk : k.IsConsistent) (hx : x < k.modulus) :
    (x ^ k.privateExponent % k.modulus) ^ k.exponent % k.modulus = x := by
  rw [← Nat.pow_mod, ← pow_mul, Nat.mul_comm, hk.pow_mod hx]

/-- The public exponent undoes the private operation. -/
theorem root_pow (hk : k.IsConsistent) (hx : x < k.modulus) :
    k.root x ^ k.exponent % k.modulus = x := by
  unfold root
  split
  · next hcheck =>
    -- this is what the private operation has checked
    rw [powMod_eq] at hcheck
    exact hcheck
  · have hpower : powMod x k.privateExponent k.modulus = x ^ k.privateExponent % k.modulus :=
      powMod_eq _ _ _
    rw [hpower, hk.power_pow hx]

/-- Different numbers have different powers. -/
theorem pow_inj (hk : k.IsConsistent) (hx : x < k.modulus) (hy : y < k.modulus)
    (h : x ^ k.exponent % k.modulus = y ^ k.exponent % k.modulus) : x = y := by
  have hpower : (x ^ k.exponent) ^ k.privateExponent % k.modulus =
      (y ^ k.exponent) ^ k.privateExponent % k.modulus := by
    rw [Nat.pow_mod, h, ← Nat.pow_mod]
  rw [← pow_mul, ← pow_mul, hk.pow_mod hx, hk.pow_mod hy] at hpower
  exact hpower

/-- Whichever way it takes, the private operation raises to the private exponent. -/
theorem root_eq (hk : k.IsConsistent) (hx : x < k.modulus) :
    k.root x = x ^ k.privateExponent % k.modulus :=
  hk.pow_inj hk.root_lt (Nat.mod_lt _ hk.pos) ((hk.root_pow hx).trans (hk.power_pow hx).symm)

/-- **The operations undo each other.** -/
theorem inverse (hk : k.IsConsistent) : ∀ x < k.modulus,
    x ^ k.exponent % k.modulus < k.modulus ∧ k.root x < k.modulus ∧
      k.root x ^ k.exponent % k.modulus = x ∧ k.root (x ^ k.exponent % k.modulus) = x := by
  intro x hx
  have hlt : x ^ k.exponent % k.modulus < k.modulus := Nat.mod_lt _ hk.pos
  exact ⟨hlt, hk.root_lt, hk.root_pow hx, hk.pow_inj hk.root_lt hx (hk.root_pow hlt)⟩

end PrivateKey.IsConsistent

end Keyring.Rsa
