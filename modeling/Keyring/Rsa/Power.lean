import Keyring.Arith.Modular
import Keyring.Rsa.Key

/-!
# The RSA operations without padding

A block of as many bytes as the modulus, of a value below it, is raised to the
public or to the private exponent.

## Main definitions

* `PublicKey.apply` — the operation of a public key, on numbers.
* `PrivateKey.apply` — that of a private key.
* `PublicKey.applyBlock`, `PrivateKey.applyBlock` — the same on blocks.
-/

namespace Keyring.Rsa

open Arith

/-- Whether a public key is one the operation is carried out for: the modulus is
odd, not excessively long and above the exponent, and a long modulus goes with a
short exponent. -/
def PublicKey.isUsable (k : PublicKey) : Bool :=
  k.modulus % 2 == 1 && k.bitSize ≤ 16384 && k.exponent < k.modulus &&
    (k.bitSize ≤ 3072 || bitLength k.exponent ≤ 64)

/-- The operation of a public key on a number below the modulus. -/
def PublicKey.apply (k : PublicKey) (x : Nat) : Option Nat :=
  if k.isUsable && x < k.modulus then some (powMod x k.exponent k.modulus) else none

/-- The power computed modulo the two primes and combined. -/
def PrivateKey.applyByPrimes (k : PrivateKey) (x : Nat) : Nat :=
  let a := powMod (x % k.p) k.dp k.p
  let b := powMod (x % k.q) k.dq k.q
  subMod a (b % k.p) k.p * k.qInverse % k.p * k.q + b

/-- The operation of a private key on a number below the modulus.  The result by
way of the primes is checked with the public exponent; if it is wrong, the private
exponent is used. -/
def PrivateKey.apply (k : PrivateKey) (x : Nat) : Option Nat :=
  if k.modulus % 2 = 0 || k.p % 2 = 0 || k.q % 2 = 0 || k.modulus ≤ x then none
  else
    let y := k.applyByPrimes x
    if powMod y k.exponent k.modulus = x then some y
    else some (powMod x k.privateExponent k.modulus)

/-- The operation of a public key on a block. -/
def PublicKey.applyBlock (k : PublicKey) (block : Bytes) : Option Bytes :=
  if block.length ≠ k.byteSize then none
  else (k.apply (Bytes.value block)).map (Bytes.ofNat k.byteSize)

/-- The operation of a private key on a block that is not longer than the modulus. -/
def PrivateKey.applyBlock (k : PrivateKey) (block : Bytes) : Option Bytes :=
  if k.publicKey.byteSize < block.length then none
  else (k.apply (Bytes.value block)).map (Bytes.ofNat k.publicKey.byteSize)

end Keyring.Rsa
