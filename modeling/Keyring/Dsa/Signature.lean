import Keyring.Asn1.Signature
import Keyring.Dsa.Key
import Keyring.Entropy
import Keyring.Hash.Algorithm

/-!
# DSA signatures

A digest, cut to the whole bytes of the subgroup order, is signed with a random
exponent.  Verification is for subgroup orders of 160, 224 and 256 bits.
-/

namespace Keyring.Dsa

open Arith Asn1

/-- The number that a digest is signed as: of the digest, the whole bytes that
the order has. -/
def digestNumber (n : Nat) (digest : Bytes) : Nat := Bytes.value (digest.take n)

/-- Signs a message. -/
def PrivateKey.sign (k : PrivateKey) (e : Entropy) (a : HashAlgorithm) (m : Bytes) :
    Option Bytes := do
  let d := k.domain
  if bitLength d.q < 128 || d.p % 2 = 0 || d.q % 2 = 0 || d.g = 0 then none
  let t := e.positiveBelow d.q
  let r := powMod d.g t d.p % d.q
  let i ← inverse? d.q t
  let s := i * (digestNumber (byteLength d.q) (a.digest m) + k.x * r) % d.q
  if r = 0 || s = 0 then none
  return writePair r s

/-- Whether a signature of two numbers is one of the message. -/
def PublicKey.verifyPair (k : PublicKey) (a : HashAlgorithm) (m : Bytes) (r s : Nat) : Bool :=
  let d := k.domain
  let size := bitLength d.q
  -- the sizes of subgroups that are supported
  if !([160, 224, 256].contains size) || 10000 < d.bitSize || d.p % 2 = 0 then false
  else if r = 0 || d.q ≤ r || s = 0 || d.q ≤ s then false
  else
    match inverse? d.q s with
    | none => false
    | some w =>
      let u := digestNumber (size / 8) (a.digest m) * w % d.q
      let v := r * w % d.q
      powMod d.g u d.p * powMod (k.y % d.p).toNat v d.p % d.p % d.q == r

/-- Whether a signature is one of the message. -/
def PublicKey.verify (k : PublicKey) (a : HashAlgorithm) (m signature : Bytes) : Bool :=
  match signaturePair signature with
  | some (r, s) => k.verifyPair a m r s
  | none => false

end Keyring.Dsa
