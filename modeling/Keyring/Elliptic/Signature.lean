import Keyring.Asn1.Signature
import Keyring.Elliptic.Key
import Keyring.Entropy
import Keyring.Hash.Algorithm

/-!
# ECDSA signatures

A digest, cut to the bits of the group order, is signed with a random multiple of
the generator.
-/

namespace Keyring.Elliptic

open Arith Asn1

/-- The number that a digest is signed as: of the digest, the leading `bits` bits. -/
def digestNumber (bits : Nat) (digest : Bytes) : Nat :=
  let v := Bytes.value (digest.take (bytesFor bits))
  if bits < 8 * digest.length then v >>> (8 * bytesFor bits - bits) else v

/-- The first coordinate of a point, modulo the group order. -/
def firstCoordinate (n : Nat) : Point → Option Nat
  | .infinity => none
  | .affine x _ => some (x % n)

/-- Signs a message. -/
def PrivateKey.sign (k : PrivateKey) (e : Entropy) (a : HashAlgorithm) (m : Bytes) :
    Option Bytes := do
  let c := k.group.curve
  let t := e.positiveBelow c.order
  let r ← firstCoordinate c.order (c.scale t c.generator)
  let i ← inverse? c.order t
  let s := i * (digestNumber (bitLength c.order) (a.digest m) + k.scalar * r) % c.order
  if r = 0 || s = 0 then none
  return writePair r s

/-- Whether a signature of two numbers is one of the message. -/
def PublicKey.verifyPair (k : PublicKey) (a : HashAlgorithm) (m : Bytes) (r s : Nat) : Bool :=
  let c := k.group.curve
  let n := c.order
  if r = 0 || n ≤ r || s = 0 || n ≤ s then false
  else
    match inverse? n s with
    | none => false
    | some w =>
      let u := digestNumber (bitLength n) (a.digest m) * w % n
      let v := r * w % n
      firstCoordinate n (c.add (c.scale u c.generator) (c.scale v k.point)) == some r

/-- Whether a signature is one of the message. -/
def PublicKey.verify (k : PublicKey) (a : HashAlgorithm) (m signature : Bytes) : Bool :=
  match signaturePair signature with
  | some (r, s) => k.verifyPair a m r s
  | none => false

end Keyring.Elliptic
