import Keyring.Arith.Modular
import Keyring.Asn1.Lenient
import Keyring.Asn1.Write
import Keyring.Key.Parameters

/-!
# DSA keys and their encodings

A DSA key lives in a subgroup of prime order of the numbers modulo a prime; the
description of the group goes with every key.
-/

namespace Keyring.Dsa

open Asn1

/-- A group. -/
structure Domain where
  /-- The prime modulo which one computes. -/
  p : Nat
  /-- The order of the subgroup. -/
  q : Nat
  /-- A generator of the subgroup. -/
  g : Nat
  deriving DecidableEq, Repr

/-- A public key. -/
structure PublicKey where
  /-- The group. -/
  domain : Domain
  /-- The public element, which encodings may give with a sign. -/
  y : Int
  deriving DecidableEq, Repr

/-- A private key. -/
structure PrivateKey where
  /-- The group. -/
  domain : Domain
  /-- The public element. -/
  y : Nat
  /-- The private exponent. -/
  x : Nat
  deriving DecidableEq, Repr

/-- The public part of a private key. -/
def PrivateKey.publicKey (k : PrivateKey) : PublicKey := ⟨k.domain, k.y⟩

/-- The size of a key: that of its prime. -/
def Domain.bitSize (d : Domain) : Nat := bitLength d.p

/-- The hash family that goes with the subgroup. -/
def Domain.hash (d : Domain) : DsaHash := .ofOrderBits (bitLength d.q)

/-- Reads the three numbers of a group. -/
def Domain.ofParts (parts : List Element) : Option Domain := do
  match parts with
  | [p, q, g] =>
    if parts.any fun e => !Lenient.sameTag .integer e.tag then none
    return ⟨← Lenient.unsigned? p, ← Lenient.unsigned? q, ← Lenient.unsigned? g⟩
  | _ => none

/-- The numbers of a group, in order. -/
def Domain.numbers (d : Domain) : List Bytes := [d.p, d.q, d.g].map Write.integer

/-- Writes a group. -/
def Domain.write (d : Domain) : Bytes := Write.sequence d.numbers

/-- The private key of an exponent. -/
def PrivateKey.ofExponent (d : Domain) (x : Nat) : PrivateKey :=
  ⟨d, Arith.powMod d.g x d.p, x⟩

/-- Reads the parts of a private key: a version and five numbers. -/
def PrivateKey.ofParts : List Element → Option PrivateKey
  | [v, p, q, g, y, x] => do
    if [v, p, q, g, y, x].any fun e => !Lenient.sameTag .integer e.tag then none
    let _ ← Lenient.small? v
    let d ← Domain.ofParts [p, q, g]
    return ⟨d, ← Lenient.unsigned? y, ← Lenient.unsigned? x⟩
  | _ => none

/-- Reads a private key; what follows it is ignored. -/
def PrivateKey.read (input : Bytes) : Option PrivateKey :=
  (Lenient.sequence input).bind PrivateKey.ofParts

/-- Writes a private key. -/
def PrivateKey.write (k : PrivateKey) : Bytes :=
  Write.sequence <|
    Write.integer 0 :: k.domain.numbers ++ [Write.integer k.y, Write.integer k.x]

end Keyring.Dsa
