import Keyring.Asn1.Lenient
import Keyring.Key.Identifier

/-!
# Parameters of PSS signatures

An RSA key for PSS signatures only may say with which hash function, mask, salt length
and trailer it is to be used.
-/

namespace Keyring.Rsa

open Asn1 Asn1.Lenient

/-- Whether an algorithm is a hash function. -/
def isDigest (a : Algorithm) : Bool :=
  (Identifier.digests ++ Identifier.digestSignatures).any a.is

/-- Whether an algorithm is a mask made from a hash function. -/
def isMask (a : Algorithm) : Bool :=
  a.is Identifier.mgf1 &&
    (a.parameters.bind fun e =>
      if sameTag .sequence e.tag then algorithm? e else none).any isDigest

/-- Takes a part of PSS parameters, which may be missing, if it is as it should be. -/
def takePss (n : Nat) (isRight : Element → Bool) (parts : List Element) :
    Option (List Element) := do
  match ← takeExplicit n parts with
  | (none, rest) => some rest
  | (some e, rest) => if isRight e then some rest else none

/-- Whether an element is an integer. -/
def isInteger (e : Element) : Bool := sameTag .integer e.tag && (integer? e).isSome

/-- Whether an element is an algorithm of a kind. -/
def isAlgorithm (isRight : Algorithm → Bool) (e : Element) : Bool :=
  sameTag .sequence e.tag && (algorithm? e).any isRight

/-- Reads PSS parameters up to their end. -/
def readPssParameters (parts : List Element) : Option (List Element) := do
  let parts ← takePss 0 (isAlgorithm isDigest) parts
  let parts ← takePss 1 (isAlgorithm isMask) parts
  let parts ← takePss 2 isInteger parts
  takePss 3 isInteger parts

/-- Whether the parameters of an algorithm are those of PSS signatures, or missing. -/
def arePssParameters : Option Element → Bool
  | none => true
  | some e =>
    sameTag .sequence e.tag &&
      ((partsOf e).bind readPssParameters).any List.isEmpty

end Keyring.Rsa
