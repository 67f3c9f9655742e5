import Keyring.Asn1.Lenient
import Keyring.Asn1.Write

/-!
# Signatures of two numbers

DSA and ECDSA signatures are a sequence of two integers.  Only the distinguished
encoding is a signature: what is read is written again and compared.
-/

namespace Keyring.Asn1

/-- Writes a signature. -/
def writePair (r s : Nat) : Bytes := Write.sequence [Write.integer r, Write.integer s]

/-- Reads two integers, whatever their sign. -/
def readPair (input : Bytes) : Option (Nat × Nat) := do
  match ← Lenient.sequence input with
  | [a, b] =>
    if !Lenient.sameTag .integer a.tag || !Lenient.sameTag .integer b.tag then none
    return (← Lenient.unsigned? a, ← Lenient.unsigned? b)
  | _ => none

/-- The two numbers of a signature in its distinguished encoding. -/
def signaturePair (input : Bytes) : Option (Nat × Nat) := do
  let (r, s) ← readPair input
  if writePair r s = input then return (r, s) else none

end Keyring.Asn1
