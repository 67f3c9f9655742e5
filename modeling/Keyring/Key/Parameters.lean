import Keyring.Bytes

/-!
# Key algorithms and their parameters

What decides whether the key service takes a key: its algorithm, for DSA the
hash family its subgroup goes with, for EC how its curve is given.
-/

namespace Keyring

/-- The algorithms of keys that can be imported. -/
inductive KeyAlgorithm where
  | rsa
  | dsa
  | ec
  deriving DecidableEq, Repr

/-- The lower-case name of an algorithm. -/
def KeyAlgorithm.name : KeyAlgorithm → String
  | rsa => "rsa"
  | dsa => "dsa"
  | ec => "ec"

/-- The hash family that goes with the subgroup of a DSA key. -/
inductive DsaHash where
  /-- The subgroup order has at most 160 bits. -/
  | sha1
  /-- The subgroup order is longer. -/
  | sha2
  deriving DecidableEq, Repr

/-- The hash family for a subgroup order of a given number of bits. -/
def DsaHash.ofOrderBits (bits : Nat) : DsaHash := if bits ≤ 160 then .sha1 else .sha2

/-- How an EC key gives its curve. -/
inductive CurveSpec where
  /-- By name; a curve without a name of its own has its dotted identifier. -/
  | named (name : String)
  /-- By its coefficients. -/
  | explicit
  /-- Not at all: it is inherited. -/
  | inherited
  deriving DecidableEq, Repr

/-- The wording of a curve in a message. -/
def CurveSpec.text : CurveSpec → String
  | named name => name
  | explicit => "explicit parameters"
  | inherited => "implicit parameters"

/-- An algorithm with the parameters that the import policy looks at. -/
inductive KeyParameters where
  | rsa
  | dsa (hash : DsaHash)
  | ec (curve : CurveSpec)
  deriving DecidableEq, Repr

/-- The algorithm of a key. -/
def KeyParameters.algorithm : KeyParameters → KeyAlgorithm
  | rsa => .rsa
  | dsa _ => .dsa
  | ec _ => .ec

end Keyring
