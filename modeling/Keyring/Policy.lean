import Keyring.Error
import Keyring.Hash.Algorithm

/-!
# What the key service takes

RSA keys are taken without conditions, DSA keys if their subgroup goes with SHA-1,
EC keys on three named curves.  Every operation is for keys of one algorithm.

## Main definitions

* `checkParameters` — whether a key can be imported.
* `requireAlgorithm` — whether a key is of the algorithm an operation is for.
* `hashAlgorithm` — the hash algorithm of a name.
-/

namespace Keyring

/-- The curves of EC keys that can be imported. -/
def supportedCurves : List String := ["secp256r1", "secp384r1", "secp521r1"]

/-- Whether a key of given parameters and size can be imported. -/
def checkParameters (p : KeyParameters) (bits : Nat) : Except CryptoError Unit :=
  match p with
  | .rsa | .dsa .sha1 => .ok ()
  | .dsa .sha2 => .error (.unsupportedDsaKey bits)
  | .ec curve =>
    match curve with
    | .named name =>
      if name ∈ supportedCurves then .ok () else .error (.unsupportedCurve curve.text)
    | _ => .error (.unsupportedCurve curve.text)

/-- Whether a key is of the algorithm that an operation requires. -/
def requireAlgorithm (actual expected : KeyAlgorithm) : Except CryptoError Unit :=
  if actual = expected then .ok () else .error (.algorithmMismatch expected actual)

/-- The hash algorithm of a name. -/
def hashAlgorithm (name : String) : Except CryptoError HashAlgorithm :=
  match HashAlgorithm.ofName? name with
  | some a => .ok a
  | none => .error (.unsupportedHash name)

end Keyring
