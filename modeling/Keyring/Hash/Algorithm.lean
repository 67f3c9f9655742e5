import Keyring.Hash.Word32
import Keyring.Hash.Word64

/-!
# The hash algorithms of signatures

Six algorithms have names: `md5`, `sha1` and the four of the SHA-2 family.  A
digest is described to the key service by its family and, within SHA-2, by its
length in bits.

## Main definitions

* `HashAlgorithm` — the six algorithms, with `name` and its inverse `ofName?`.
* `HashAlgorithm.family`, `HashAlgorithm.lengthAttribute` — how the service is told.
* `HashAlgorithm.digest` — the hash function itself.
* `DigestFunction` — a hash function known only by the length of its output.
-/

namespace Keyring

/-- A family of digests, as the key service names it. -/
inductive DigestFamily where
  | md5
  | sha1
  | sha2
  deriving DecidableEq, Repr

/-- A hash algorithm for signing and verification. -/
inductive HashAlgorithm where
  | md5
  | sha1
  | sha224
  | sha256
  | sha384
  | sha512
  deriving DecidableEq, Repr

namespace HashAlgorithm

/-- The lower-case name of an algorithm. -/
def name : HashAlgorithm → String
  | md5 => "md5"
  | sha1 => "sha1"
  | sha224 => "sha224"
  | sha256 => "sha256"
  | sha384 => "sha384"
  | sha512 => "sha512"

/-- The algorithm of a name; names are matched exactly. -/
def ofName? : String → Option HashAlgorithm
  | "md5" => some md5
  | "sha1" => some sha1
  | "sha224" => some sha224
  | "sha256" => some sha256
  | "sha384" => some sha384
  | "sha512" => some sha512
  | _ => none

theorem ofName?_name (a : HashAlgorithm) : ofName? a.name = some a := by cases a <;> rfl

theorem name_of_ofName? {s : String} {a : HashAlgorithm} (h : ofName? s = some a) : a.name = s := by
  unfold ofName? at h
  split at h <;> cases h <;> rfl

/-- The family the key service files an algorithm under. -/
def family : HashAlgorithm → DigestFamily
  | md5 => .md5
  | sha1 => .sha1
  | _ => .sha2

/-- The length in bits by which the members of SHA-2 are told apart. -/
def lengthAttribute : HashAlgorithm → Option Int
  | sha224 => some 224
  | sha256 => some 256
  | sha384 => some 384
  | sha512 => some 512
  | _ => none

/-- The construction behind an algorithm. -/
def core : HashAlgorithm → MerkleDamgard
  | md5 => Keyring.md5
  | sha1 => Keyring.sha1
  | sha224 => Keyring.sha224
  | sha256 => Keyring.sha256
  | sha384 => Keyring.sha384
  | sha512 => Keyring.sha512

/-- The digest of a message. -/
def digest (a : HashAlgorithm) (m : Bytes) : Bytes := a.core.digest m

/-- The number of bytes of a digest. -/
def digestLength : HashAlgorithm → Nat
  | md5 => 16
  | sha1 => 20
  | sha224 => 28
  | sha256 => 32
  | sha384 => 48
  | sha512 => 64

theorem length_digest (a : HashAlgorithm) (m : Bytes) : (a.digest m).length = a.digestLength := by
  cases a
  · exact Md5.length_output _
  · exact Sha1.length_output _
  · exact Sha256.length_output224 _
  · exact Sha256.length_output _
  · exact Sha512.length_output384 _
  · exact Sha512.length_output _

/-- The keyed hash (HMAC). -/
def hmac (a : HashAlgorithm) (key m : Bytes) : Bytes := a.core.hmac key m

end HashAlgorithm

/-- A hash function of which only the length of its output is known. -/
structure DigestFunction where
  /-- Bytes to a digest. -/
  length : Nat
  /-- The function. -/
  hash : Bytes → Bytes
  /-- Every digest has that many bytes. -/
  length_hash : ∀ m, (hash m).length = length

/-- A named algorithm as a hash function. -/
def HashAlgorithm.function (a : HashAlgorithm) : DigestFunction where
  length := a.digestLength
  hash := a.digest
  length_hash := a.length_digest

end Keyring
