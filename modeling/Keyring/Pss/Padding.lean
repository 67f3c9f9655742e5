import Keyring.Error
import Keyring.Pss.Encoding

/-!
# PSS padding of messages

The encoding of a message for an RSA key, and the check of the block that a raw
public-key operation recovers.  Both name their hash algorithm, and both refuse
keys below 512 bits.

## Main definitions

* `digest?` — the hash algorithms that can be used, by name.
* `addPadding` — the block a signer raises to the private exponent.
* `verifyPadding` — the verdict on a recovered block.
* `fitBlock` — a recovered block brought to the length of the encoding.
-/

namespace Keyring.Pss

/-- The smallest RSA modulus, in bits, that can hold an encoding. -/
def minKeyBits : Nat := 512

/-- The algorithm of a name, for the names PSS padding knows; MD5 is not among them. -/
def digest? (name : String) : Option HashAlgorithm :=
  match HashAlgorithm.ofName? name with
  | some .md5 => none
  | other => other

/-- The salt length a signer uses: that of the digest, and none for MD5. -/
def saltLength : HashAlgorithm → Nat
  | .md5 => 0
  | a => a.digestLength

/-- The wording of an error. -/
def Error.message (quoted : String → String) : Error → String
  | .unsupportedDigest name =>
    "hash algorithm " ++ quoted name ++ " is not supported for PSS padding"
  | .keyTooShort => "key is not long enough to hold the PSS encoding"
  | .invalidParameter => "invalid parameter"
  | .overflow => overflowMessage

/-- The algorithm for a key of `keyBits` bits, or why there is none: the name is
looked at before the key. -/
def usableDigest (name : String) (keyBits : Nat) : Except Error HashAlgorithm :=
  match digest? name with
  | none => .error (.unsupportedDigest name)
  | some a => if keyBits < minKeyBits then .error .invalidParameter else .ok a

/-- The block of one bit less than the modulus that encodes a message under a salt. -/
def addPadding (name : String) (keyBits : Nat) (message salt : Bytes) : Except Error Bytes := do
  let a ← usableDigest name keyBits
  encode a.function (a.digest message) (keyBits - 1) salt

/-- The last `emLen` bytes of a block, if the block has them and all before them
are zero. -/
def fitBlock (block : Bytes) (emLen : Nat) : Option Bytes :=
  if block.length < emLen then none
  else
    let excess := block.length - emLen
    if (block.take excess).all (· == 0) then some (block.drop excess) else none

/-- Whether a recovered block encodes a message under some salt of `saltLen` bytes. -/
def verifyPadding (name : String) (saltLen keyBits : Nat) (message block : Bytes) :
    Except Error Bool := do
  let a ← usableDigest name keyBits
  match fitBlock block (bytesFor (keyBits - 1)) with
  | none => return false
  | some em =>
    let (valid, _) ← verify a.function (a.digest message) em (keyBits - 1) saltLen
    return valid

end Keyring.Pss
