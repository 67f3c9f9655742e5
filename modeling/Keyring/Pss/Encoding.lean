import Keyring.Pss.Bits
import Keyring.Pss.Mask

/-!
# EMSA-PSS encoding

The encoding of RFC 8017, section 9.1.  A salt is hashed together with the
message hash; the salt itself, behind zeros and a byte `01`, is masked by the
result and stored in front of it; the block ends in `bc`.

## Main definitions

* `encode` — the encoded block of a message hash under a salt.
* `verify` — whether a block encodes a message hash under some salt of a given
  length, with the block as the check leaves it: it unmasks in place.
-/

namespace Keyring.Pss

/-- Why an encoding or a check does not come to an end. -/
inductive Error where
  /-- The named hash algorithm has no PSS encoding. -/
  | unsupportedDigest (name : String)
  /-- The key has no room for digest and salt. -/
  | keyTooShort
  /-- The salt is longer than the digest, or the key below the minimum. -/
  | invalidParameter
  /-- A 64-bit size or the 32-bit mask counter would run over; the call is abandoned. -/
  | overflow
  deriving DecidableEq, Repr

/-- Sizes are 64-bit numbers: a sum past their end abandons the call. -/
def sizeSum (parts : List Nat) : Except Error Nat :=
  let total := parts.foldr (· + ·) 0
  if total < twoTo 64 then .ok total else .error .overflow

/-- The mask of a block, as an outcome of the whole encoding or check. -/
def mask (D : DigestFunction) (seed : Bytes) (length : Nat) : Except Error Bytes :=
  match mgf1 D seed length with
  | some m => .ok m
  | none => .error .overflow

/-- The hash that ties a salt to a message hash: of eight zero bytes, the message
hash and the salt. -/
def saltedHash (D : DigestFunction) (messageHash salt : Bytes) : Bytes :=
  D.hash (List.replicate 8 0 ++ messageHash ++ salt)

/-- The block of `emBits` bits that encodes a message hash under a salt. -/
def encode (D : DigestFunction) (messageHash : Bytes) (emBits : Nat) (salt : Bytes) :
    Except Error Bytes := do
  let emLen := bytesFor emBits
  -- a salt is at most as long as the digest (FIPS 186-5, 5.4 (g))
  if salt.length > D.length then throw .invalidParameter
  if emLen < D.length + salt.length + 2 then throw .keyTooShort
  let h := saltedHash D messageHash salt
  let dbLen := emLen - D.length - 1
  let db := List.replicate (dbLen - salt.length - 1) 0 ++ 1 :: salt
  let dbMask ← mask D h dbLen
  return clearLeading (8 * emLen - emBits) (Bytes.xor db dbMask) ++ h ++ [0xbc]

/-- Whether an unmasked data block is zeros, a byte `01` and a salt of `saltLen`
bytes that reproduces the hash `h`. -/
def saltMatches (D : DigestFunction) (messageHash h : Bytes) (saltLen : Nat) (db : Bytes) : Bool :=
  match Bytes.dropZeros db with
  | [] => false
  | b :: salt => b == 1 && salt.length == saltLen && saltedHash D messageHash salt == h

/-- Checks a block against a message hash.  The answer comes with the block as it
is afterwards: once its length, its last byte and its leading bits are found
right, the data block in front is unmasked, whatever the verdict. -/
def verify (D : DigestFunction) (messageHash em : Bytes) (emBits saltLen : Nat) :
    Except Error (Bool × Bytes) := do
  let emLen := bytesFor emBits
  if em.length != emLen then return (false, em)
  -- the sum is one of machine integers
  if emLen < (← sizeSum [D.length, saltLen, 2]) then return (false, em)
  if em.getLast? != some 0xbc then return (false, em)
  let dbLen := emLen - D.length - 1
  let maskedDb := em.take dbLen
  let rest := em.drop dbLen
  let h := rest.take D.length
  let slack := 8 * emLen - emBits
  if !leadingClear slack maskedDb then return (false, em)
  let dbMask ← mask D h dbLen
  let db := clearLeading slack (Bytes.xor maskedDb dbMask)
  return (saltMatches D messageHash h saltLen db, db ++ rest)

end Keyring.Pss
