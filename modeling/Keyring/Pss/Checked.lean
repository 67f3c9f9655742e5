import Keyring.Pss.Padding

/-!
# The check in machine operations

The check of a block, with every operation that a machine may refuse: sums, products and differences
of 64-bit sizes, the 32-bit counter of the mask, shifts of a byte, indices, slices, buffers, and
copies between strings that have to be of the same length.  An operation that is refused abandons
the check with a fault, which is not an answer.

## Main definitions

* `Fault` — what a machine refuses.
* `size`, `add`, `mul`, `sub`, `byteAt`, `slice`, `splitAt`, `copyInto`, `shiftRight` — the
  operations.
* `mgf1`, `leadingClear`, `clearLeading`, `saltedHash` — the parts of the check, in these
  operations.
* `checkParts`, `verify`, `verifyPadding` — the check.
-/

namespace Keyring.Pss.Checked

/-- What a machine refuses. -/
inductive Fault where
  /-- A sum or product that is not a 64-bit number. -/
  | overflow
  /-- A difference below zero. -/
  | underflow
  /-- A counter that is not a 32-bit number. -/
  | counter
  /-- A shift by the width of a byte, or more. -/
  | shift
  /-- An index or a slice outside of a string. -/
  | range
  /-- Two strings that should be of the same length. -/
  | lengths
  /-- A buffer of `2 ^ 63` bytes or more. -/
  | capacity
  deriving DecidableEq, Repr

/-! ### Operations -/

/-- A size, if it is a 64-bit number. -/
def size (n : Nat) : Except Fault Nat := if n < twoTo 64 then .ok n else .error .overflow

/-- A sum of sizes. -/
def add (a b : Nat) : Except Fault Nat := size (a + b)

/-- A product of sizes. -/
def mul (a b : Nat) : Except Fault Nat := size (a * b)

/-- A difference of sizes. -/
def sub (a b : Nat) : Except Fault Nat := if b ≤ a then .ok (a - b) else .error .underflow

/-- A byte, shifted to the right. -/
def shiftRight (b : UInt8) (n : Nat) : Except Fault UInt8 :=
  if n < 8 then .ok (b >>> UInt8.ofNat n) else .error .shift

/-- The byte at an index. -/
def byteAt (v : Bytes) (i : Nat) : Except Fault UInt8 :=
  match v[i]? with
  | some b => .ok b
  | none => .error .range

/-- The bytes from `start` up to `stop`. -/
def slice (v : Bytes) (start stop : Nat) : Except Fault Bytes :=
  if start ≤ stop ∧ stop ≤ v.length then .ok ((v.take stop).drop start) else .error .range

/-- The bytes before an index and those behind it. -/
def splitAt (v : Bytes) (i : Nat) : Except Fault (Bytes × Bytes) :=
  if i ≤ v.length then .ok (v.take i, v.drop i) else .error .range

/-- Writes `w` over the bytes from `start` up to `stop`, which are as many. -/
def copyInto (v : Bytes) (start stop : Nat) (w : Bytes) : Except Fault Bytes := do
  let target ← slice v start stop
  if target.length = w.length then return v.take start ++ w ++ v.drop stop
  throw .lengths

/-- Room for `n` bytes. -/
def reserve (n : Nat) : Except Fault Unit := if n < twoTo 63 then .ok () else .error .capacity

/-! ### The parts of the check -/

/-- The number of bytes that `bits` bits occupy: one more than the quotient if there is a rest. -/
def bytesOf (bits : Nat) : Except Fault Nat :=
  if 0 < bits % 8 then add (bits / 8) 1 else .ok (bits / 8)

/-- The last `emLen` bytes of a block, if the block has them and all before them are zero. -/
def fitBlock (block : Bytes) (emLen : Nat) : Except Fault (Option Bytes) := do
  if block.length < emLen then return none
  let (front, em) ← splitAt block (← sub block.length emLen)
  if front.any (· != 0) then return none
  return some em

/-- Whether the `x` leading bits are zero: those in whole bytes, then those in the byte behind. -/
def leadingClear (v : Bytes) (x : Nat) : Except Fault Bool := do
  if (v.take (x / 8)).any (· != 0) then return false
  if 0 < x % 8 then
    let low ← shiftRight 0xff (x % 8)
    return v[x / 8]?.getD 0 &&& ~~~low == 0
  return true

/-- Clears the `x` leading bits: those in whole bytes, then those in the byte behind. -/
def clearLeading (v : Bytes) (x : Nat) : Except Fault Bytes := do
  let w := (v.take (x / 8)).map (fun _ => 0) ++ v.drop (x / 8)
  if 0 < x % 8 then
    let low ← shiftRight 0xff (x % 8)
    return w.modify (x / 8) (· &&& low)
  return w

/-- The loop of the mask: as long as bytes are missing, another digest is appended and the counter
is advanced. -/
def fillMask (D : DigestFunction) (seed : Bytes) (length : Nat) (t : Bytes) (c : Nat) :
    Except Fault Bytes :=
  if t.length < length then
    if c + 1 < twoTo 32 then
      fillMask D seed length (t ++ D.hash (seed ++ Bytes.ofNat 4 c)) (c + 1)
    else .error .counter
  else .ok t
termination_by twoTo 32 - c
decreasing_by exact Nat.sub_lt_sub_left (Nat.lt_of_succ_lt ‹c + 1 < twoTo 32›) (Nat.lt_succ_self c)

/-- A mask of `length` bytes. -/
def mgf1 (D : DigestFunction) (seed : Bytes) (length : Nat) : Except Fault Bytes := do
  reserve (← add length D.length)
  return (← fillMask D seed length [] 0).take length

/-- Byte-wise exclusive or of two strings of the same length. -/
def xor (a b : Bytes) : Except Fault Bytes :=
  if a.length = b.length then .ok (Bytes.xor a b) else .error .lengths

/-- The hash that ties a salt to a message hash, of a buffer that they are copied into. -/
def saltedHash (D : DigestFunction) (messageHash salt : Bytes) : Except Fault Bytes := do
  let behind ← add 8 messageHash.length
  let total ← add behind salt.length
  reserve total
  let buffer ← copyInto (List.replicate total 0) 8 behind messageHash
  let buffer ← copyInto buffer behind total salt
  return D.hash buffer

/-- Whether an unmasked data block of `dbLen` bytes is zeros, a byte `01` and a salt of `saltLen`
bytes that reproduces the hash `h`. -/
def saltMatches (D : DigestFunction) (messageHash h : Bytes) (dbLen saltLen : Nat) (db : Bytes) :
    Except Fault Bool :=
  match db.findIdx? (· != 0) with
  | none => return false
  | some i => do
    if (← byteAt db i) != 1 then return false
    let actual ← sub (← sub dbLen i) 1
    if actual != saltLen then return false
    let salt ← slice db (← sub dbLen saltLen) db.length
    return (← saltedHash D messageHash salt) == h

/-! ### The check -/

/-- Takes a block of `emLen` bytes apart, unmasks the data block and looks for the salt. -/
def checkParts (D : DigestFunction) (messageHash em : Bytes) (emLen emBits saltLen : Nat) :
    Except Fault Bool := do
  let dbLen ← sub (← sub emLen D.length) 1
  let (maskedDb, rest) ← splitAt em dbLen
  let h ← slice rest 0 D.length
  let unused ← sub (← mul 8 emLen) emBits
  if !(← leadingClear maskedDb unused) then return false
  let dbMask ← mgf1 D h dbLen
  let db ← clearLeading (← xor maskedDb dbMask) unused
  saltMatches D messageHash h dbLen saltLen db

/-- Checks a block against a message hash. -/
def verify (D : DigestFunction) (messageHash em : Bytes) (emBits saltLen : Nat) :
    Except Fault Bool := do
  let emLen ← bytesOf emBits
  if em.length != emLen then return false
  if emLen < (← add (← add D.length saltLen) 2) then return false
  if (← byteAt em (← sub emLen 1)) != 0xbc then return false
  checkParts D messageHash em emLen emBits saltLen

/-- Whether a recovered block encodes a message under some salt of `saltLen` bytes, or why it is
not looked at. -/
def verifyPadding (name : String) (saltLen keyBits : Nat) (message block : Bytes) :
    Except Fault (Except Pss.Error Bool) :=
  match usableDigest name keyBits with
  | .error e => return .error e
  | .ok a => do
    let emBits ← sub keyBits 1
    match ← fitBlock block (← bytesOf emBits) with
    | none => return .ok false
    | some em => return .ok (← verify a.function (a.digest message) em emBits saltLen)

end Keyring.Pss.Checked
