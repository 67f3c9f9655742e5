import Keyring.Hash.Algorithm

/-!
# Keys of containers from passwords

The derivation of PKCS #12: salt and password, each repeated to whole blocks of the
hash function, are hashed behind a block that says what the key is for, and changed
for every further part of the key.

## Main definitions

* `wideText` — a password in the form the derivation takes it.
* `containerKey` — a key for a purpose.
-/

namespace Keyring.Kdf

/-- A character in sixteen-bit units. -/
def units (c : Char) : List Nat :=
  if c.toNat < 0x10000 then [c.toNat]
  else [0xd800 + (c.toNat - 0x10000) / 0x400, 0xdc00 + (c.toNat - 0x10000) % 0x400]

/-- A password in sixteen-bit units with a zero unit at the end.  What is not UTF-8
is taken as one unit for each byte. -/
def wideText (password : Bytes) : Bytes :=
  let us := match String.fromUTF8? ⟨password.toArray⟩ with
    | some s => s.toList.flatMap units
    | none => password.map (·.toNat)
  (us ++ [0]).flatMap (Bytes.ofNat 2)

/-- What a key is for. -/
inductive Purpose where
  | encryption
  | initialBlock
  | authentication
  deriving DecidableEq, Repr

/-- The number of a purpose. -/
def Purpose.number : Purpose → UInt8
  | encryption => 1
  | initialBlock => 2
  | authentication => 3

/-- A byte string repeated to whole blocks of `size` bytes; nothing of an empty one. -/
def fill (size : Nat) (b : Bytes) : Bytes :=
  let n := (b.length + size - 1) / size * size
  (Bytes.times (n / b.length + 1) b).take n

/-- The digest of a message, hashed again until it was hashed `n + 1` times. -/
def rehash (a : HashAlgorithm) : Nat → Bytes → Bytes
  | 0, m => a.digest m
  | n + 1, m => a.digest (rehash a n m)

/-- Adds a number to each of `n` blocks. -/
def addToBlocks (size v : Nat) : Nat → Bytes → Bytes
  | 0, _ => []
  | n + 1, b =>
    Bytes.ofNat size (Bytes.value (b.take size) + v) ++ addToBlocks size v n (b.drop size)

/-- `n` digests of the key; `blocks` are those of salt and password. -/
def containerDigests (a : HashAlgorithm) (marker : Bytes) (iterations : Nat) :
    Nat → Bytes → Bytes
  | 0, _ => []
  | n + 1, blocks =>
    let size := a.core.blockSize
    let d := rehash a (iterations - 1) (marker ++ blocks)
    let v := Bytes.value ((Bytes.times (size / d.length + 1) d).take size) + 1
    d ++ containerDigests a marker iterations n
      (addToBlocks size v (blocks.length / size) blocks)

/-- A key of `size` bytes. -/
def containerKey (a : HashAlgorithm) (password salt : Bytes) (purpose : Purpose)
    (iterations size : Nat) : Bytes :=
  let block := a.core.blockSize
  let marker := List.replicate block purpose.number
  (containerDigests a marker iterations ((size + a.digestLength - 1) / a.digestLength)
    (fill block salt ++ fill block password)).take size

end Keyring.Kdf
