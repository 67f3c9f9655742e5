import Keyring.Bytes

/-!
# Iterated hash functions

MD5, SHA-1 and the SHA-2 family share one construction: the message is padded
to whole blocks, its length is written at the end, and a compression function
is folded over the blocks.  What differs is a record, `MerkleDamgard`.

## Main definitions

* `MerkleDamgard.finish` — the digest of a message of which some blocks have
  already been absorbed.
* `MerkleDamgard.digest` — the digest of a whole message.
* `MerkleDamgard.hmac` — the keyed hash (HMAC), and `MerkleDamgard.keyed`,
  the same with the two key blocks absorbed beforehand.
-/

namespace Keyring

/-- The parts of an iterated hash function. -/
structure MerkleDamgard where
  /-- The chaining value. -/
  State : Type
  /-- Bytes to a block. -/
  blockSize : Nat
  /-- Bytes in which the message length is written at the end. -/
  lengthSize : Nat
  /-- Whether that length has its most significant byte first. -/
  bigEndian : Bool
  /-- The chaining value before the first block. -/
  init : State
  /-- The compression function, given a block of `blockSize` bytes. -/
  compress : State → Bytes → State
  /-- The digest read off the last chaining value. -/
  output : State → Bytes

namespace MerkleDamgard

variable (H : MerkleDamgard)

/-- Absorbs `n` blocks. -/
def absorb : Nat → H.State → Bytes → H.State
  | 0, s, _ => s
  | n + 1, s, m => absorb n (H.compress s (m.take H.blockSize)) (m.drop H.blockSize)

/-- What is appended to a message of `n` bytes: the byte `80`, zeros up to a
block boundary less the length field, and the length in bits. -/
def padding (n : Nat) : Bytes :=
  let zeros := (2 * H.blockSize - 1 - H.lengthSize - n % H.blockSize) % H.blockSize
  let length := Bytes.ofNat H.lengthSize (8 * n)
  0x80 :: List.replicate zeros 0 ++ if H.bigEndian then length else length.reverse

/-- The digest of a message whose first `prior` bytes, whole blocks, have been
absorbed into `s` and whose remaining bytes are `m`. -/
def finish (s : H.State) (prior : Nat) (m : Bytes) : Bytes :=
  let padded := m ++ H.padding (prior + m.length)
  H.output (H.absorb (padded.length / H.blockSize) s padded)

/-- The digest of a message. -/
def digest (m : Bytes) : Bytes := H.finish H.init 0 m

/-- A key of HMAC with its two key blocks absorbed. -/
structure Keyed where
  /-- The chaining value after the key block of the inner hash. -/
  inner : H.State
  /-- The chaining value after the key block of the outer hash. -/
  outer : H.State

/-- Absorbs a key: a key longer than a block is replaced by its digest. -/
def keyed (key : Bytes) : H.Keyed :=
  let key := if key.length > H.blockSize then H.digest key else key
  let block := key ++ List.replicate (H.blockSize - key.length) 0
  { inner := H.compress H.init (block.map (· ^^^ 0x36))
    outer := H.compress H.init (block.map (· ^^^ 0x5c)) }

/-- The keyed hash of a message. -/
def Keyed.mac {H : MerkleDamgard} (k : H.Keyed) (m : Bytes) : Bytes :=
  H.finish k.outer H.blockSize (H.finish k.inner H.blockSize m)

/-- The keyed hash (HMAC). -/
def hmac (key m : Bytes) : Bytes := (H.keyed key).mac m

end MerkleDamgard

end Keyring
