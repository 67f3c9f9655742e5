import Keyring.Cipher.Aes
import Keyring.Cipher.TripleDes

/-!
# Ciphers for stored keys

Blocks are chained: every decrypted block is added to the encrypted block before
it.  The last one is filled up with as many bytes as are missing, each saying how
many there are.

## Main definitions

* `Cipher` — the ciphers in use, with their names and identifiers.
* `Cipher.decrypt` — a whole text under a key and an initial block.
-/

namespace Keyring

/-- The ciphers that keys are stored under. -/
inductive Cipher where
  | aes128
  | aes192
  | aes256
  | tripleDes
  /-- Three keys of which the last is the first. -/
  | doubleDes
  deriving DecidableEq, Repr

namespace Cipher

/-- Bytes to a key. -/
def keySize : Cipher → Nat
  | aes128 => 16
  | aes192 => 24
  | aes256 => 32
  | tripleDes => 24
  | doubleDes => 16

/-- Bytes to a block. -/
def blockSize : Cipher → Nat
  | aes128 | aes192 | aes256 => 16
  | tripleDes | doubleDes => 8

/-- The function that decrypts a block under a key. -/
def blockFunction (c : Cipher) (key : Bytes) : Bytes → Bytes :=
  match c with
  | aes128 | aes192 | aes256 => Aes.decryptBlock (Aes.roundKeys key)
  | tripleDes => TripleDes.decryptBlock (TripleDes.schedule key)
  | doubleDes => TripleDes.decryptBlock (TripleDes.schedule (key ++ key.take 8))

/-- Decrypts `n` chained blocks. -/
def unchain (f : Bytes → Bytes) (size : Nat) : Nat → Bytes → Bytes → Bytes
  | 0, _, _ => []
  | n + 1, previous, text =>
    let block := text.take size
    Bytes.xor (f block) previous ++ unchain f size n block (text.drop size)

/-- The text without the bytes that fill up its last block. -/
def unpad (size : Nat) (text : Bytes) : Option Bytes :=
  match text.getLast? with
  | none => none
  | some b =>
    let n := b.toNat
    if n = 0 || size < n || text.length < n then none
    else if (text.drop (text.length - n)).all (· == b) then some (text.take (text.length - n))
    else none

/-- Decrypts a text. -/
def decrypt (c : Cipher) (key iv text : Bytes) : Option Bytes :=
  let size := c.blockSize
  if text.isEmpty || text.length % size ≠ 0 then none
  else unpad size (unchain (c.blockFunction key) size (text.length / size) iv text)

end Cipher

end Keyring
