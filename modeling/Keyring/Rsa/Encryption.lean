import Keyring.Entropy
import Keyring.Pss.Mask
import Keyring.Rsa.Power

/-!
# RSA encryption

Messages are padded to a block before the operation of the public key: by PKCS #1
version 1.5 with random bytes other than zero, or by OAEP with SHA-1.  A block of
the first kind with wrong padding does not fail to decrypt: it yields a message
that looks random but depends on ciphertext and key alone.

## Main definitions

* `padMessage`, `unpadMessage` — PKCS #1 version 1.5.
* `substitute` — the message in place of one that is wrongly padded.
* `Oaep.pad`, `Oaep.unpad` — OAEP.
-/

namespace Keyring.Rsa

/-! ### PKCS #1 version 1.5 -/

/-- The block of `k` bytes for a message: at least eight random bytes go before it. -/
def padMessage (k : Nat) (e : Entropy) (m : Bytes) : Option Bytes :=
  if k < m.length + 11 then none
  else some ([0, 2] ++ e.nonzero (k - 3 - m.length) ++ [0] ++ m)

/-- The message in a block: behind the first zero after at least eight bytes. -/
def unpadMessage : Bytes → Option Bytes
  | 0 :: 2 :: rest =>
    if (rest.takeWhile (· != 0)).length < 8 then none
    else
      match rest.dropWhile (· != 0) with
      | [] => none
      | _ :: m => some m
  | _ => none

/-- `n` bytes derived from a key for a purpose. -/
def expand (key purpose : Bytes) (n : Nat) : Bytes :=
  let mac := sha256.keyed key
  ((List.range ((n + 31) / 32)).flatMap fun i =>
    mac.mac (Bytes.ofNat 2 i ++ purpose ++ Bytes.ofNat 2 (8 * n))).take n

/-- Pairs of bytes as numbers. -/
def pairs : Bytes → List Nat
  | a :: b :: rest => (256 * a.toNat + b.toNat) :: pairs rest
  | _ => []

/-- The message in place of a wrongly padded one in a block of `k` bytes.  Its
length is the last of 128 candidates that is below the longest possible one. -/
def substitute (k : Nat) (key : Bytes) : Bytes :=
  let limit := k - 10
  let candidates :=
    (pairs (expand key (Bytes.ascii "length") 256)).map (· % twoTo (bitLength limit))
  let length := candidates.foldl (fun n c => if c < limit then c else n) 0
  (expand key (Bytes.ascii "message") k).drop (k - length)

/-- The key that substitute messages are derived from: it depends on the private
exponent and the ciphertext. -/
def PrivateKey.substituteKey (k : PrivateKey) (ciphertext : Bytes) : Bytes :=
  let n := k.publicKey.byteSize
  sha256.hmac (sha256.digest (Bytes.ofNat n k.privateExponent)) (Bytes.padLeft n ciphertext)

/-- Encrypts a message. -/
def PublicKey.encrypt (k : PublicKey) (e : Entropy) (m : Bytes) : Option Bytes :=
  (padMessage k.byteSize e m).bind k.applyBlock

/-- Decrypts a block. -/
def PrivateKey.decrypt (k : PrivateKey) (ciphertext : Bytes) : Option Bytes := do
  if ciphertext.isEmpty || k.publicKey.byteSize < 11 then none
  let block ← k.applyBlock ciphertext
  if k.publicKey.byteSize < byteLength k.privateExponent then none
  return (unpadMessage block).getD (substitute k.publicKey.byteSize (k.substituteKey ciphertext))

/-! ### OAEP -/

namespace Oaep

/-- The hash function in use. -/
def hash : HashAlgorithm := .sha1

/-- A mask of `n` bytes. -/
def mask (seed : Bytes) (n : Nat) : Bytes := (Pss.mgf1 hash.function seed n).getD []

/-- The block of `k` bytes for a message. -/
def pad (k : Nat) (e : Entropy) (m : Bytes) : Option Bytes :=
  let h := hash.digestLength
  if k < 2 * h + 2 || k - 2 * h - 2 < m.length then none
  else
    let db := hash.digest [] ++ List.replicate (k - 2 * h - 2 - m.length) 0 ++ 1 :: m
    let seed := e.bytes h
    let maskedDb := Bytes.xor db (mask seed db.length)
    some (0 :: Bytes.xor seed (mask maskedDb h) ++ maskedDb)

/-- The message in a block. -/
def unpad (block : Bytes) : Option Bytes :=
  let h := hash.digestLength
  if block.length < 2 * h + 2 then none
  else
    match block with
    | 0 :: rest =>
      let maskedDb := rest.drop h
      let seed := Bytes.xor (rest.take h) (mask maskedDb h)
      let db := Bytes.xor maskedDb (mask seed maskedDb.length)
      -- the label is empty
      if db.take h ≠ hash.digest [] then none
      else
        match Bytes.dropZeros (db.drop h) with
        | 1 :: m => some m
        | _ => none
    | _ => none

end Oaep

/-- Encrypts a message with OAEP. -/
def PublicKey.encryptOaep (k : PublicKey) (e : Entropy) (m : Bytes) : Option Bytes :=
  (Oaep.pad k.byteSize e m).bind k.applyBlock

/-- Decrypts a block with OAEP. -/
def PrivateKey.decryptOaep (k : PrivateKey) (ciphertext : Bytes) : Option Bytes :=
  if ciphertext.isEmpty then none else (k.applyBlock ciphertext).bind Oaep.unpad

end Keyring.Rsa
