import Keyring.Arith.Binary

/-!
# The block cipher AES, decrypting

A block of sixteen bytes is a square of four columns.  Every round undoes a
substitution of bytes, a rotation of rows and a mixing of columns, and adds a round
key.  The substitution is inversion in the field of 256 elements followed by an
affine map.

## Main definitions

* `roundKeys` — the round keys of a key of 16, 24 or 32 bytes.
* `decryptBlock` — one block under given round keys.
-/

namespace Keyring.Aes

open Arith

/-- The polynomial of the field of 256 elements. -/
def polynomial : Nat := 0x11b

/-- Rotates a byte to the left. -/
def rotate (b : UInt8) (n : UInt8) : UInt8 := (b <<< n) ||| (b >>> (8 - n))

/-- The substitution of a byte. -/
def substitute (b : UInt8) : UInt8 :=
  let i := if b = 0 then 0 else UInt8.ofNat (Binary.inverse polynomial b.toNat)
  i ^^^ rotate i 1 ^^^ rotate i 2 ^^^ rotate i 3 ^^^ rotate i 4 ^^^ 0x63

/-- The substitution as a table. -/
def table : Array UInt8 := (Array.range 256).map fun n => substitute (UInt8.ofNat n)

/-- The inverse substitution as a table. -/
def inverseTable : Array UInt8 :=
  (List.range 256).foldl (fun t n => t.setIfInBounds (table.getD n 0).toNat (UInt8.ofNat n))
    (Array.replicate 256 0)

/-- Substitutes every byte by a table. -/
def substituteAll (t : Array UInt8) (b : Bytes) : Bytes := b.map fun x => t.getD x.toNat 0

/-- Splits a byte string into words of four bytes. -/
def words : Bytes → List Bytes
  | a :: b :: c :: d :: rest => [a, b, c, d] :: words rest
  | _ => []

/-- The constant added in the `i`th round of the key schedule. -/
def roundConstant : Nat → Nat
  | 0 => 1
  | i + 1 => Binary.mul polynomial 2 (roundConstant i)

/-- A word with its bytes moved one place to the front. -/
def rotateWord : Bytes → Bytes
  | [] => []
  | a :: rest => rest ++ [a]

/-- The key schedule: `k` words of the key, `i` words so far, the newest first. -/
def expand (k : Nat) : Nat → Nat → List Bytes → List Bytes
  | 0, _, ws => ws
  | n + 1, i, ws =>
    let last := ws.headD []
    let t :=
      if i % k = 0 then
        Bytes.xor (substituteAll table (rotateWord last))
          [UInt8.ofNat (roundConstant (i / k - 1)), 0, 0, 0]
      -- long keys have one substitution more
      else if 6 < k && i % k = 4 then substituteAll table last
      else last
    expand k n (i + 1) (Bytes.xor (ws.getD (k - 1) []) t :: ws)

/-- Four words at a time, joined. -/
def joinWords : List Bytes → List Bytes
  | a :: b :: c :: d :: rest => (a ++ b ++ c ++ d) :: joinWords rest
  | _ => []

/-- The round keys of a key, first to last. -/
def roundKeys (key : Bytes) : List Bytes :=
  let ws := words key
  let k := ws.length
  joinWords (expand k (4 * (k + 7) - k) k ws.reverse).reverse

/-- Undoes the rotation of the rows. -/
def unshiftRows (s : Bytes) : Bytes :=
  let a := s.toArray
  (List.range 16).map fun i => a.getD ((i + 16 - 4 * (i % 4)) % 16) 0

/-- The products of every byte with a field element. -/
def products (f : Nat) : Array UInt8 :=
  (Array.range 256).map fun n => UInt8.ofNat (Binary.mul polynomial n f)

/-- The products with the coefficients of the inverse mixing. -/
def products14 : Array UInt8 := products 14
/-- The products with eleven. -/
def products11 : Array UInt8 := products 11
/-- The products with thirteen. -/
def products13 : Array UInt8 := products 13
/-- The products with nine. -/
def products9 : Array UInt8 := products 9

/-- One byte of an unmixed column. -/
def unmixByte (a b c d : UInt8) : UInt8 :=
  products14.getD a.toNat 0 ^^^ products11.getD b.toNat 0 ^^^
    products13.getD c.toNat 0 ^^^ products9.getD d.toNat 0

/-- Undoes the mixing of the columns. -/
def unmixColumns : Bytes → Bytes
  | a :: b :: c :: d :: rest =>
    unmixByte a b c d :: unmixByte b c d a :: unmixByte c d a b :: unmixByte d a b c ::
      unmixColumns rest
  | _ => []

/-- Undoes one round: rows, substitution, round key. -/
def unround (key s : Bytes) : Bytes :=
  Bytes.xor (substituteAll inverseTable (unshiftRows s)) key

/-- Decrypts a block; the round keys come last to first. -/
def decryptRounds : List Bytes → Bytes → Bytes
  | [], s => s
  | [key], s => unround key s
  | key :: rest, s => decryptRounds rest (unmixColumns (unround key s))

/-- Decrypts a block under round keys in their order. -/
def decryptBlock (keys : List Bytes) (block : Bytes) : Bytes :=
  match keys.reverse with
  | [] => block
  | last :: rest => decryptRounds rest (Bytes.xor block last)

end Keyring.Aes
