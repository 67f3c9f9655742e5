import Keyring.Bytes

/-!
# The block cipher DES, three times over

A block of 64 bits passes sixteen rounds under 48-bit keys chosen from the bits of
the main key.  Used three times, backwards in the middle, it takes keys of 24 bytes.
Bits are numbered from the most significant one, starting at one.

## Main definitions

* `cipher` — a block under sixteen round keys.
* `decryptBlock` — a block under a key of 24 bytes, decrypting.
-/

namespace Keyring.TripleDes

/-- The number whose bits are those of an `n`-bit number at given places. -/
def choose (n : Nat) (places : List Nat) (x : Nat) : Nat :=
  places.foldl (fun v i => 2 * v + if x.testBit (n - i) then 1 else 0) 0

/-- The permutation before the first round. -/
def initial : List Nat :=
  [58, 50, 42, 34, 26, 18, 10, 2, 60, 52, 44, 36, 28, 20, 12, 4,
   62, 54, 46, 38, 30, 22, 14, 6, 64, 56, 48, 40, 32, 24, 16, 8,
   57, 49, 41, 33, 25, 17, 9, 1, 59, 51, 43, 35, 27, 19, 11, 3,
   61, 53, 45, 37, 29, 21, 13, 5, 63, 55, 47, 39, 31, 23, 15, 7]

/-- The permutation after the last round. -/
def final : List Nat :=
  [40, 8, 48, 16, 56, 24, 64, 32, 39, 7, 47, 15, 55, 23, 63, 31,
   38, 6, 46, 14, 54, 22, 62, 30, 37, 5, 45, 13, 53, 21, 61, 29,
   36, 4, 44, 12, 52, 20, 60, 28, 35, 3, 43, 11, 51, 19, 59, 27,
   34, 2, 42, 10, 50, 18, 58, 26, 33, 1, 41, 9, 49, 17, 57, 25]

/-- The bits that the half block is spread to. -/
def expansion : List Nat :=
  [32, 1, 2, 3, 4, 5, 4, 5, 6, 7, 8, 9, 8, 9, 10, 11, 12, 13, 12, 13, 14, 15, 16, 17,
   16, 17, 18, 19, 20, 21, 20, 21, 22, 23, 24, 25, 24, 25, 26, 27, 28, 29, 28, 29, 30, 31, 32, 1]

/-- The permutation at the end of a round. -/
def permutation : List Nat :=
  [16, 7, 20, 21, 29, 12, 28, 17, 1, 15, 23, 26, 5, 18, 31, 10,
   2, 8, 24, 14, 32, 27, 3, 9, 19, 13, 30, 6, 22, 11, 4, 25]

/-- The bits of the key that count. -/
def keyBits : List Nat :=
  [57, 49, 41, 33, 25, 17, 9, 1, 58, 50, 42, 34, 26, 18, 10, 2, 59, 51, 43, 35, 27, 19, 11, 3, 60,
   52, 44, 36, 63, 55, 47, 39, 31, 23, 15, 7, 62, 54, 46, 38, 30, 22, 14, 6, 61, 53, 45, 37, 29,
   21, 13, 5, 28, 20, 12, 4]

/-- The bits of the rotated key that make a round key. -/
def roundKeyBits : List Nat :=
  [14, 17, 11, 24, 1, 5, 3, 28, 15, 6, 21, 10, 23, 19, 12, 4, 26, 8, 16, 7, 27, 20, 13, 2,
   41, 52, 31, 37, 47, 55, 30, 40, 51, 45, 33, 48, 44, 49, 39, 56, 34, 53, 46, 42, 50, 36, 29, 32]

/-- How far the halves of the key have been rotated in each round. -/
def rotations : List Nat := [1, 2, 4, 6, 8, 10, 12, 14, 15, 17, 19, 21, 23, 25, 27, 28]

/-- The eight substitutions of six bits by four, row after row. -/
def boxes : List (Array Nat) :=
  [#[14, 4, 13, 1, 2, 15, 11, 8, 3, 10, 6, 12, 5, 9, 0, 7,
     0, 15, 7, 4, 14, 2, 13, 1, 10, 6, 12, 11, 9, 5, 3, 8,
     4, 1, 14, 8, 13, 6, 2, 11, 15, 12, 9, 7, 3, 10, 5, 0,
     15, 12, 8, 2, 4, 9, 1, 7, 5, 11, 3, 14, 10, 0, 6, 13],
   #[15, 1, 8, 14, 6, 11, 3, 4, 9, 7, 2, 13, 12, 0, 5, 10,
     3, 13, 4, 7, 15, 2, 8, 14, 12, 0, 1, 10, 6, 9, 11, 5,
     0, 14, 7, 11, 10, 4, 13, 1, 5, 8, 12, 6, 9, 3, 2, 15,
     13, 8, 10, 1, 3, 15, 4, 2, 11, 6, 7, 12, 0, 5, 14, 9],
   #[10, 0, 9, 14, 6, 3, 15, 5, 1, 13, 12, 7, 11, 4, 2, 8,
     13, 7, 0, 9, 3, 4, 6, 10, 2, 8, 5, 14, 12, 11, 15, 1,
     13, 6, 4, 9, 8, 15, 3, 0, 11, 1, 2, 12, 5, 10, 14, 7,
     1, 10, 13, 0, 6, 9, 8, 7, 4, 15, 14, 3, 11, 5, 2, 12],
   #[7, 13, 14, 3, 0, 6, 9, 10, 1, 2, 8, 5, 11, 12, 4, 15,
     13, 8, 11, 5, 6, 15, 0, 3, 4, 7, 2, 12, 1, 10, 14, 9,
     10, 6, 9, 0, 12, 11, 7, 13, 15, 1, 3, 14, 5, 2, 8, 4,
     3, 15, 0, 6, 10, 1, 13, 8, 9, 4, 5, 11, 12, 7, 2, 14],
   #[2, 12, 4, 1, 7, 10, 11, 6, 8, 5, 3, 15, 13, 0, 14, 9,
     14, 11, 2, 12, 4, 7, 13, 1, 5, 0, 15, 10, 3, 9, 8, 6,
     4, 2, 1, 11, 10, 13, 7, 8, 15, 9, 12, 5, 6, 3, 0, 14,
     11, 8, 12, 7, 1, 14, 2, 13, 6, 15, 0, 9, 10, 4, 5, 3],
   #[12, 1, 10, 15, 9, 2, 6, 8, 0, 13, 3, 4, 14, 7, 5, 11,
     10, 15, 4, 2, 7, 12, 9, 5, 6, 1, 13, 14, 0, 11, 3, 8,
     9, 14, 15, 5, 2, 8, 12, 3, 7, 0, 4, 10, 1, 13, 11, 6,
     4, 3, 2, 12, 9, 5, 15, 10, 11, 14, 1, 7, 6, 0, 8, 13],
   #[4, 11, 2, 14, 15, 0, 8, 13, 3, 12, 9, 7, 5, 10, 6, 1,
     13, 0, 11, 7, 4, 9, 1, 10, 14, 3, 5, 12, 2, 15, 8, 6,
     1, 4, 11, 13, 12, 3, 7, 14, 10, 15, 6, 8, 0, 5, 9, 2,
     6, 11, 13, 8, 1, 4, 10, 7, 9, 5, 0, 15, 14, 2, 3, 12],
   #[13, 2, 8, 4, 6, 15, 11, 1, 10, 9, 3, 14, 5, 0, 12, 7,
     1, 15, 13, 8, 10, 3, 7, 4, 12, 5, 6, 11, 0, 14, 9, 2,
     7, 11, 4, 1, 9, 12, 14, 2, 0, 6, 10, 13, 15, 3, 5, 8,
     2, 1, 14, 7, 4, 10, 8, 13, 15, 12, 9, 0, 3, 5, 6, 11]]

/-- The four bits for six: the outer two choose the row, the inner four the column. -/
def substitute (box : Array Nat) (x : Nat) : Nat :=
  box.getD ((x / 32 * 2 + x % 2) * 16 + x / 2 % 16) 0

/-- The function of a round. -/
def mix (key half : Nat) : Nat :=
  let x := choose 32 expansion half ^^^ key
  let (_, y) := boxes.foldl (fun (i, v) box => (i - 6, 16 * v + substitute box (x >>> i % 64)))
    (42, 0)
  choose 32 permutation y

/-- The sixteen round keys of a key of eight bytes. -/
def roundKeys (key : Bytes) : List Nat :=
  let k := choose 64 keyBits (Bytes.value key)
  let half := twoTo 28
  let turn (x n : Nat) : Nat := (x * twoTo n) % half + x / twoTo (28 - n)
  rotations.map fun n => choose 56 roundKeyBits (turn (k / half) n * half + turn (k % half) n)

/-- The rounds on the two halves of a block. -/
def rounds (keys : List Nat) (l r : Nat) : Nat × Nat :=
  keys.foldl (fun (l, r) key => (r, l ^^^ mix key r)) (l, r)

/-- A block under round keys; the reverse order of the keys undoes it. -/
def cipher (keys : List Nat) (block : Bytes) : Bytes :=
  let x := choose 64 initial (Bytes.value block)
  let (l, r) := rounds keys (x / twoTo 32) (x % twoTo 32)
  Bytes.ofNat 8 (choose 64 final (r * twoTo 32 + l))

/-- The round keys of the three parts of a key. -/
def schedule (key : Bytes) : List (List Nat) :=
  [roundKeys (key.take 8), roundKeys ((key.drop 8).take 8), roundKeys ((key.drop 16).take 8)]

/-- Decrypts a block: the last key backwards, the middle one forwards, the first
one backwards. -/
def decryptBlock (keys : List (List Nat)) (block : Bytes) : Bytes :=
  match keys with
  | [a, b, c] => cipher a.reverse (cipher b (cipher c.reverse block))
  | _ => block

end Keyring.TripleDes
