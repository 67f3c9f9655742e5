import Keyring.Kdf.Pbkdf2

/-!
# Keys from passwords by a function that needs memory

Scrypt: blocks of words are mixed over a table of earlier blocks whose size is a
parameter.

## Main definitions

* `ScryptCost` — the three parameters, and `ScryptCost.isValid`, their limits.
* `scrypt` — a key.
-/

namespace Keyring.Kdf

/-- The cost parameters. -/
structure ScryptCost where
  /-- Blocks in the table, a power of two. -/
  n : Nat
  /-- Pairs of 64-byte parts in a block. -/
  r : Nat
  /-- Blocks mixed independently. -/
  p : Nat
  deriving DecidableEq, Repr

/-- Whether the parameters are within limits and the table fits 32 MiB. -/
def ScryptCost.isValid (c : ScryptCost) : Bool :=
  1 < c.n && c.n &&& (c.n - 1) == 0 && 0 < c.r && 0 < c.p && c.p * c.r < twoTo 30 &&
    (16 * c.r ≤ 63 → c.n < twoTo (16 * c.r)) &&
    c.p * 128 * c.r + 32 * c.r * (c.n + 2) * 4 ≤ 32 * 1024 * 1024

/-- The words of a byte string, least significant byte first. -/
def wordsOf : Bytes → List UInt32
  | a :: b :: c :: d :: rest =>
    (a.toUInt32 ||| b.toUInt32 <<< 8 ||| c.toUInt32 <<< 16 ||| d.toUInt32 <<< 24) :: wordsOf rest
  | _ => []

/-- The bytes of words. -/
def bytesOfWords (ws : List UInt32) : Bytes :=
  ws.flatMap fun (w : UInt32) =>
    [w.toUInt8, (w >>> 8).toUInt8, (w >>> 16).toUInt8, (w >>> 24).toUInt8]

/-- Rotates a word to the left. -/
def rotateWord (w n : UInt32) : UInt32 := w <<< n ||| w >>> (32 - n)

/-- Mixes four words of a square in turn. -/
def quarterRound (x : Array UInt32) (a b c d : Nat) : Array UInt32 :=
  let word (x : Array UInt32) (i : Nat) := x.getD i 0
  let step (x : Array UInt32) (t u v : Nat) (n : UInt32) : Array UInt32 :=
    x.setIfInBounds t (word x t ^^^ rotateWord (word x u + word x v) n)
  let x := step x b a d 7
  let x := step x c b a 9
  let x := step x d c b 13
  step x a d c 18

/-- Mixes the columns and then the rows of a square of words. -/
def doubleRound (x : Array UInt32) : Array UInt32 :=
  let x := quarterRound x 0 4 8 12
  let x := quarterRound x 5 9 13 1
  let x := quarterRound x 10 14 2 6
  let x := quarterRound x 15 3 7 11
  let x := quarterRound x 0 1 2 3
  let x := quarterRound x 5 6 7 4
  let x := quarterRound x 10 11 8 9
  quarterRound x 15 12 13 14

/-- The function on sixteen words that the mixing rests on. -/
def salsa (x : Array UInt32) : Array UInt32 :=
  let y := doubleRound (doubleRound (doubleRound (doubleRound x)))
  Array.zipWith (· + ·) x y

/-- Mixes the `n` parts of a block in turn, `last` being the part before them. -/
def chainParts (b : Array UInt32) : Nat → Nat → Array UInt32 → List (Array UInt32)
  | 0, _, _ => []
  | n + 1, i, last =>
    let part := salsa (Array.zipWith (· ^^^ ·) last (b.extract (16 * i) (16 * i + 16)))
    part :: chainParts b n (i + 1) part

/-- The elements of a list at even and at odd places. -/
def evensOdds {α : Type} : List α → List α × List α
  | a :: b :: rest =>
    let (evens, odds) := evensOdds rest
    (a :: evens, b :: odds)
  | rest => (rest, [])

/-- Mixes a block: the mixed parts at even places come first. -/
def mixBlock (b : Array UInt32) : Array UInt32 :=
  let parts := chainParts b (b.size / 16) 0 (b.extract (b.size - 16) b.size)
  let (evens, odds) := evensOdds parts
  (evens ++ odds).foldl (· ++ ·) #[]

/-- The table of the first `n` blocks, and the block after them. -/
def fillTable : Nat → Array UInt32 → Array (Array UInt32) → Array (Array UInt32) × Array UInt32
  | 0, b, table => (table, b)
  | n + 1, b, table => fillTable n (mixBlock b) (table.push b)

/-- Mixes a block `n` times, adding the entry of the table that it names. -/
def walkTable (table : Array (Array UInt32)) : Nat → Array UInt32 → Array UInt32
  | 0, b => b
  | n + 1, b =>
    let j := (b.getD (b.size - 16) 0).toNat % table.size
    walkTable table n (mixBlock (Array.zipWith (· ^^^ ·) b (table.getD j #[])))

/-- Mixes a block over a table of `n` blocks. -/
def mixOverTable (n : Nat) (b : Bytes) : Bytes :=
  let (table, b) := fillTable n (wordsOf b).toArray #[]
  bytesOfWords (walkTable table n b).toList

/-- `n` pieces of `size` bytes. -/
def pieces (size : Nat) : Nat → Bytes → List Bytes
  | 0, _ => []
  | n + 1, b => b.take size :: pieces size n (b.drop size)

/-- A key of `size` bytes. -/
def scrypt (password salt : Bytes) (c : ScryptCost) (size : Nat) : Bytes :=
  let b := pbkdf2 .sha256 password salt 1 (c.p * 128 * c.r)
  let mixed := (pieces (128 * c.r) c.p b).flatMap (mixOverTable c.n)
  pbkdf2 .sha256 password mixed 1 size

end Keyring.Kdf
