import Keyring.Bytes

/-!
# Object identifiers

An object identifier is a path of numbers.  Its encoding merges the first two
numbers and writes each number of the result in base 128, most significant digit
first, with a continuation bit on all digits but the last.

## Main definitions

* `Oid` — a path; `Oid.text` — its dotted form.
* `Oid.content` — the encoding of a path.
* `Oid.ofContent?` — the path of an encoding: minimal digits, numbers below
  `2 ^ 128`, at most 63 bytes.
-/

namespace Keyring

/-- A path of numbers. -/
abbrev Oid := List Nat

namespace Oid

/-- The `k` low-order digits of a number in base 128, all with the continuation
bit set. -/
def base128Prefix : Nat → Nat → Bytes
  | 0, _ => []
  | k + 1, n => base128Prefix k (n / 128) ++ [UInt8.ofNat (128 + n % 128)]

/-- A number in base 128. -/
def base128 (n : Nat) : Bytes :=
  base128Prefix ((bitLength (n / 128) + 6) / 7) (n / 128) ++ [UInt8.ofNat (n % 128)]

/-- The content of the encoding of a path of at least two numbers. -/
def content : Oid → Bytes
  | a :: b :: rest => base128 (40 * a + b) ++ rest.flatMap base128
  | _ => []

/-- Reads numbers in base 128: `v` is the number begun, `fresh` whether none is. -/
def readNumbers (v : Nat) (fresh : Bool) : Bytes → Option (List Nat)
  | [] => if fresh then some [] else none
  | b :: rest =>
    if fresh && b == 0x80 then none
    else
      let v := v * 128 + (b &&& 0x7f).toNat
      if twoTo 128 ≤ v then none
      else if b < 0x80 then (readNumbers 0 true rest).map (v :: ·)
      else readNumbers v false rest

/-- Splits the first number of an encoding into the first two of the path. -/
def splitFirst (n : Nat) : List Nat :=
  if n < 80 then [n / 40, n % 40] else [2, n - 80]

/-- The path of an encoding. -/
def ofContent? (c : Bytes) : Option Oid :=
  if c.length > 63 then none
  else
    match readNumbers 0 true c with
    | some (n :: rest) => some (splitFirst n ++ rest)
    | _ => none

/-- The numbers of a path with dots between them. -/
def text (o : Oid) : String := ".".intercalate (o.map toString)

end Oid

end Keyring
