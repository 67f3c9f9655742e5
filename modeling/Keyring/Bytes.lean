/-!
# Byte strings and the numbers they denote

Keys, messages, signatures and encoded blocks are finite sequences of bytes.
Most of the arithmetic reads such a sequence as a natural number, most
significant byte first.

## Main definitions

* `twoTo`, `bitLength`, `bytesFor`, `byteLength` — sizes.
* `Bytes.value` — the number a byte string denotes.
* `Bytes.ofNat k n` — the `k` low-order bytes of `n`.
* `Bytes.minimal n` — the shortest byte string of value `n`.
* `Bytes.padLeft`, `Bytes.dropZeros`, `Bytes.xor` — the byte operations the
  padding schemes are made of.
-/

namespace Keyring

/-- A finite sequence of bytes. -/
abbrev Bytes := List UInt8

/-- Two to the power of `n`. -/
def twoTo (n : Nat) : Nat := Nat.pow 2 n

/-- The number of bits of `n`: the least `k` with `n < 2 ^ k`. -/
def bitLength (n : Nat) : Nat := if n = 0 then 0 else Nat.log2 n + 1

/-- The number of bytes that `bits` bits occupy. -/
def bytesFor (bits : Nat) : Nat := (bits + 7) / 8

/-- The number of bytes of `n` in base 256; none for zero. -/
def byteLength (n : Nat) : Nat := bytesFor (bitLength n)

namespace Bytes

/-- The number a byte string denotes, most significant byte first. -/
def value (b : Bytes) : Nat := b.foldl (fun v x => v * 256 + x.toNat) 0

/-- The `k` low-order bytes of `n`, most significant first. -/
def ofNat : Nat → Nat → Bytes
  | 0, _ => []
  | k + 1, n => ofNat k (n / 256) ++ [UInt8.ofNat n]

@[simp] theorem ofNat_zero (n : Nat) : ofNat 0 n = [] := rfl

theorem ofNat_succ (k n : Nat) : ofNat (k + 1) n = ofNat k (n / 256) ++ [UInt8.ofNat n] := rfl

@[simp] theorem length_ofNat (k n : Nat) : (ofNat k n).length = k := by
  induction k generalizing n with
  | zero => rfl
  | succ k ih => simp [ofNat_succ, ih]

/-- The shortest byte string that denotes `n`; empty for zero. -/
def minimal (n : Nat) : Bytes := ofNat (byteLength n) n

/-- Zero bytes in front until the string has `k` bytes; a longer one is left alone. -/
def padLeft (k : Nat) (b : Bytes) : Bytes := List.replicate (k - b.length) 0 ++ b

/-- The string without its leading zero bytes. -/
def dropZeros (b : Bytes) : Bytes := b.dropWhile (· == 0)

/-- Byte-wise exclusive or, as long as the shorter operand. -/
def xor (a b : Bytes) : Bytes := List.zipWith (· ^^^ ·) a b

/-- The bytes of a text in UTF-8. -/
def ofString (s : String) : Bytes := s.toUTF8.toList

/-- The bytes of a text of ASCII characters. -/
def ascii (s : String) : Bytes := s.toList.map fun c => UInt8.ofNat c.toNat

/-- `n` copies of a byte string, one after the other. -/
def times (n : Nat) (b : Bytes) : Bytes := (List.replicate n b).flatten

end Bytes

end Keyring
