import Keyring.Bytes

/-!
# Base 64

Four characters stand for three bytes; one or two signs `=` at the end stand for
missing ones.  Blanks and line ends between the characters have no meaning, and a
hyphen ends the text.
-/

namespace Keyring.Base64

/-- The value of a character of the alphabet. -/
def digit? (c : UInt8) : Option Nat :=
  if 65 ≤ c ∧ c ≤ 90 then some (c.toNat - 65)
  else if 97 ≤ c ∧ c ≤ 122 then some (c.toNat - 71)
  else if 48 ≤ c ∧ c ≤ 57 then some (c.toNat + 4)
  else if c = 43 then some 62
  else if c = 47 then some 63
  else none

/-- Whether a character has no meaning. -/
def isBlank (c : UInt8) : Bool := c == 9 || c == 10 || c == 13 || c == 32

/-- The characters with a meaning, up to the first hyphen. -/
def significant (text : Bytes) : Bytes := (text.takeWhile (· != 45)).filter fun c => !isBlank c

/-- The bytes of the groups of four values. -/
def join : List Nat → Bytes
  | a :: b :: c :: d :: rest => Bytes.ofNat 3 (((a * 64 + b) * 64 + c) * 64 + d) ++ join rest
  | _ => []

/-- The bytes that a text stands for. -/
def decode (text : Bytes) : Option Bytes := do
  let chars := significant text
  let body := chars.takeWhile (· != 61)
  let signs := chars.drop body.length
  if chars.length % 4 ≠ 0 || 2 < signs.length || signs.any (· != 61) then none
  let values ← body.mapM digit?
  return (join (values ++ signs.map fun _ => 0)).take (chars.length / 4 * 3 - signs.length)

end Keyring.Base64
