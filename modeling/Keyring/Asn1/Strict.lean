import Keyring.Asn1.Oid
import Keyring.Asn1.Tag

/-!
# The distinguished encoding rules, read strictly

Every value has exactly one encoding: the shortest form of tag and length, no
indefinite lengths, no padding in integers.  What follows the rules is read, all
else is refused.

## Main definitions

* `readElement` — the first element of a byte string and what follows it.
* `single` — the one element of a byte string, and `singleOf`, of a known tag.
* `bitString?`, `unsigned?`, `oid?` — the values of the types that occur.
-/

namespace Keyring.Asn1.Strict

/-- Reads the number of a tag in base 128: minimal digits, below `2 ^ 32`. -/
def readTagNumber (v : Nat) (first : Bool) : Bytes → Option (Nat × Bytes)
  | [] => none
  | b :: rest =>
    if first && b == 0x80 then none
    else
      let v := v * 128 + (b &&& 0x7f).toNat
      if twoTo 32 ≤ v then none
      else if b < 0x80 then some (v, rest)
      else readTagNumber v false rest

/-- Reads a tag; a number from 31 on has the long form, and only such a number. -/
def readTag : Bytes → Option (Tag × Bytes)
  | [] => none
  | b :: rest =>
    let tag : Tag := ⟨.ofByte b, b &&& 0x20 != 0, (b &&& 0x1f).toNat⟩
    if tag.number = 31 then
      match readTagNumber 0 true rest with
      | some (n, rest) => if n < 31 then none else some ({ tag with number := n }, rest)
      | none => none
    else some (tag, rest)

/-- Reads a length in its shortest form, of at most four bytes. -/
def readLength : Bytes → Option (Nat × Bytes)
  | [] => none
  | b :: rest =>
    if b < 0x80 then some (b.toNat, rest)
    else
      let n := (b &&& 0x7f).toNat
      let digits := rest.take n
      if n = 0 || 4 < n || digits.length < n then none
      else if digits.head? == some 0 || Bytes.value digits < 0x80 then none
      else some (Bytes.value digits, rest.drop n)

/-- Reads one element. -/
def readElement (input : Bytes) : Option (Element × Bytes) := do
  let (tag, rest) ← readTag input
  let (n, rest) ← readLength rest
  if rest.length < n then none
  let after := rest.drop n
  return (⟨tag, rest.take n, input.take (input.length - after.length)⟩, after)

/-- The one element that a byte string consists of. -/
def single (input : Bytes) : Option Element :=
  match readElement input with
  | some (e, []) => some e
  | _ => none

/-- The content of the one element that a byte string consists of, if it has a
given tag. -/
def singleOf (tag : Tag) (input : Bytes) : Option Bytes := do
  let e ← single input
  if e.tag = tag then some e.content else none

/-- The content of the first element, if it has a given tag, and what follows. -/
def next (tag : Tag) (input : Bytes) : Option (Bytes × Bytes) := do
  let (e, rest) ← readElement input
  if e.tag = tag then some (e.content, rest) else none

/-- The bytes of a bit string: at most seven bits of the last byte are unused,
and those are zero. -/
def bitString? : Bytes → Option Bytes
  | [] => none
  | unused :: bytes =>
    match bytes.getLast? with
    | none => if unused = 0 then some [] else none
    | some last =>
      if 7 < unused || last &&& ((1 <<< unused) - 1) != 0 then none else some bytes

/-- The bytes of an integer that is not negative, in its shortest form. -/
def unsigned? : Bytes → Option Bytes
  | [] => none
  | [b] => if b < 0x80 then some [b] else none
  | a :: b :: rest =>
    if 0x80 ≤ a || (a == 0 && b < 0x80) then none else some (a :: b :: rest)

/-- The object identifier that a byte string encodes. -/
def oid? (input : Bytes) : Option Oid := (singleOf .oid input).bind Oid.ofContent?

end Keyring.Asn1.Strict
