import Keyring.Asn1.Oid
import Keyring.Asn1.Tag

/-!
# The basic encoding rules, read leniently

Keys and containers in circulation do not all keep to the distinguished rules.
This reader takes any length form, indefinite lengths included, strings in
pieces, and whatever follows the first element.

## Main definitions

* `readElement` — the first element of a byte string and what follows it.
* `children` — the elements that a content consists of.
* `take`, `takeOptional`, `takeExplicit` — the next child, by its tag.
* `octets`, `bits`, `integer?`, `unsigned?`, `small?`, `oid?` — the values of the
  types that occur; `unsigned?` reads any content as a number without sign.
-/

namespace Keyring.Asn1.Lenient

/-- Reads the number of a tag in base 128, below `2 ^ 31`. -/
def readTagNumber (v : Nat) : Bytes → Option (Nat × Bytes)
  | [] => none
  | b :: rest =>
    let v' := v * 128 + (b &&& 0x7f).toNat
    if b < 0x80 then some (v', rest)
    else if 0x1000000 ≤ v' then none
    else readTagNumber v' rest

/-- Reads a tag. -/
def readTag : Bytes → Option (Tag × Bytes)
  | [] => none
  | b :: rest =>
    let tag : Tag := ⟨.ofByte b, b &&& 0x20 != 0, (b &&& 0x1f).toNat⟩
    if tag.number = 31 then
      (readTagNumber 0 rest).map fun (n, rest) => ({ tag with number := n }, rest)
    else some (tag, rest)

/-- Reads a length: a number, or nothing if it is indefinite. -/
def readLength : Bytes → Option (Option Nat × Bytes)
  | [] => none
  | b :: rest =>
    if b < 0x80 then some (some b.toNat, rest)
    else
      let n := (b &&& 0x7f).toNat
      -- an indefinite length: the content has an end mark
      if n = 0 then some (none, rest)
      else
        let digits := rest.take n
        -- lengths are signed 64-bit numbers
        if digits.length < n || twoTo 63 ≤ Bytes.value digits then none
        else some (some (Bytes.value digits), rest.drop n)

/-- Reads tag and length; only a constructed value may have an indefinite length. -/
def readHeader (input : Bytes) : Option (Tag × Option Nat × Bytes) := do
  let (tag, rest) ← readTag input
  let (n, rest) ← readLength rest
  if n.isNone && !tag.constructed then none
  return (tag, n, rest)

/-- What follows the end mark of a content of indefinite length, `depth` such
contents being open; `fuel` bounds the number of headers looked at. -/
def afterEnd : Nat → Nat → Bytes → Option Bytes
  | 0, _, _ => none
  | fuel + 1, depth, input =>
    match input with
    -- an end mark closes the innermost open content
    | 0 :: 0 :: rest => if depth ≤ 1 then some rest else afterEnd fuel (depth - 1) rest
    | _ =>
      match readHeader input with
      | none => none
      | some (_, none, rest) => afterEnd fuel (depth + 1) rest
      | some (_, some n, rest) =>
        if rest.length < n then none else afterEnd fuel depth (rest.drop n)

/-- Reads one element. -/
def readElement (input : Bytes) : Option (Element × Bytes) := do
  let (tag, n, rest) ← readHeader input
  match n with
  | some n =>
    if rest.length < n then none
    let after := rest.drop n
    return (⟨tag, rest.take n, input.take (input.length - after.length)⟩, after)
  | none =>
    let after ← afterEnd rest.length 1 rest
    return (⟨tag, rest.take (rest.length - after.length - 2),
      input.take (input.length - after.length)⟩, after)

/-- The elements that a content consists of, at most `fuel` of them. -/
def childrenUpTo : Nat → Bytes → Option (List Element)
  | _, [] => some []
  | 0, _ => none
  | fuel + 1, input => do
    let (e, rest) ← readElement input
    let more ← childrenUpTo fuel rest
    return e :: more

/-- The elements that a content consists of. -/
def children (content : Bytes) : Option (List Element) := childrenUpTo content.length content

/-- Whether an element has a tag, whatever its form of construction. -/
def sameTag (wanted found : Tag) : Bool :=
  wanted.tagClass == found.tagClass && wanted.number == found.number

/-- The first element of a byte string, if it has a tag; the rest is ignored. -/
def first (tag : Tag) (input : Bytes) : Option Element := do
  let (e, _) ← readElement input
  if sameTag tag e.tag then some e else none

/-- The children of a constructed element. -/
def partsOf (e : Element) : Option (List Element) :=
  if e.tag.constructed then children e.content else none

/-- The children of the sequence that a byte string begins with. -/
def sequence (input : Bytes) : Option (List Element) := do
  partsOf (← first .sequence input)

/-- The next child, if it has a tag. -/
def take (tag : Tag) : List Element → Option (Element × List Element)
  | e :: rest => if sameTag tag e.tag then some (e, rest) else none
  | [] => none

/-- The next child if it has a tag, otherwise nothing is taken. -/
def takeOptional (tag : Tag) : List Element → Option Element × List Element
  | e :: rest => if sameTag tag e.tag then (some e, rest) else (none, e :: rest)
  | [] => (none, [])

/-- The one child of an element. -/
def onlyPart (e : Element) : Option Element := do
  match ← partsOf e with
  | [inner] => some inner
  | _ => none

/-- The next child if it has a context-specific tag: the element inside it. -/
def takeExplicit (n : Nat) (parts : List Element) : Option (Option Element × List Element) :=
  match takeOptional (.context n) parts with
  | (none, rest) => some (none, rest)
  | (some e, rest) => (onlyPart e).map fun inner => (some inner, rest)

/-- Joins the pieces of a string, nested at most `depth` deep. -/
def collect : Nat → List Element → Option Bytes
  | _, [] => some []
  | 0, _ => none
  | depth + 1, e :: rest => do
    let piece ←
      if e.tag.constructed then
        match children e.content with
        | some parts => collect depth parts
        | none => none
      else some e.content
    let more ← collect (depth + 1) rest
    return piece ++ more

/-- The content of a string, joined if it comes in pieces. -/
def octets (e : Element) : Option Bytes :=
  if e.tag.constructed then (children e.content).bind (collect 6) else some e.content

/-- The bytes of a bit string with the number of unused bits, which are cleared. -/
def bitsWithUnused (e : Element) : Option (Nat × Bytes) := do
  match ← octets e with
  | [] => none
  | unused :: bytes =>
    if 7 < unused then none
    else
      match bytes.getLast? with
      | none => some (0, [])
      | some last => some (unused.toNat, bytes.dropLast ++ [last &&& (0xff <<< unused)])

/-- The bytes of a bit string. -/
def bits (e : Element) : Option Bytes := (bitsWithUnused e).map (·.2)

/-- Whether the content of an integer is empty or padded. -/
def isPadded : Bytes → Bool
  | [] => true
  | [_] => false
  | a :: b :: _ => (a == 0 && b < 0x80) || (a == 0xff && 0x80 ≤ b)

/-- The value of an integer in its shortest form. -/
def integer? (e : Element) : Option Int :=
  if e.tag.constructed || isPadded e.content then none
  else
    let v := Int.ofNat (Bytes.value e.content)
    if 0x80 ≤ e.content.headD 0 then some (v - Int.ofNat (twoTo (8 * e.content.length)))
    else some v

/-- The content of an integer read as a number without sign, padded or not. -/
def unsigned? (e : Element) : Option Nat :=
  if e.tag.constructed then none else some (Bytes.value e.content)

/-- An integer that fits 32 bits; an empty content counts as zero. -/
def small? (e : Element) : Option Int := do
  if e.tag.constructed then none
  if e.content.isEmpty then return 0
  let v ← integer? e
  if -0x80000000 ≤ v && v < 0x80000000 then some v else none

/-- Whether a content is that of an object identifier: complete numbers, none
starting with an empty digit. -/
def isOidContent (fresh : Bool) : Bytes → Bool
  | [] => fresh
  | b :: rest => !(fresh && b == 0x80) && isOidContent (b < 0x80) rest

/-- The content of an object identifier. -/
def oid? (e : Element) : Option Bytes :=
  if e.tag.constructed || e.content.isEmpty || !isOidContent true e.content then none
  else some e.content

/-- An algorithm: its identifier's content and its parameters, if there are any. -/
structure Algorithm where
  /-- The content of the object identifier. -/
  oid : Bytes
  parameters : Option Element

/-- Whether the algorithm is that of an identifier. -/
def Algorithm.is (a : Algorithm) (o : Oid) : Bool := a.oid == o.content

/-- Whether an element of a universal type has a content of that type.  Times are only
looked at for their least length, texts for whole units. -/
def isWellFormed (e : Element) : Bool :=
  if e.tag.tagClass != .universal then true
  else
    match e.tag.number with
    | 1 => !e.tag.constructed && e.content.length == 1
    | 2 | 10 => !e.tag.constructed && !isPadded e.content
    | 3 => (bits e).isSome
    | 5 => !e.tag.constructed && e.content.isEmpty
    | 6 => (oid? e).isSome
    | 16 | 17 => e.tag.constructed
    | 23 => (octets e).any fun b => 13 ≤ b.length
    | 24 => (octets e).any fun b => 15 ≤ b.length
    | 28 => (octets e).any fun b => b.length % 4 == 0
    | 30 => (octets e).any fun b => b.length % 2 == 0
    | _ => (octets e).isSome

/-- Whether an element is an attribute: an identifier and a set of values. -/
def isAttribute (e : Element) : Bool :=
  sameTag .sequence e.tag &&
    match partsOf e with
    | some [o, vs] =>
      sameTag .oid o.tag && (oid? o).isSome && sameTag .set vs.tag &&
        ((partsOf vs).any fun values => values.all isWellFormed)
    | _ => false

/-- Reads an algorithm. -/
def algorithm? (e : Element) : Option Algorithm := do
  match ← partsOf e with
  | [o] => if sameTag .oid o.tag then return ⟨← oid? o, none⟩ else none
  | [o, p] =>
    if !sameTag .oid o.tag || !isWellFormed p then none
    return ⟨← oid? o, some p⟩
  | _ => none

/-- The next child as an algorithm. -/
def takeAlgorithm (parts : List Element) : Option (Algorithm × List Element) := do
  let (e, rest) ← take .sequence parts
  return (← algorithm? e, rest)

end Keyring.Asn1.Lenient
