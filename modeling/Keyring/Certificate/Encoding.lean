import Keyring.Key.Public
import Keyring.Key.Text

/-!
# Certificates

Of a certificate only its public key matters; but what is taken for one has to have
the whole structure: version and serial number, names, times, extensions, a
signature.

## Main definitions

* `X509` — a certificate, `X509.read` its reader.
* `X509.ofText` — the certificate in a text.
-/

namespace Keyring

open Asn1 Asn1.Lenient

/-- A certificate. -/
structure X509 where
  encoding : Bytes
  /-- The certified key, if it is of a known algorithm and well formed. -/
  key : Option PublicKey

namespace X509

/-- The types that names are made of, by their tag: bit strings, texts and sequences,
and all types that are rarely used. -/
def nameTypes : List Nat := [3, 7, 8, 9, 11, 12, 13, 14, 15, 16, 18, 19, 20, 22, 28, 29, 30]

/-- Whether a number stands for a character. -/
def isScalar (n : Nat) : Bool := n < 0xd800 || (0xdfff < n && n < 0x110000)

/-- Whether bytes, `size` of them each, stand for characters; `fuel` bounds their
number. -/
def areScalars (size : Nat) : Nat → Bytes → Bool
  | _, [] => true
  | 0, _ => false
  | fuel + 1, b => isScalar (Bytes.value (b.take size)) && areScalars size fuel (b.drop size)

/-- Whether the content of a text is made of characters. -/
def isText (e : Element) : Bool :=
  match e.tag.number, octets e with
  | 12, some b => (String.fromUTF8? ⟨b.toArray⟩).isSome
  | 28, some b => areScalars 4 b.length b
  | 30, some b => areScalars 2 b.length b
  | 16, _ => true
  | _, some _ => true
  | _, none => false

/-- Whether an element is a part of a name: an identifier and a text. -/
def isNamePart (e : Element) : Bool :=
  sameTag .sequence e.tag &&
    match partsOf e with
    | some [o, text] =>
      sameTag .oid o.tag && (oid? o).isSome && text.tag.tagClass == .universal &&
        nameTypes.contains text.tag.number && isWellFormed text && isText text
    | _ => false

/-- Whether an element is a name: a sequence of sets of parts. -/
def isName (e : Element) : Bool :=
  sameTag .sequence e.tag &&
    match partsOf e with
    | none => false
    | some sets =>
      sets.all fun s =>
        sameTag .set s.tag &&
          match partsOf s with
          | some parts => parts.all isNamePart
          | none => false

/-- Whether an element is a time. -/
def isTime (e : Element) : Bool :=
  e.tag.tagClass == .universal && (e.tag.number == 23 || e.tag.number == 24) && isWellFormed e

/-- Whether an element is a pair of times. -/
def isValidity (e : Element) : Bool :=
  sameTag .sequence e.tag &&
    match partsOf e with
    | some [a, b] => isTime a && isTime b
    | _ => false

/-- Whether an element is a truth value. -/
def isBoolean (e : Element) : Bool :=
  sameTag (.primitive 1) e.tag && isWellFormed e

/-- Whether an element is an extension. -/
def isExtension (e : Element) : Bool :=
  sameTag .sequence e.tag &&
    match partsOf e with
    | some [o, v] =>
      sameTag .oid o.tag && (oid? o).isSome && sameTag .octetString v.tag && (octets v).isSome
    | some [o, c, v] =>
      sameTag .oid o.tag && (oid? o).isSome && isBoolean c && sameTag .octetString v.tag &&
        (octets v).isSome
    | _ => false

/-- Takes a unique identifier, which may be missing. -/
def takeIdentifier (n : Nat) (parts : List Element) : Option (List Element) :=
  match takeOptional (.implicit n) parts with
  | (none, rest) => some rest
  | (some e, rest) => if (bits e).isSome then some rest else none

/-- Takes the extensions, which may be missing. -/
def takeExtensions (parts : List Element) : Option (List Element) := do
  let (e, rest) ← takeExplicit 3 parts
  match e with
  | none => return rest
  | some e =>
    if !sameTag .sequence e.tag then none
    if (← partsOf e).all isExtension then return rest else none

/-- Takes the version number, which may be missing. -/
def takeVersion (parts : List Element) : Option (List Element) := do
  let (e, rest) ← takeExplicit 0 parts
  match e with
  | none => return rest
  | some v =>
    if !sameTag .integer v.tag then none
    let _ ← integer? v
    return rest

/-- The key in the signed part of a certificate; none inside if it is unknown. -/
def readSigned (e : Element) : Option (Option PublicKey) := do
  if !sameTag .sequence e.tag then none
  let parts ← takeVersion (← partsOf e)
  let (serial, parts) ← take .integer parts
  let _ ← integer? serial
  let (_, parts) ← takeAlgorithm parts
  match parts with
  | issuer :: validity :: subject :: key :: parts =>
    if !isName issuer || !isValidity validity || !isName subject then none
    let _ ← PublicKey.readParts key
    let parts ← takeIdentifier 1 parts
    let parts ← takeIdentifier 2 parts
    let parts ← takeExtensions parts
    if !parts.isEmpty then none
    return PublicKey.ofElement key
  | _ => none

/-- An element of a universal type that is not made of others, written anew; all else
as it is. -/
def writeAnew (e : Element) : Option Bytes :=
  -- sequences and sets are made of others
  if e.tag.tagClass != .universal || e.tag.number == 16 || e.tag.number == 17 ||
      31 ≤ e.tag.number then
    some e.whole
  else
    let identifier := UInt8.ofNat e.tag.number
    if e.tag.number == 3 then
      (bitsWithUnused e).map fun (unused, b) => Write.element identifier (UInt8.ofNat unused :: b)
    else (octets e).map (Write.element identifier)

/-- Writes an algorithm. -/
def writeAlgorithm (a : Algorithm) : Option Bytes :=
  match a.parameters with
  | none => some (Write.sequence [Write.element 6 a.oid])
  | some p => (writeAnew p).map fun p => Write.sequence [Write.element 6 a.oid, p]

/-- Reads a certificate; what follows it is ignored. -/
def read (input : Bytes) : Option X509 := do
  match ← Lenient.sequence input with
  | [signed, a, signature] =>
    if !sameTag .sequence a.tag || !sameTag .bitString signature.tag then none
    let a ← algorithm? a
    let (unused, content) ← bitsWithUnused signature
    let key ← readSigned signed
    let encoding := Write.sequence
      [signed.whole, ← writeAlgorithm a, Write.element 3 (UInt8.ofNat unused :: content)]
    return ⟨encoding, key⟩
  | _ => none

/-- Whether a block is labelled as a certificate. -/
def isLabel (l : Bytes) : Bool :=
  l == Bytes.ascii "CERTIFICATE" || l == Bytes.ascii "X509 CERTIFICATE"

/-- The first certificate in a text. -/
def ofText (text : Bytes) : Option X509 := (PublicKey.contentOf isLabel text).bind read

end X509

end Keyring
