import Keyring.Bytes

/-!
# Tags of encoded values

A tag says what an encoded value is: its class, whether it is made of further
encoded values, and a number within the class.  An element is a tag with its
content.
-/

namespace Keyring.Asn1

/-- The class of a tag. -/
inductive TagClass where
  | universal
  | application
  | context
  | privateUse
  deriving DecidableEq, Repr

/-- A tag. -/
structure Tag where
  tagClass : TagClass
  /-- Whether the content is made of further encoded values. -/
  constructed : Bool
  /-- The number within the class. -/
  number : Nat
  deriving DecidableEq, Repr

/-- The class in the two leading bits of an identifier byte. -/
def TagClass.ofByte (b : UInt8) : TagClass :=
  match b >>> 6 with
  | 0 => .universal
  | 1 => .application
  | 2 => .context
  | _ => .privateUse

namespace Tag

/-- A primitive value of a universal type. -/
def primitive (n : Nat) : Tag := ⟨.universal, false, n⟩

/-- INTEGER. -/
def integer : Tag := primitive 2

/-- BIT STRING. -/
def bitString : Tag := primitive 3

/-- OCTET STRING. -/
def octetString : Tag := primitive 4

/-- NULL. -/
def null : Tag := primitive 5

/-- OBJECT IDENTIFIER. -/
def oid : Tag := primitive 6

/-- SEQUENCE. -/
def sequence : Tag := ⟨.universal, true, 16⟩

/-- SET. -/
def set : Tag := ⟨.universal, true, 17⟩

/-- A context-specific tag around further encoded values. -/
def context (n : Nat) : Tag := ⟨.context, true, n⟩

/-- A context-specific tag in place of that of a primitive value. -/
def implicit (n : Nat) : Tag := ⟨.context, false, n⟩

end Tag

/-- An encoded value. -/
structure Element where
  /-- What it is. -/
  tag : Tag
  content : Bytes
  /-- The whole encoding, tag and length included. -/
  whole : Bytes

end Keyring.Asn1
