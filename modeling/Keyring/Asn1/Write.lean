import Keyring.Asn1.Oid

/-!
# Writing encoded values

The distinguished encoding: lengths in their shortest form, integers without
padding.  Each function gives the whole encoding of a value.
-/

namespace Keyring.Asn1.Write

/-- A length in its shortest form. -/
def length (n : Nat) : Bytes :=
  if n < 128 then [UInt8.ofNat n]
  else UInt8.ofNat (128 + byteLength n) :: Bytes.minimal n

/-- An element under an identifier byte. -/
def element (identifier : UInt8) (content : Bytes) : Bytes :=
  identifier :: length content.length ++ content

/-- The content of an integer that is not negative. -/
def unsignedContent (n : Nat) : Bytes :=
  Bytes.ofNat (bitLength n / 8 + 1) n

/-- The content of an integer, in two's complement. -/
def integerContent : Int → Bytes
  | .ofNat n => unsignedContent n
  | .negSucc n => (unsignedContent n).map (~~~ ·)

/-- INTEGER. -/
def signed (i : Int) : Bytes := element 0x02 (integerContent i)

/-- INTEGER, not negative. -/
def integer (n : Nat) : Bytes := element 0x02 (unsignedContent n)

/-- BIT STRING of whole bytes. -/
def bitString (b : Bytes) : Bytes := element 0x03 (0 :: b)

/-- OCTET STRING. -/
def octetString (b : Bytes) : Bytes := element 0x04 b

/-- NULL. -/
def null : Bytes := element 0x05 []

/-- OBJECT IDENTIFIER. -/
def oid (o : Oid) : Bytes := element 0x06 o.content

/-- SEQUENCE of encoded values. -/
def sequence (parts : List Bytes) : Bytes := element 0x30 parts.flatten

/-- An encoded value inside a context-specific tag. -/
def context (n : Nat) (inner : Bytes) : Bytes := element (UInt8.ofNat (0xa0 + n)) inner

end Keyring.Asn1.Write
