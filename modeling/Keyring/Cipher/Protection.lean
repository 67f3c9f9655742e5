import Keyring.Asn1.Lenient
import Keyring.Cipher.Cbc
import Keyring.Kdf.Chained
import Keyring.Kdf.Container
import Keyring.Kdf.Scrypt

/-!
# Protection by passwords

An algorithm identifier in front of a text says how the key is derived from the
password and which cipher the text is under.

## Main definitions

* `Scheme` — the ways of protection, `Scheme.read` their reader.
* `Scheme.decrypt` — the text under a password.
-/

namespace Keyring.Protection

open Asn1 Asn1.Lenient

/-- A password, or none at all: containers tell that from an empty one. -/
abbrev Password := Option Bytes

/-- The bytes of a password. -/
def bytesOf (p : Password) : Bytes := p.getD []

/-- The password in the form container keys are derived from. -/
def wideOf (p : Password) : Bytes := p.elim [] Kdf.wideText

/-- A derivation of a key of a given size from a password. -/
inductive Derivation where
  | pbkdf2 (hash : HashAlgorithm) (salt : Bytes) (iterations : Nat)
  | scrypt (salt : Bytes) (cost : Kdf.ScryptCost)

/-- The key of a derivation. -/
def Derivation.key (d : Derivation) (p : Password) (size : Nat) : Bytes :=
  match d with
  | pbkdf2 hash salt iterations => Kdf.pbkdf2 hash (bytesOf p) salt iterations size
  | scrypt salt cost => Kdf.scrypt (bytesOf p) salt cost size

/-- A way of protection. -/
inductive Scheme where
  /-- Key derivation and cipher are given apart. -/
  | composed (derivation : Derivation) (cipher : Cipher) (iv : Bytes)
  /-- Key and first block are derived together, as containers do. -/
  | container (cipher : Cipher) (salt : Bytes) (iterations : Nat)

/-! ### Identifiers -/

/-- Key derivation and cipher given apart. -/
def composedOid : Oid := [1, 2, 840, 113549, 1, 5, 13]

/-- Key derivation by iterated keyed hashing. -/
def pbkdf2Oid : Oid := [1, 2, 840, 113549, 1, 5, 12]

/-- Key derivation by the function that needs memory. -/
def scryptOid : Oid := [1, 3, 6, 1, 4, 1, 11591, 4, 11]

/-- The keyed hashes of a derivation. -/
def keyedHashes : List (Oid × HashAlgorithm) :=
  [([1, 2, 840, 113549, 2, 6], .md5), ([1, 2, 840, 113549, 2, 7], .sha1),
   ([1, 2, 840, 113549, 2, 8], .sha224), ([1, 2, 840, 113549, 2, 9], .sha256),
   ([1, 2, 840, 113549, 2, 10], .sha384), ([1, 2, 840, 113549, 2, 11], .sha512)]

/-- The ciphers. -/
def ciphers : List (Oid × Cipher) :=
  [([2, 16, 840, 1, 101, 3, 4, 1, 2], .aes128), ([2, 16, 840, 1, 101, 3, 4, 1, 22], .aes192),
   ([2, 16, 840, 1, 101, 3, 4, 1, 42], .aes256), ([1, 2, 840, 113549, 3, 7], .tripleDes)]

/-- The ways in which key and first block are derived together. -/
def containerCiphers : List (Oid × Cipher) :=
  [([1, 2, 840, 113549, 1, 12, 1, 3], .tripleDes), ([1, 2, 840, 113549, 1, 12, 1, 4], .doubleDes)]

/-- What a table has for an algorithm. -/
def choose {α : Type} (table : List (Oid × α)) (a : Algorithm) : Option α :=
  (table.find? fun (o, _) => a.is o).map (·.2)

/-! ### Reading -/

/-- The parameters of an algorithm, a sequence. -/
def parametersOf (a : Algorithm) : Option (List Element) := do
  let e ← a.parameters
  if sameTag .sequence e.tag then partsOf e else none

/-- A number that is not negative. -/
def count? (e : Element) : Option Nat := do
  let v ← integer? e
  if v < 0 || 0x8000000000000000 ≤ v then none else some v.toNat

/-- The next child as an optional key size, which has to be the one wanted. -/
def takeSize (wanted : Nat) (parts : List Element) : Option (List Element) :=
  match takeOptional .integer parts with
  | (none, rest) => some rest
  | (some e, rest) => do if (← count? e) = wanted then some rest else none

/-- Reads the parameters of iterated keyed hashing. -/
def readPbkdf2 (size : Nat) (parts : List Element) : Option Derivation := do
  let (salt, parts) ← take .octetString parts
  let (iterations, parts) ← take .integer parts
  let iterations ← count? iterations
  let parts ← takeSize size parts
  let hash ← match parts with
    | [] => some .sha1
    | [e] => if sameTag .sequence e.tag then (algorithm? e).bind (choose keyedHashes) else none
    | _ => none
  if iterations = 0 then none
  return .pbkdf2 hash (← octets salt) iterations

/-- Reads the parameters of the function that needs memory. -/
def readScrypt (size : Nat) (parts : List Element) : Option Derivation := do
  let (salt, parts) ← take .octetString parts
  let (n, parts) ← take .integer parts
  let (r, parts) ← take .integer parts
  let (p, parts) ← take .integer parts
  let parts ← takeSize size parts
  let cost : Kdf.ScryptCost := ⟨← count? n, ← count? r, ← count? p⟩
  if !parts.isEmpty || !cost.isValid then none
  return .scrypt (← octets salt) cost

/-- Reads a derivation of a key of `size` bytes. -/
def readDerivation (size : Nat) (a : Algorithm) : Option Derivation := do
  let parts ← parametersOf a
  if a.is pbkdf2Oid then readPbkdf2 size parts
  else if a.is scryptOid then readScrypt size parts
  else none

/-- Reads a scheme with key derivation and cipher apart. -/
def readComposed (parts : List Element) : Option Scheme := do
  let (derivation, parts) ← takeAlgorithm parts
  let (encryption, parts) ← takeAlgorithm parts
  if !parts.isEmpty then none
  let cipher ← choose ciphers encryption
  let iv ← encryption.parameters
  if !sameTag .octetString iv.tag then none
  let iv ← octets iv
  if iv.length ≠ cipher.blockSize then none
  return .composed (← readDerivation cipher.keySize derivation) cipher iv

/-- Reads a way of protection. -/
def Scheme.read (a : Algorithm) : Option Scheme := do
  let parts ← parametersOf a
  if a.is composedOid then readComposed parts
  else
    let cipher ← choose containerCiphers a
    match parts with
    | [salt, iterations] =>
      if !sameTag .octetString salt.tag || !sameTag .integer iterations.tag then none
      return .container cipher (← octets salt) (← count? iterations)
    | _ => none

/-! ### Decrypting -/

/-- The text under a password. -/
def Scheme.decrypt (s : Scheme) (p : Password) (text : Bytes) : Option Bytes :=
  match s with
  | composed derivation cipher iv => cipher.decrypt (derivation.key p cipher.keySize) iv text
  | container cipher salt iterations =>
    let key := Kdf.containerKey .sha1 (wideOf p) salt .encryption iterations cipher.keySize
    let iv := Kdf.containerKey .sha1 (wideOf p) salt .initialBlock iterations cipher.blockSize
    cipher.decrypt key iv text

/-- The text that an algorithm identifier says to be under a password. -/
def decrypt (a : Algorithm) (p : Password) (text : Bytes) : Option Bytes :=
  (Scheme.read a).bind fun s => s.decrypt p text

/-! ### Headers of text blocks -/

/-- The names of ciphers in headers. -/
def named : List (String × Cipher) :=
  [("AES-128-CBC", .aes128), ("AES-192-CBC", .aes192), ("AES-256-CBC", .aes256),
   ("DES-EDE3-CBC", .tripleDes), ("DES-EDE-CBC", .doubleDes), ("AES128", .aes128),
   ("AES192", .aes192), ("AES256", .aes256), ("DES3", .tripleDes)]

/-- A byte with a small letter made large. -/
def upper (b : UInt8) : UInt8 := if 97 ≤ b ∧ b ≤ 122 then b - 32 else b

/-- The cipher of a name. -/
def ofName? (name : Bytes) : Option Cipher :=
  (named.find? fun (n, _) => Bytes.ascii n == name.map upper).map (·.2)

/-- Whether a byte is a space or a tabulator. -/
def isSpace (b : UInt8) : Bool := b == 32 || b == 9

/-- What follows a word at the start of a text. -/
def after? (word : String) (text : Bytes) : Option Bytes :=
  let w := Bytes.ascii word
  if w.isPrefixOf text then some (text.drop w.length) else none

/-- The value of a hexadecimal digit. -/
def nibble? (b : UInt8) : Option UInt8 :=
  let b := upper b
  if 48 ≤ b ∧ b ≤ 57 then some (b - 48) else if 65 ≤ b ∧ b ≤ 70 then some (b - 55) else none

/-- The first `n` bytes written in hexadecimal digits. -/
def hexBytes? : Nat → Bytes → Option Bytes
  | 0, _ => some []
  | n + 1, a :: b :: rest => do
    let byte := (← nibble? a) * 16 + (← nibble? b)
    return byte :: (← hexBytes? n rest)
  | _ + 1, _ => none

/-- Cipher and first block that a header names. -/
def readHeader (lines : List Bytes) : Option (Cipher × Bytes) := do
  match lines with
  | kind :: info :: _ =>
    let kind ← after? "Proc-Type:" kind
    let kind ← after? "4," (kind.dropWhile isSpace)
    let kind ← after? "ENCRYPTED" (kind.dropWhile isSpace)
    if !kind.all isSpace then none
    let info ← after? "DEK-Info:" info
    let info := info.dropWhile isSpace
    -- the name goes up to a blank or a comma
    let name := info.takeWhile fun b => !isSpace b && b != 44
    let cipher ← ofName? name
    let digits ← after? "," ((info.drop name.length).dropWhile isSpace)
    return (cipher, ← hexBytes? cipher.blockSize digits)
  | _ => none

/-- The content of a text block under a password: without a header it is not
encrypted at all. -/
def decryptBlock (header : List Bytes) (password content : Bytes) : Option Bytes :=
  if header.isEmpty then some content
  else do
    let (cipher, iv) ← readHeader header
    let key := Kdf.chained .md5 password (iv.take 8) cipher.keySize
    cipher.decrypt key iv content

end Keyring.Protection
