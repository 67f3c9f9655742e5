import Keyring.Key.Private
import Keyring.Pem.Block

/-!
# Keys in text blocks

A text may hold several blocks; the label of a block says what key it is to be read
as.  Blocks that do not hold such a key are passed over, but a block that cannot be
decrypted ends the search.  What the search does not find is looked for once more in
the first block with a fitting label.

## Main definitions

* `PrivateKey.ofText` — the private key in a text.
* `PublicKey.ofText` — the public key in a text.
* `PublicKey.rsaOfText` — the key in the first block for bare RSA keys.
-/

namespace Keyring

open Asn1 Asn1.Lenient Pem

/-- What a block of text is found to hold. -/
inductive Reading (α : Type) where
  /-- The key looked for. -/
  | found (key : α)
  /-- Something else. -/
  | passed
  /-- It cannot be decrypted. -/
  | ended

namespace Reading

variable {α : Type}

/-- A key, or something else. -/
def ofOption : Option α → Reading α
  | some k => found k
  | none => passed

/-- A key, or the end of the search. -/
def orEnd : Option α → Reading α
  | some k => found k
  | none => ended

/-- The first key that blocks hold; broken blocks are passed over. -/
def search (f : Block → Reading α) : List (Option Block) → Option α
  | [] => none
  | none :: rest => search f rest
  | some b :: rest =>
    match f b with
    | found k => some k
    | passed => search f rest
    | ended => none

end Reading

/-! ### Private keys -/

namespace PrivateKey

/-- The label of wrapped keys. -/
def label : Bytes := Bytes.ascii "PRIVATE KEY"

/-- The label of encrypted wrapped keys. -/
def protectedLabel : Bytes := Bytes.ascii "ENCRYPTED PRIVATE KEY"

/-- The labels of keys of a known algorithm. -/
def labels : List (Bytes × KeyAlgorithm) :=
  [(Bytes.ascii "RSA PRIVATE KEY", .rsa), (Bytes.ascii "DSA PRIVATE KEY", .dsa),
   (Bytes.ascii "EC PRIVATE KEY", .ec)]

/-- A key, if it is of a given algorithm. -/
def only (a : KeyAlgorithm) (k : PrivateKey) : Option PrivateKey :=
  if k.algorithm? = some a then some k else none

/-- Reads a key of a given algorithm, in its own structure or wrapped. -/
def readAs (a : KeyAlgorithm) (input : Bytes) : Option PrivateKey :=
  (readBare input).bind (only a) <|> (readWrapped input).bind (only a)

/-- Reads a wrapped key, encrypted or not, after decryption of the block. -/
def readEither (password content : Bytes) : Reading PrivateKey :=
  match protectedParts content with
  | some _ => .orEnd (readProtected password content)
  | none => .ofOption (readWrapped content)

/-- What a block holds, by its label. -/
def ofBlock (password : Bytes) (b : Block) : Reading PrivateKey :=
  match Protection.decryptBlock b.header password b.content with
  | none => .ended
  | some content =>
    if b.label = label || b.label = protectedLabel then readEither password content
    else
      match labels.lookup b.label with
      | some a => .ofOption (readAs a content)
      | none => .passed

/-- Whether a block is labelled as a private key. -/
def isLabel (l : Bytes) : Bool :=
  l == label || l == protectedLabel || l == Bytes.ascii "ANY PRIVATE KEY" ||
    (labels.lookup l).isSome

/-- The key in a block labelled as a private key. -/
def ofLabelled (password : Bytes) (b : Block) : Option PrivateKey := do
  let content ← Protection.decryptBlock b.header password b.content
  if b.label = label then readWrapped content
  else if b.label = protectedLabel then readProtected password content
  else readAs (← labels.lookup b.label) content

/-- The private key in a text, under a password. -/
def ofText (password text : Bytes) : Option PrivateKey :=
  let bs := blocksOf text
  Reading.search (ofBlock password) bs <|>
    (firstLabelled isLabel bs).bind (ofLabelled password)

end PrivateKey

/-! ### Public keys -/

namespace PublicKey

/-- The label of keys with their algorithm. -/
def label : Bytes := Bytes.ascii "PUBLIC KEY"

/-- The label of RSA keys in their own structure. -/
def rsaLabel : Bytes := Bytes.ascii "RSA PUBLIC KEY"

/-- Reads an RSA key, in its own structure or with its algorithm. -/
def readRsa (input : Bytes) : Option PublicKey :=
  ((Rsa.PublicKey.read input).map rsa) <|>
    ((PublicKey.read input).bind fun k => if k.algorithm? = some .rsa then some k else none)

/-- What a block holds, by its label.  An encrypted block ends the search. -/
def ofBlock (b : Block) : Reading PublicKey :=
  if !b.header.isEmpty then .ended
  else if b.label = label then .ofOption (read b.content)
  else if b.label = rsaLabel then .ofOption (readRsa b.content)
  else .passed

/-- The content of the first block with a label, if it is not encrypted. -/
def contentOf (isWanted : Bytes → Bool) (text : Bytes) : Option Bytes := do
  let b ← firstLabelled isWanted (blocksOf text)
  if b.header.isEmpty then return b.content else none

/-- The public key in a text. -/
def ofText (text : Bytes) : Option PublicKey :=
  Reading.search ofBlock (blocksOf text) <|> (contentOf (· == label) text).bind read

/-- The key in the first block for RSA keys in their own structure. -/
def rsaOfText (text : Bytes) : Option PublicKey :=
  (contentOf (· == rsaLabel) text).bind fun c => (Rsa.PublicKey.read c).map rsa

end PublicKey

end Keyring
