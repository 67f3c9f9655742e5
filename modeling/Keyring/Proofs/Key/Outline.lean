import Keyring.Proofs.Asn1.Lenient
import Keyring.Proofs.Key.Provenance

/-!
# Encodings are told apart by their outlines

Keys and certificates come as sequences without a mark of what they are.  A parser that does not
know what it is given tries one decoder after the other, so everything rests on no decoder taking
what is meant for another.  What keeps them apart is the outline of an encoding: of what kind the
first few elements in the outermost sequence are.

Two or three kinds settle it.  A key with its algorithm is a sequence and a bit string, a
certificate has two sequences before its bit string, a bare RSA key is two numbers and nothing
else, an encrypted key ends with an octet string.  Private keys start with a version, and what
comes next tells the structures apart.  No outline is a text either: a sequence starts with a byte
that is neither a blank nor a hyphen.

## Main definitions

* `Outline` — the outlines, `Outline.Begins` the byte strings that begin with one.
* `Provider.KeepsOutlines` — every decoder takes its own outline only.

## Main results

* `Outline.eq_of_begins` — **no byte string has two outlines.**
* `Outline.isText_of_begins` — what has an outline is no text.
* `findPublic_of_publicKey`, `findPublic_of_rsaPublicKey`, `findPublic_of_certificate`,
  `findCertificate_of_certificate`, `findPrivate_of_privateKey` — **what one decoder takes is what
  is found.**
-/

namespace Keyring

open Asn1 Asn1.Lenient

/-- What kind of a value a tag is for, however the value is constructed. -/
def Asn1.Tag.kind (t : Tag) : TagClass × Nat := (t.tagClass, t.number)

theorem Asn1.Tag.kind_of_sameTag {w t : Tag} (h : sameTag w t = true) : t.kind = w.kind := by
  simp only [sameTag, Bool.and_eq_true, beq_iff_eq] at h
  rw [Tag.kind, Tag.kind, h.1, h.2]

/-- What an encoding is of, as far as its outermost structure shows. -/
inductive Outline where
  /-- A public key with its algorithm. -/
  | publicKey
  /-- An RSA key in its own structure. -/
  | rsaPublicKey
  | certificate
  /-- A private key that is not encrypted, wrapped or in the structure of its algorithm. -/
  | privateKey
  /-- An encrypted private key. -/
  | protectedKey
  deriving DecidableEq, Repr

namespace Outline

/-- How a private key can start: with a version and its algorithm, with a version and the number
of an EC key, or with a version and the first of many numbers. -/
def privateKinds : List (List Tag) :=
  [[.integer, .sequence], [.integer, .octetString], [.integer, .integer, .integer]]

/-- Whether the elements of a sequence, which are of some kinds, have an outline. -/
def fits (kinds : List (TagClass × Nat)) : Outline → Bool
  | publicKey => kinds == [Tag.sequence, .bitString].map Tag.kind
  | rsaPublicKey => kinds == [Tag.integer, .integer].map Tag.kind
  | certificate => kinds == [Tag.sequence, .sequence, .bitString].map Tag.kind
  | privateKey => privateKinds.any fun start => (start.map Tag.kind).isPrefixOf kinds
  | protectedKey => kinds == [Tag.sequence, .octetString].map Tag.kind

/-- A byte string begins with a sequence of an outline. -/
def Begins (o : Outline) (b : Bytes) : Prop :=
  ∃ parts, Lenient.sequence b = some parts ∧ o.fits (parts.map (·.tag.kind)) = true

variable {o o' : Outline} {b : Bytes} {parts : List Element} {kinds : List (TagClass × Nat)}

/-! ### No two outlines -/

/-- The elements are known but for those of a private key. -/
theorem eq_of_fits_of_ne (hne : o ≠ privateKey) (h : o.fits kinds = true)
    (h' : o'.fits kinds = true) : o = o' := by
  cases o with
  | privateKey => exact absurd rfl hne
  | publicKey | rsaPublicKey | certificate | protectedKey =>
    -- the kinds are given in full, so the other outline can be tried on them
    obtain rfl := eq_of_beq h
    cases o' with
    | publicKey | rsaPublicKey | certificate | privateKey | protectedKey =>
      revert h'
      decide

/-- **No byte string has two outlines.** -/
theorem eq_of_begins (h : o.Begins b) (h' : o'.Begins b) : o = o' := by
  obtain ⟨parts, hparts, hfits⟩ := h
  obtain ⟨parts', hparts', hfits'⟩ := h'
  cases hparts.symm.trans hparts'
  -- private keys alone have outlines of more than one shape
  by_cases hne : o = privateKey
  · by_cases hne' : o' = privateKey
    · rw [hne, hne']
    · exact (eq_of_fits_of_ne hne' hfits' hfits).symm
  · exact eq_of_fits_of_ne hne hfits hfits'

/-! ### No text -/

/-- The number of a tag is in its first byte, unless that says that more bytes follow. -/
theorem number_of_readTag {x : UInt8} {rest rest' : Bytes} {t : Tag}
    (h : readTag (x :: rest) = some (t, rest')) :
    t.number = (x &&& 0x1f).toNat ∨ (x &&& 0x1f).toNat = 31 := by
  dsimp only [readTag] at h
  split at h
  · next hmore => exact .inr hmore
  · cases h
    exact .inl rfl

/-- A sequence does not start with a hyphen, nor with a blank. -/
theorem isText_of_sequence (h : Lenient.sequence b = some parts) : Pem.isText b = false := by
  obtain ⟨e, hfirst, -⟩ := Option.bind_eq_some_iff.mp h
  obtain ⟨⟨e', rest⟩, helement, htag⟩ := Option.bind_eq_some_iff.mp hfirst
  obtain ⟨rest', hread⟩ := exists_readTag helement
  -- the number of a sequence is 16, and no blank has it in its last five bits
  have hsequence : e'.tag.number = 16 := by
    dsimp only at htag
    split at htag
    · next hsame => exact congrArg Prod.snd (Tag.kind_of_sameTag hsame)
    · cases htag
  cases b with
  | nil => cases hread
  | cons x b =>
    have hfirst := number_of_readTag hread
    rw [hsequence] at hfirst
    have hblank : Pem.isLeadingBlank x = false := by
      rw [Bool.eq_false_iff]
      intro hx
      simp only [Pem.isLeadingBlank, Bool.or_eq_true, beq_iff_eq] at hx
      rcases hx with (((rfl | rfl) | rfl) | rfl) | rfl <;> revert hfirst <;> decide
    -- nor does a hyphen
    have hhyphen : x ≠ 45 := by
      rintro rfl
      revert hfirst
      decide
    rw [Pem.isText, List.dropWhile_cons_of_neg (by rw [hblank]; exact Bool.false_ne_true)]
    exact Bool.and_eq_false_imp.mpr fun heq => absurd (eq_of_beq heq).symm hhyphen

/-- What has an outline is no text. -/
theorem isText_of_begins (h : o.Begins b) : Pem.isText b = false := by
  obtain ⟨parts, hparts, -⟩ := h
  exact isText_of_sequence hparts

end Outline

/-- Every decoder takes only what begins with its own outline. -/
structure Provider.KeepsOutlines (P : Provider) : Prop where
  publicKey : ∀ b k, P.publicKey b = some k → Outline.publicKey.Begins b
  rsaPublicKey : ∀ b k, P.rsaPublicKey b = some k → Outline.rsaPublicKey.Begins b
  certificate : ∀ b c, P.certificate b = some c → Outline.certificate.Begins b
  privateKey : ∀ b k, P.privateKey b = some k → Outline.privateKey.Begins b
  protectedKey : ∀ password b k, P.protectedPrivateKey password b = some k →
    Outline.protectedKey.Begins b

/-! ### No two decoders -/

section Find

variable {P : Provider} {o : Outline} {b : Bytes} (hP : P.KeepsOutlines)

include hP

/-- A decoder of another outline takes nothing of it. -/
theorem publicKey_eq_none (h : o.Begins b) (hne : o ≠ .publicKey) : P.publicKey b = none := by
  rw [Option.eq_none_iff_forall_ne_some]
  intro k hk
  exact hne (Outline.eq_of_begins h (hP.publicKey b k hk))

theorem rsaPublicKey_eq_none (h : o.Begins b) (hne : o ≠ .rsaPublicKey) :
    P.rsaPublicKey b = none := by
  rw [Option.eq_none_iff_forall_ne_some]
  intro k hk
  exact hne (Outline.eq_of_begins h (hP.rsaPublicKey b k hk))

theorem protectedPrivateKey_eq_none (h : o.Begins b) (hne : o ≠ .protectedKey)
    (password : Bytes) : P.protectedPrivateKey password b = none := by
  rw [Option.eq_none_iff_forall_ne_some]
  intro k hk
  exact hne (Outline.eq_of_begins h (hP.protectedKey password b k hk))

/-- What one decoder takes, no other one does, and it is no text. -/
theorem findPublic_of_publicKey {k : PublicKey} (h : P.publicKey b = some k) :
    findPublic P b = some k := by
  have htext := Outline.isText_of_begins (hP.publicKey b k h)
  rw [findPublic, htext, if_neg Bool.false_ne_true, h]
  rfl

theorem findPublic_of_rsaPublicKey {k : PublicKey} (h : P.rsaPublicKey b = some k) :
    findPublic P b = some k := by
  have hbegins := hP.rsaPublicKey b k h
  rw [findPublic, Outline.isText_of_begins hbegins, if_neg Bool.false_ne_true,
    publicKey_eq_none hP hbegins (by decide), h]
  rfl

theorem findPublic_of_certificate {c : X509} (h : P.certificate b = some c) :
    findPublic P b = c.key := by
  -- the two decoders before it do not take what begins like a certificate
  have hbegins := hP.certificate b c h
  rw [findPublic, Outline.isText_of_begins hbegins, if_neg Bool.false_ne_true,
    publicKey_eq_none hP hbegins (by decide), rsaPublicKey_eq_none hP hbegins (by decide), h]
  rfl

theorem findCertificate_of_certificate {c : X509} (h : P.certificate b = some c) :
    findCertificate P b = some c := by
  have htext := Outline.isText_of_begins (hP.certificate b c h)
  rw [findCertificate, htext, if_neg Bool.false_ne_true, h]

/-- A private key that is not encrypted is found whatever the password. -/
theorem findPrivate_of_privateKey {k : PrivateKey} (h : P.privateKey b = some k)
    (password : Bytes) : findPrivate P b password = some k := by
  have hbegins := hP.privateKey b k h
  rw [findPrivate, Outline.isText_of_begins hbegins, if_neg Bool.false_ne_true,
    protectedPrivateKey_eq_none hP hbegins (by decide), h]
  rfl

end Find

end Keyring
