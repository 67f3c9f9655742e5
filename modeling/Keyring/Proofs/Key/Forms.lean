import Keyring.Proofs.Key.Outline
import Keyring.Proofs.Pem.Block

/-!
# The forms in which public keys come

A public key comes with its algorithm, as a bare RSA key, or in a certificate.  Each of these
comes as it is or in a block of text, and more bytes may follow it.  Whatever the form, the key is
found, if the decoders look at what they are given from its beginning and no further.

## Main definitions

* `Provider.Encodes` — a byte string is an encoding of a key.
* `Outline.Presents` — an input presents an encoding.
* `Provider.ReadsFirst` — decoders look at nothing but the first element.
* `Provider.ReadsBlocks` — blocks are read as their content, by their label.
* `Provider.Takes` — a key is read back from its encodings.

## Main results

* `Provider.Encodes.append` — what follows an encoding does not matter.
* `findPublic_of_presents` — **in whatever form a key comes, it is found.**
-/

namespace Keyring

open Asn1 Asn1.Lenient Pem

/-! ### Encodings and inputs -/

/-- A byte string is taken for an encoding of a public key: with its algorithm, as a bare RSA key,
or in a certificate. -/
inductive Provider.Encodes (P : Provider) (k : PublicKey) : Outline → Bytes → Prop
  | publicKey {b : Bytes} : P.publicKey b = some k → Encodes P k .publicKey b
  | rsaPublicKey {b : Bytes} : P.rsaPublicKey b = some k → Encodes P k .rsaPublicKey b
  | certificate {b : Bytes} {c : X509} : P.certificate b = some c → c.key = some k →
      Encodes P k .certificate b

namespace Outline

/-- The labels of blocks with a public key in them. -/
def labels : Outline → List Bytes
  | publicKey => [PublicKey.label]
  | rsaPublicKey => [PublicKey.rsaLabel]
  | certificate => [Bytes.ascii "CERTIFICATE", Bytes.ascii "X509 CERTIFICATE"]
  | privateKey | protectedKey => []

/-- An input presents an encoding: it begins with the encoding, or it is a block whose content
does, under a label for it. -/
def Presents (o : Outline) (b input : Bytes) : Prop :=
  ∃ rest, input = b ++ rest ∨ ∃ label ∈ o.labels, IsBlock label (b ++ rest) input

theorem presents_append (o : Outline) (b rest : Bytes) : o.Presents b (b ++ rest) :=
  ⟨rest, .inl rfl⟩

theorem presents_self (o : Outline) (b : Bytes) : o.Presents b b :=
  ⟨[], .inl (List.append_nil b).symm⟩

theorem presents_of_isBlock {o : Outline} {label b text : Bytes} (hlabel : label ∈ o.labels)
    (h : IsBlock label b text) : o.Presents b text := by
  rw [← List.append_nil b] at h
  exact ⟨[], .inr ⟨label, hlabel, h⟩⟩

/-- All labels can stand in a boundary line. -/
theorem isLabel_of_mem {o : Outline} {label : Bytes} (h : label ∈ o.labels) : IsLabel label := by
  have hlabels : ∀ o : Outline, ∀ label ∈ o.labels,
      newline ∉ label ∧ 58 ∉ label ∧ label.length ≤ 200 := by
    intro o
    cases o with
    | publicKey | rsaPublicKey | certificate | privateKey | protectedKey => decide
  obtain ⟨hnewline, hcolon, hlength⟩ := hlabels o label h
  exact ⟨hnewline, hcolon, hlength⟩

end Outline

/-! ### Decoders -/

/-- The decoders of public keys look at nothing but the first element. -/
structure Provider.ReadsFirst (P : Provider) : Prop where
  publicKey : ∀ b b', leading b = leading b' → P.publicKey b = P.publicKey b'
  rsaPublicKey : ∀ b b', leading b = leading b' → P.rsaPublicKey b = P.rsaPublicKey b'
  certificate : ∀ b b', leading b = leading b' → P.certificate b = P.certificate b'

/-- The decoders of texts read a block as its content, if the label is one of theirs.  Under the
label for bare RSA keys such a key may be taken from the first decoder already, and so may one
with its algorithm. -/
structure Provider.ReadsBlocks (P : Provider) : Prop where
  publicKey : ∀ b text, IsBlock PublicKey.label b text → P.publicKeyOfText text = P.publicKey b
  rsaPublicKey : ∀ b text, IsBlock PublicKey.rsaLabel b text →
    P.rsaPublicKeyOfText text = P.rsaPublicKey b ∧
    ∀ k, P.publicKeyOfText text = some k → P.rsaPublicKey b = some k ∨ P.publicKey b = some k
  certificate : ∀ label ∈ Outline.certificate.labels, ∀ b text, IsBlock label b text →
    P.certificateOfText text = P.certificate b ∧ P.publicKeyOfText text = none ∧
    P.rsaPublicKeyOfText text = none

/-- The provider writes a key in the one way there is and reads it back, an RSA key also without
its algorithm. -/
structure Provider.Takes (P : Provider) (k : PublicKey) : Prop where
  encode : P.encodePublic k = k.write
  publicKey : ∀ b, k.write = some b → P.publicKey b = some k
  rsaPublicKey : ∀ n, k = .rsa n → P.rsaPublicKey n.write = some k

section

variable {P : Provider} {k : PublicKey} {o : Outline} {b text input : Bytes}
  (hP : P.KeepsOutlines)

include hP

/-- An encoding has its outline. -/
theorem Provider.Encodes.begins (h : P.Encodes k o b) : o.Begins b := by
  cases h with
  | publicKey h => exact hP.publicKey b k h
  | rsaPublicKey h => exact hP.rsaPublicKey b k h
  | certificate h _ => exact hP.certificate b _ h

/-- What follows an encoding does not matter. -/
theorem Provider.Encodes.append (hfirst : P.ReadsFirst) (h : P.Encodes k o b) (rest : Bytes) :
    P.Encodes k o (b ++ rest) := by
  obtain ⟨parts, hparts, -⟩ := h.begins hP
  have hleading : leading (b ++ rest) = leading b := leading_append (isSome_leading hparts)
  cases h with
  | publicKey h => exact .publicKey ((hfirst.publicKey _ _ hleading).trans h)
  | rsaPublicKey h => exact .rsaPublicKey ((hfirst.rsaPublicKey _ _ hleading).trans h)
  | certificate h hk => exact .certificate ((hfirst.certificate _ _ hleading).trans h) hk

/-! ### What is found -/

theorem findPublic_of_encodes (h : P.Encodes k o b) : findPublic P b = some k := by
  cases h with
  | publicKey h => exact findPublic_of_publicKey hP h
  | rsaPublicKey h => exact findPublic_of_rsaPublicKey hP h
  | certificate h hk => exact (findPublic_of_certificate hP h).trans hk

/-- In a block the key is found as well. -/
theorem findPublic_of_isBlock {label : Bytes} (hblocks : P.ReadsBlocks) (h : P.Encodes k o b)
    (hlabel : label ∈ o.labels) (hblock : IsBlock label b text) : findPublic P text = some k := by
  rw [findPublic, hblock.isText, if_pos rfl]
  cases h with
  | publicKey h =>
    cases List.mem_singleton.mp hlabel
    rw [hblocks.publicKey b text hblock, h]
    rfl
  | rsaPublicKey h =>
    cases List.mem_singleton.mp hlabel
    obtain ⟨hbare, hfound⟩ := hblocks.rsaPublicKey b text hblock
    rw [hbare, h]
    -- the first decoder may find the key, but no other one
    cases hkey : P.publicKeyOfText text with
    | none => rfl
    | some k' =>
      have hnone := publicKey_eq_none hP (hP.rsaPublicKey b k h) (by decide)
      rcases hfound k' hkey with hk' | hk'
      · rw [h] at hk'
        exact hk'.symm
      · rw [hnone] at hk'
        cases hk'
  | certificate h hk =>
    obtain ⟨hcertificate, hpublic, hbare⟩ := hblocks.certificate label hlabel b text hblock
    rw [hcertificate, hpublic, hbare, h]
    exact hk

/-- **In whatever form a key comes, it is found.** -/
theorem findPublic_of_presents (hfirst : P.ReadsFirst) (hblocks : P.ReadsBlocks)
    (h : P.Encodes k o b) (hinput : o.Presents b input) : findPublic P input = some k := by
  obtain ⟨rest, rfl | ⟨label, hlabel, hblock⟩⟩ := hinput
  · exact findPublic_of_encodes hP (h.append hP hfirst rest)
  · exact findPublic_of_isBlock hP hblocks (h.append hP hfirst rest) hlabel hblock

end

end Keyring
