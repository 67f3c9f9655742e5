import Keyring.Proofs.Key.Agreement
import Keyring.Proofs.Pem.Blanks

/-!
# Keys and certificates in texts with blanks in front

An input that is a boundary apart from blanks is taken for text, and the decoders of texts get it
with the blanks.  They find in it what they find without the blanks if these are whole lines.
Otherwise the boundary is hidden from them, and what comes is an error, although the input was
taken for text.

Two readers disagree here.  The one that tells text from other encodings skips any blanks; the one
that looks for blocks reads line by line and wants the boundary at the start of a line.  Of the
decoders it is only used that they look at the blocks of a text and at nothing else, so that texts
with the same blocks are parsed alike, and that without a block there is nothing to find.

## Main definitions

* `LooksAtBlocks`, `Provider.ReadsTexts` — decoders of texts look at the blocks.

## Main results

* `Provider.standard_readsTexts` — **the decoders in use look at the blocks.**
* `blanks_before_text` — **blanks in front do not matter if they are whole lines**, and any others
  hide a key.
-/

namespace Keyring

open Pem

variable {α : Type} {P : Provider} {w b text : Bytes}

/-- A decoder of texts looks at nothing but the blocks, and without blocks it finds nothing. -/
structure LooksAtBlocks (decode : Bytes → Option α) : Prop where
  congr : ∀ text text', blocksOf text = blocksOf text' → decode text = decode text'
  eq_none : ∀ text, blocksOf text = [] → decode text = none

/-- The decoders of texts look at the blocks. -/
structure Provider.ReadsTexts (P : Provider) : Prop where
  publicKey : LooksAtBlocks P.publicKeyOfText
  rsaPublicKey : LooksAtBlocks P.rsaPublicKeyOfText
  certificate : LooksAtBlocks P.certificateOfText
  privateKey : ∀ password, LooksAtBlocks (P.privateKeyOfText password)

theorem PublicKey.contentOf_congr {text' : Bytes} {isWanted : Bytes → Bool}
    (h : blocksOf text = blocksOf text') :
    contentOf isWanted text = contentOf isWanted text' := by
  rw [contentOf, contentOf, h]

theorem PublicKey.contentOf_eq_none {isWanted : Bytes → Bool} (h : blocksOf text = []) :
    contentOf isWanted text = none := by
  rw [contentOf, h]
  rfl

/-- **The decoders in use look at the blocks.** -/
theorem Provider.standard_readsTexts : Provider.standard.ReadsTexts where
  publicKey := by
    refine ⟨fun text text' h => ?_, fun text h => ?_⟩
    · show PublicKey.ofText text = PublicKey.ofText text'
      rw [PublicKey.ofText, PublicKey.ofText, PublicKey.contentOf_congr h, h]
    · show PublicKey.ofText text = none
      rw [PublicKey.ofText, PublicKey.contentOf_eq_none h, h]
      rfl
  rsaPublicKey := by
    refine ⟨fun text text' h => ?_, fun text h => ?_⟩
    · show PublicKey.rsaOfText text = PublicKey.rsaOfText text'
      rw [PublicKey.rsaOfText, PublicKey.rsaOfText, PublicKey.contentOf_congr h]
    · show PublicKey.rsaOfText text = none
      rw [PublicKey.rsaOfText, PublicKey.contentOf_eq_none h]
      rfl
  certificate := by
    refine ⟨fun text text' h => ?_, fun text h => ?_⟩
    · show X509.ofText text = X509.ofText text'
      rw [X509.ofText, X509.ofText, PublicKey.contentOf_congr h]
    · show X509.ofText text = none
      rw [X509.ofText, PublicKey.contentOf_eq_none h]
      rfl
  privateKey := by
    intro password
    refine ⟨fun text text' h => ?_, fun text h => ?_⟩
    · show PrivateKey.ofText _ text = PrivateKey.ofText _ text'
      rw [PrivateKey.ofText, PrivateKey.ofText, h]
    · show PrivateKey.ofText _ text = none
      rw [PrivateKey.ofText, h]
      rfl

/-! ### Texts with the same blocks -/

/-- Two texts with the same blocks are parsed alike. -/
theorem parse_text_congr {text' : Bytes} (hP : P.ReadsTexts) (htext : isText text = true)
    (htext' : isText text' = true) (h : blocksOf text = blocksOf text') :
    parseCertificate P text = parseCertificate P text' ∧
    parsePublic P text = parsePublic P text' ∧
    ∀ password, parsePrivate P text password = parsePrivate P text' password := by
  have hcertificate := hP.certificate.congr _ _ h
  -- three decoders in turn, each on the same blocks
  have hpublic : findPublic P text = findPublic P text' := by
    rw [findPublic, findPublic, htext, htext', if_pos rfl, if_pos rfl, hcertificate,
      hP.publicKey.congr _ _ h, hP.rsaPublicKey.congr _ _ h]
  have hprivate : ∀ password, findPrivate P text password = findPrivate P text' password := by
    intro password
    rw [findPrivate, findPrivate, htext, htext', if_pos rfl, if_pos rfl,
      (hP.privateKey password).congr _ _ h]
  refine ⟨?_, ?_, fun password => ?_⟩
  · rw [parseCertificate, parseCertificate, htext, htext', if_pos rfl, if_pos rfl, hcertificate]
  · rw [parsePublic, parsePublic, hpublic]
  · rw [parsePrivate, parsePrivate, hprivate]

/-- In a text without blocks nothing is found. -/
theorem parse_text_error (hP : P.ReadsTexts) (htext : isText text = true)
    (h : blocksOf text = []) :
    parseCertificate P text = .error .malformedCertificate ∧
    parsePublic P text = .error .malformedPublicKey ∧
    ∀ password, 0 ∉ password.getD [] →
      parsePrivate P text password = .error (.error .malformedPrivateKey) := by
  have hcertificate := hP.certificate.eq_none _ h
  have hpublic : findPublic P text = none := by
    rw [findPublic, htext, if_pos rfl, hcertificate, hP.publicKey.eq_none _ h,
      hP.rsaPublicKey.eq_none _ h]
    rfl
  refine ⟨?_, ?_, fun password hzero => ?_⟩
  · rw [parseCertificate, htext, if_pos rfl, hcertificate]
  · rw [parsePublic, hpublic]
  · -- only a zero byte would be noticed before the text is looked at
    have hprivate : findPrivate P text (password.getD []) = none := by
      rw [findPrivate, htext, if_pos rfl, (hP.privateKey _).eq_none _ h]
    dsimp only [parsePrivate]
    rw [if_neg hzero, hprivate]

/-! ### Blanks in front -/

theorem head?_of_boundary (hb : Bytes.ascii "-----BEGIN" <+: b) : b.head? = some 45 := by
  obtain ⟨rest, rfl⟩ := hb
  rfl

/-- **Blanks in front do not matter if they are whole lines**: they end with a line feed, or so many
of them stand in the last line that it was cut after them.  Whatever then follows and starts with
a boundary is parsed as it is without them.  Any other blanks in front of a block hide it, so that
a key or certificate that can be parsed without them ends in an error, with any password. -/
theorem blanks_before_text (hP : P.ReadsTexts) (hw : IsBlank w)
    (hb : Bytes.ascii "-----BEGIN" <+: b) :
    (unfinished w = 0 →
      parseCertificate P (w ++ b) = parseCertificate P b ∧
      parsePublic P (w ++ b) = parsePublic P b ∧
      ∀ password, parsePrivate P (w ++ b) password = parsePrivate P b password) ∧
    (unfinished w ≠ 0 → ∀ label content, IsBlock label content b → IsLabel label → 45 ∉ label →
      parseCertificate P (w ++ b) = .error .malformedCertificate ∧
      parsePublic P (w ++ b) = .error .malformedPublicKey ∧
      ∀ password, 0 ∉ password.getD [] →
        parsePrivate P (w ++ b) password = .error (.error .malformedPrivateKey)) := by
  -- with the blanks and without, the input is taken for text
  have htext := isText_append hw hb
  have htext' : isText b = true := isText_append (w := []) (by decide) hb
  constructor
  · intro hwhole
    exact parse_text_congr hP htext htext' (blocksOf_blanks hw hwhole (head?_of_boundary hb))
  · intro hhidden label content hblock hlabel hhyphen
    exact parse_text_error hP htext (hblock.blocksOf_hidden hlabel hhyphen hw hhidden)

/-! ### A key in a text -/

theorem isBlock_newlines : IsBlock PublicKey.rsaLabel Rsa.mersenneKey.publicKey.write
    (Rsa.mersenneText [newline] [newline]) :=
  isBlock_mersenneText (by decide) (by decide)

/-- Without blanks in front the key is found. -/
theorem parsePublic_mersenneText :
    parsePublic .standard (Rsa.mersenneText [newline] [newline]) = .ok mersenneInfo := by
  have hread : Provider.standard.rsaPublicKey Rsa.mersenneKey.publicKey.write =
      some (.rsa Rsa.mersenneKey.publicKey) :=
    Provider.standard_takes_mersenne.rsaPublicKey _ rfl
  have hpresents := Outline.presents_of_isBlock (o := .rsaPublicKey) List.mem_cons_self
    isBlock_newlines
  exact agree_publicInfo Provider.standard_keepsOutlines Provider.standard_readsFirst
    Provider.standard_readsBlocks _ _ _ _ (.rsaPublicKey hread) hpresents

theorem isLabel_rsaLabel : IsLabel PublicKey.rsaLabel :=
  Outline.isLabel_of_mem (o := .rsaPublicKey) List.mem_cons_self

/-- A line of blanks does not matter, and a single blank hides the key. -/
theorem blanks_before_mersenneText :
    parsePublic .standard ([32, 12, 13, newline] ++ Rsa.mersenneText [newline] [newline]) =
      .ok mersenneInfo ∧
    parsePublic .standard ([12] ++ Rsa.mersenneText [newline] [newline]) =
      .error .malformedPublicKey := by
  -- a line feed ends the first line of blanks, a form feed does not
  obtain ⟨hwhole, -⟩ := blanks_before_text (b := Rsa.mersenneText [newline] [newline])
    Provider.standard_readsTexts (by decide : IsBlank [32, 12, 13, newline]) ⟨_, rfl⟩
  obtain ⟨-, hhidden⟩ := blanks_before_text (b := Rsa.mersenneText [newline] [newline])
    Provider.standard_readsTexts (by decide : IsBlank [12]) ⟨_, rfl⟩
  refine ⟨?_, (hhidden (by decide) _ _ isBlock_newlines isLabel_rsaLabel (by decide)).2.1⟩
  rw [(hwhole (by decide)).2.1]
  exact parsePublic_mersenneText

/-- A space in front of a text with a key makes a difference. -/
theorem space_before_mersenneText :
    IsBlank [32] ∧ Bytes.ascii "-----BEGIN" <+: Rsa.mersenneText [newline] [newline] ∧
    parsePublic .standard (Rsa.mersenneText [newline] [newline]) = .ok mersenneInfo ∧
    parsePublic .standard ([32] ++ Rsa.mersenneText [newline] [newline]) =
      .error .malformedPublicKey := by
  have hblank : IsBlank [32] := by decide
  have hboundary : Bytes.ascii "-----BEGIN" <+: Rsa.mersenneText [newline] [newline] := ⟨_, rfl⟩
  have hnone := isBlock_newlines.blocksOf_hidden isLabel_rsaLabel (by decide) hblank (by decide)
  exact ⟨hblank, hboundary, parsePublic_mersenneText,
    (parse_text_error Provider.standard_readsTexts (isText_append hblank hboundary) hnone).2.1⟩

end Keyring
