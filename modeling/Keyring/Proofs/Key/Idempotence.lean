import Keyring.Proofs.Provider.Outlines

/-!
# Parsing what was parsed

What is known of a key or certificate contains encodings that the provider has written.  Parsed
again, they give what was known before: an encoding is not text, no decoder but the right one
takes it, and the key or certificate that comes out is the one that went in.  So it does not matter
whether the service is handed the bytes that were given or those that were made of them.

Of the provider this asks that it reads back the key or certificate in question, and that its
decoders keep to their outlines.

## Main definitions

* `Provider.RereadsPublic`, `Provider.RereadsPrivate`, `Provider.RereadsCertificate` — a provider
  reads back what it has written of one key or certificate.

## Main results

* `parsePublic_of_rereads`, `parseCertificate_of_rereads`, `parsePublic_certificate_of_rereads`,
  `parsePrivate_wrapped_of_rereads`, `parsePrivate_bare_of_rereads` — the encodings one by one.
* `parse_idempotent` — **parsing is idempotent.**
-/

namespace Keyring

variable {P : Provider} {b : Bytes} {password : Option Bytes}

/-! ### Reading back -/

namespace Provider

variable (P)

/-- The provider reads a public key back from its encoding. -/
def RereadsPublic (k : PublicKey) : Prop := ∀ b, P.encodePublic k = some b → P.publicKey b = some k

/-- The provider reads a certificate back from its encoding. -/
def RereadsCertificate (c : X509) : Prop := P.certificate c.encoding = some c

/-- The provider reads a private key back from its encodings.  The structure of an algorithm does
not have room for all that came with the key; what is read back from it has the same public part
and can be written itself. -/
structure RereadsPrivate (k : PrivateKey) : Prop where
  wrapped : ∀ b, P.encodeWrapped k = some b → P.privateKey b = some k
  bare : ∀ b, P.encodeBare k = some b → ∃ k', P.privateKey b = some k' ∧
    k'.publicKey = k.publicKey ∧ (P.encodeWrapped k').isSome ∧ (P.encodeBare k').isSome

end Provider

/-! ### The parsers -/

/-- What is written of a private key whose public part is known. -/
theorem privateInfo_of_publicInfo {k : PrivateKey} {j : PublicInfo} {wrapped bare : Bytes}
    (hinfo : publicInfo P k.publicKey = .ok j) (hwrapped : P.encodeWrapped k = some wrapped)
    (hbare : P.encodeBare k = some bare) :
    privateInfo P k = .ok ⟨j.parameters, j.bitSize, wrapped, bare⟩ := by
  rw [privateInfo, hinfo, ok_bind, hwrapped, hbare]
  rfl

theorem encodeWrapped_of_privateInfo {k : PrivateKey} {i : PrivateInfo}
    (h : privateInfo P k = .ok i) : P.encodeWrapped k = some i.wrapped := by
  obtain ⟨j, -, h⟩ := bind_eq_ok_iff.mp h
  split at h
  · next hwrapped _ =>
    cases h
    exact hwrapped
  · cases h

/-! ### Encodings -/

section Reread

variable (hP : P.KeepsOutlines)

include hP

theorem parsePublic_of_rereads {k : PublicKey} {i : PublicInfo} (hinfo : publicInfo P k = .ok i)
    (hk : P.RereadsPublic k) :
    parsePublic P i.encoding = .ok i ∧ Pem.isText i.encoding = false := by
  obtain ⟨-, -, hencode, -⟩ := publicInfo_eq_ok hinfo
  have hread := hk i.encoding hencode
  refine ⟨?_, Outline.isText_of_begins (hP.publicKey _ k hread)⟩
  rw [parsePublic, findPublic_of_publicKey hP hread]
  exact hinfo

theorem parseCertificate_of_rereads {c : X509} {i : CertificateInfo}
    (hinfo : certificateInfo P c = .ok i) (hc : P.RereadsCertificate c) :
    parseCertificate P i.encoding = .ok i ∧ parsePublic P i.encoding = .ok i.publicKey ∧
      Pem.isText i.encoding = false := by
  obtain ⟨k, hk, hpublic, hencoding⟩ := certificateInfo_eq_ok hinfo
  have hread : P.certificate i.encoding = some c := by
    rw [hencoding]
    exact hc
  have htext := Outline.isText_of_begins (hP.certificate _ c hread)
  refine ⟨?_, ?_, htext⟩
  · rw [parseCertificate, htext, if_neg Bool.false_ne_true, hread]
    exact hinfo
  · rw [parsePublic, findPublic_of_certificate hP hread, hk]
    exact hpublic

theorem parsePrivate_wrapped_of_rereads {k : PrivateKey} {i : PrivateInfo}
    (hinfo : privateInfo P k = .ok i) (hk : P.RereadsPrivate k) :
    (∀ password, 0 ∉ password.getD [] → parsePrivate P i.wrapped password = .ok i) ∧
      Pem.isText i.wrapped = false := by
  have hread := hk.wrapped i.wrapped (encodeWrapped_of_privateInfo hinfo)
  refine ⟨fun password hpassword => ?_, Outline.isText_of_begins (hP.privateKey _ k hread)⟩
  rw [parsePrivate_of_find hpassword (findPrivate_of_privateKey hP hread _), hinfo]
  rfl

/-- From the structure of its algorithm a key comes back as far as its public part goes. -/
theorem parsePrivate_bare_of_rereads {k : PrivateKey} {i : PrivateInfo}
    (hinfo : privateInfo P k = .ok i) (hk : P.RereadsPrivate k) :
    (∃ j, (∀ password, 0 ∉ password.getD [] → parsePrivate P i.bare password = .ok j) ∧
      j.parameters = i.parameters ∧ j.bitSize = i.bitSize) ∧ Pem.isText i.bare = false := by
  obtain ⟨j, hj, hparameters, hsize, hbare⟩ := privateInfo_eq_ok hinfo
  obtain ⟨k', hread, hpublic, hwrapped', hbare'⟩ := hk.bare i.bare hbare
  obtain ⟨wrapped', hwrapped'⟩ := Option.isSome_iff_exists.mp hwrapped'
  obtain ⟨bare', hbare'⟩ := Option.isSome_iff_exists.mp hbare'
  have hinfo' := privateInfo_of_publicInfo (hpublic ▸ hj) hwrapped' hbare'
  refine ⟨⟨⟨j.parameters, j.bitSize, wrapped', bare'⟩, fun password hpassword => ?_, hparameters,
    hsize⟩, Outline.isText_of_begins (hP.privateKey _ k' hread)⟩
  rw [parsePrivate_of_find hpassword (findPrivate_of_privateKey hP hread _), hinfo']
  rfl

/-- **Parsing is idempotent.**  Let the provider read back the key or certificate that is found in
a byte string.  Then what is known of a public key is known from its encoding; what is known of a
certificate is known from its encoding, and so is its key; and what is known of a private key,
under whatever password, is known from its encoding with the algorithm, without a password or under
any that has no zero byte.  From its encoding without the algorithm come the same parameters and
the same size.  None of these encodings is taken for text. -/
theorem parse_idempotent (b : Bytes) :
    (∀ i, parsePublic P b = .ok i → (∀ k, findPublic P b = some k → P.RereadsPublic k) →
      parsePublic P i.encoding = .ok i ∧ Pem.isText i.encoding = false) ∧
    (∀ i, parseCertificate P b = .ok i →
      (∀ c, findCertificate P b = some c → P.RereadsCertificate c) →
      parseCertificate P i.encoding = .ok i ∧ parsePublic P i.encoding = .ok i.publicKey ∧
        Pem.isText i.encoding = false) ∧
    ∀ password i, parsePrivate P b password = .ok i →
      (∀ k, findPrivate P b (password.getD []) = some k → P.RereadsPrivate k) →
      ((∀ password', 0 ∉ password'.getD [] → parsePrivate P i.wrapped password' = .ok i) ∧
        Pem.isText i.wrapped = false) ∧
      (∃ j, (∀ password', 0 ∉ password'.getD [] → parsePrivate P i.bare password' = .ok j) ∧
        j.parameters = i.parameters ∧ j.bitSize = i.bitSize) ∧ Pem.isText i.bare = false := by
  refine ⟨fun i hi hrereads => ?_, fun i hi hrereads => ?_, fun password i hi hrereads => ?_⟩
  · obtain ⟨k, hk, hinfo⟩ := exists_of_parsePublic hi
    exact parsePublic_of_rereads hP hinfo (hrereads k hk)
  · obtain ⟨c, hc, hinfo⟩ := exists_of_parseCertificate hi
    exact parseCertificate_of_rereads hP hinfo (hrereads c hc)
  · obtain ⟨k, hk, hinfo⟩ := exists_of_parsePrivate hi
    exact ⟨parsePrivate_wrapped_of_rereads hP hinfo (hrereads k hk),
      parsePrivate_bare_of_rereads hP hinfo (hrereads k hk)⟩

end Reread

/-- The provider in use reads back a public key of 609 bits, a certificate of it and the private
key, the last one from both of its encodings.  So the key and the certificate are parsed again, and
the private key as well, with a password that is not asked for. -/
theorem parse_idempotent_mersenne :
    parsePublic .standard mersenneInfo.encoding = .ok mersenneInfo ∧
    parseCertificate .standard Rsa.mersenneCertificate =
      .ok ⟨Rsa.mersenneCertificate, mersenneInfo⟩ ∧
    parsePublic .standard Rsa.mersenneCertificate = .ok mersenneInfo ∧
    ∃ i, parsePrivate .standard Rsa.mersenneKey.write none = .ok i ∧
      parsePrivate .standard i.wrapped (some [115, 101, 99, 114, 101, 116]) = .ok i ∧
      ∃ j, parsePrivate .standard i.bare none = .ok j ∧ j.bitSize = i.bitSize := by
  have hP := Provider.standard_keepsOutlines
  have hpublicInfo : publicInfo .standard (.rsa Rsa.mersenneKey.publicKey) = .ok mersenneInfo := rfl
  -- what is found
  have hpublic := findPublic_of_publicKey hP Provider.standard_publicKey_mersennePublic
  have hcertificate :=
    findCertificate_of_certificate hP Provider.standard_certificate_mersenneCertificate
  have hprivate :=
    findPrivate_of_privateKey hP Provider.standard_privateKey_mersenneKey.1 []
  -- what is known of it
  obtain ⟨wrapped, hwrapped, hread⟩ : ∃ wrapped,
      Provider.standard.encodeWrapped (.rsa Rsa.mersenneKey) = some wrapped ∧
      Provider.standard.privateKey wrapped = some (.rsa Rsa.mersenneKey) := by
    refine ⟨_, rfl, ?_⟩
    decide +kernel
  have hbare : Provider.standard.encodeBare (.rsa Rsa.mersenneKey) =
      some Rsa.mersenneKey.write := rfl
  have hprivateInfo := privateInfo_of_publicInfo (P := .standard) (k := .rsa Rsa.mersenneKey)
    hpublicInfo hwrapped hbare
  -- all of it is read back
  have hkey : Provider.standard.RereadsPublic (.rsa Rsa.mersenneKey.publicKey) := by
    intro b hb
    rw [← Option.some.inj (Provider.narrow_encode.1.symm.trans hb)]
    exact Provider.standard_publicKey_mersennePublic
  have hcert : Provider.standard.RereadsCertificate
      ⟨Rsa.mersenneCertificate, some (.rsa Rsa.mersenneKey.publicKey)⟩ :=
    Provider.standard_certificate_mersenneCertificate
  have hboth : Provider.standard.RereadsPrivate (.rsa Rsa.mersenneKey) := by
    refine ⟨fun b hb => ?_, fun b hb => ?_⟩
    · rw [← Option.some.inj (hwrapped.symm.trans hb)]
      exact hread
    · rw [← Option.some.inj (hbare.symm.trans hb)]
      refine ⟨_, Provider.standard_privateKey_mersenneKey.1, rfl, ?_, ?_⟩
      · rw [hwrapped]
        rfl
      · rw [hbare]
        rfl
  obtain ⟨hidempotent, -⟩ := parse_idempotent hP Rsa.mersennePublic
  obtain ⟨-, hidempotent', -⟩ := parse_idempotent hP Rsa.mersenneCertificate
  obtain ⟨-, -, hidempotent''⟩ := parse_idempotent hP Rsa.mersenneKey.write
  have hparse : parsePublic .standard Rsa.mersennePublic = .ok mersenneInfo := by
    rw [parsePublic, hpublic]
    exact hpublicInfo
  have hparse' : parseCertificate .standard Rsa.mersenneCertificate =
      .ok ⟨Rsa.mersenneCertificate, mersenneInfo⟩ := by
    rw [parseCertificate, ← findCertificate, hcertificate]
    rfl
  have hparse'' := parsePrivate_none hprivate
  rw [hprivateInfo] at hparse''
  obtain ⟨hagain, -⟩ := hidempotent _ hparse fun k hk => by
    cases hpublic.symm.trans hk
    exact hkey
  obtain ⟨hagain', hkey', -⟩ := hidempotent' _ hparse' fun c hc => by
    cases hcertificate.symm.trans hc
    exact hcert
  obtain ⟨⟨hagain'', -⟩, ⟨j, hj, -, hsize⟩, -⟩ := hidempotent'' none _ hparse'' fun k hk => by
    cases hprivate.symm.trans hk
    exact hboth
  exact ⟨hagain, hagain', hkey', _, hparse'', hagain'' (some _) (by decide), j,
    hj none List.not_mem_nil, hsize⟩

end Keyring
