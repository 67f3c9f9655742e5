import Keyring.Proofs.Key.Curves
import Keyring.Proofs.Provider.Narrow

/-!
# A provider that takes keys on two curves

The provider in use, restricted to the encodings of two EC keys and of a certificate of one of
them.  One key is on a curve that the import policy lets in.  The other is not, and the certificate
is of that one.

## Main definitions

* `Elliptic.generatorKey` — a public key on a curve.
* `Provider.curves` — the provider in use, restricted to two keys.

## Main results

* `Provider.curves_rereads`, `Provider.curves_namesCurves` — **it reads back what it has written,
  and its keys are on the curves that are named.**
* `exists_loadCertificate_secp256k1` — whatever provider takes the certificate, it is loaded.
* `Session.exists_runs_curves` — a session with the certificate and the other key.
-/

namespace Keyring

open Asn1

namespace Elliptic

/-- The public key of which the point is the generator, on a curve that is given by its name. -/
def generatorKey (o : Oid) (c : Curve) : PublicKey :=
  ⟨⟨c, some o, none, .uncompressed⟩, .uncompressed, c.generator⟩

/-- A key that is let in. -/
def secp256r1Key : PublicKey := generatorKey [1, 2, 840, 10045, 3, 1, 7] prime256v1

/-- A key that is not. -/
def secp256k1Key : PublicKey := generatorKey [1, 3, 132, 0, 10] secp256k1

/-- The encoding of a key. -/
def PublicKey.encoding (k : PublicKey) : Bytes := (Keyring.PublicKey.write (.ec k)).getD []

/-- A certificate of the key that is not let in. -/
def secp256k1Certificate : Bytes := X509.plain secp256k1Key.encoding

/-- What is known of that key. -/
def secp256k1Info : PublicInfo := ⟨.ec (.named "secp256k1"), 256, secp256k1Key.encoding⟩

/-- And of the one that is let in. -/
def secp256r1Info : PublicInfo := ⟨.ec (.named "secp256r1"), 256, secp256r1Key.encoding⟩

end Elliptic

open Elliptic

-- encodings are evaluated byte by byte
set_option maxRecDepth 20000

/-! ### The provider -/

namespace Provider

/-- The provider in use, restricted to two keys and a certificate. -/
def curves : Provider :=
  standard.taking [secp256r1Key.encoding, secp256k1Key.encoding, secp256k1Certificate]

/-- What the provider in use makes of the three encodings. -/
theorem standard_publicKey_curves :
    standard.publicKey secp256r1Key.encoding = some (.ec secp256r1Key) ∧
      standard.publicKey secp256k1Key.encoding = some (.ec secp256k1Key) := by
  decide

theorem standard_certificate_secp256k1 : standard.certificate secp256k1Certificate =
    some ⟨secp256k1Certificate, some (.ec secp256k1Key)⟩ := by
  decide

/-- And what it does not take them for. -/
theorem standard_isNone_curves :
    standard.publicKey secp256k1Certificate = none ∧
    (∀ b ∈ [secp256r1Key.encoding, secp256k1Key.encoding, secp256k1Certificate],
      standard.rsaPublicKey b = none ∧ standard.privateKey b = none) ∧
    ∀ b ∈ [secp256r1Key.encoding, secp256k1Key.encoding], standard.certificate b = none := by
  decide

/-- It writes the two keys as they were read. -/
theorem standard_encode_curves :
    standard.encodePublic (.ec secp256r1Key) = some secp256r1Key.encoding ∧
      standard.encodePublic (.ec secp256k1Key) = some secp256k1Key.encoding := by
  decide

theorem DecodesCertificate.of_curves {c : X509} (h : curves.DecodesCertificate c) :
    c = ⟨secp256k1Certificate, some (.ec secp256k1Key)⟩ := by
  obtain ⟨b, hb, hc⟩ := h.of_taking
  obtain ⟨-, -, hnone⟩ := standard_isNone_curves
  simp only [List.mem_cons, List.not_mem_nil, or_false] at hb
  rcases hb with rfl | rfl | rfl
  · rw [hnone _ (by simp)] at hc
    cases hc
  · rw [hnone _ (by simp)] at hc
    cases hc
  · rw [standard_certificate_secp256k1] at hc
    exact (Option.some.inj hc).symm

/-- Whatever is decoded is one of the two keys. -/
theorem DecodesPublic.of_curves {k : PublicKey} (h : curves.DecodesPublic k) :
    ∃ key, k = .ec key ∧ (key = secp256r1Key ∨ key = secp256k1Key) := by
  obtain ⟨b, hb, hk⟩ := h.of_taking
  obtain ⟨hnone, hbare, -⟩ := standard_isNone_curves
  rcases hk with hk | hk | ⟨c, hc, hk⟩
  · simp only [List.mem_cons, List.not_mem_nil, or_false] at hb
    rcases hb with rfl | rfl | rfl
    · rw [standard_publicKey_curves.1] at hk
      exact ⟨_, (Option.some.inj hk).symm, .inl rfl⟩
    · rw [standard_publicKey_curves.2] at hk
      exact ⟨_, (Option.some.inj hk).symm, .inr rfl⟩
    · rw [hnone] at hk
      cases hk
  · rw [(hbare b hb).1] at hk
    cases hk
  · have hdecodes : curves.DecodesCertificate c := .encoded (b := b) (by
      rw [curves, taking]
      exact (if_pos hb).trans hc)
    rw [hdecodes.of_curves] at hk
    exact ⟨_, (Option.some.inj hk).symm, .inr rfl⟩

theorem not_decodesPrivate_curves {k : PrivateKey} : ¬ curves.DecodesPrivate k := by
  intro h
  obtain ⟨b, hb, hk⟩ := h.of_taking
  obtain ⟨-, hnone, -⟩ := standard_isNone_curves
  rw [(hnone b hb).2] at hk
  cases hk

/-- What is written of a key is read again as the key. -/
theorem curves_publicKey {key : Elliptic.PublicKey} (h : key = secp256r1Key ∨ key = secp256k1Key) :
    curves.encodePublic (.ec key) = some key.encoding ∧
      curves.publicKey key.encoding = some (.ec key) := by
  rcases h with rfl | rfl
  · exact ⟨standard_encode_curves.1,
      (taking_publicKey List.mem_cons_self).trans standard_publicKey_curves.1⟩
  · exact ⟨standard_encode_curves.2, (taking_publicKey
      (List.mem_cons_of_mem _ List.mem_cons_self)).trans standard_publicKey_curves.2⟩

theorem curves_certificate : curves.certificate secp256k1Certificate =
    some ⟨secp256k1Certificate, some (.ec secp256k1Key)⟩ :=
  (taking_certificate (List.mem_cons_of_mem _ (List.mem_cons_of_mem _ List.mem_cons_self))).trans
    standard_certificate_secp256k1

/-- **It reads back what it has written.** -/
theorem curves_rereads : curves.Rereads where
  publicKey := by
    intro k b hk _ hb
    obtain ⟨key, rfl, hkey⟩ := hk.of_curves
    obtain ⟨hencode, hread⟩ := curves_publicKey hkey
    cases hencode.symm.trans hb
    exact hread
  privateKey := fun _ _ _ hk => absurd hk not_decodesPrivate_curves
  certificate := by
    intro c hc
    rw [hc.of_curves]
    exact curves_certificate

/-- **Its keys are on the curves that are named.** -/
theorem curves_namesCurves : curves.NamesCurves := by
  -- no private key is decoded, so what is held is one of the two public keys
  have hkeys : ∀ k, curves.Holds (.ec k) → k = secp256r1Key ∨ k = secp256k1Key := by
    rintro k (hk | ⟨key, hkey, -⟩)
    · obtain ⟨_, ⟨⟩, hk⟩ := hk.of_curves
      exact hk
    · exact absurd hkey not_decodesPrivate_curves
  constructor
  · intro k hk
    rcases hkeys k hk with rfl | rfl
    · exact PublicKey.known_of_read (b := secp256r1Key.encoding) standard_publicKey_curves.1
    · exact PublicKey.known_of_read (b := secp256k1Key.encoding) standard_publicKey_curves.2
  · intro k b c hk hb hc
    have hread : Inspection.curveOf b = some k.group.spec := by
      have hlength : b.length < 2 ^ 32 ∧
          ∀ o, k.group.name = some o → Oid.ofContent? o.content = some o := by
        rw [(curves_publicKey (hkeys k hk)).1] at hb
        cases hb
        rcases hkeys k hk with rfl | rfl
        · exact ⟨by decide, by rintro o ⟨⟩; decide⟩
        · exact ⟨by decide, by rintro o ⟨⟩; decide⟩
      exact Inspection.curveOf_write hb hlength.1 hlength.2
    exact Option.some.inj (hc.symm.trans hread)

end Provider

/-! ### Loading -/

section Load

variable {P : Provider} {r : Registry}

/-- What is known of the two keys depends on how they are written. -/
theorem publicInfo_curves (hwrite : P.encodePublic = PublicKey.write) :
    publicInfo P (.ec secp256r1Key) = .ok secp256r1Info ∧
      publicInfo P (.ec secp256k1Key) = .ok secp256k1Info := by
  simp only [publicInfo, hwrite]
  decide

/-- Whatever provider takes the certificate, it is loaded, and its key is not looked at. -/
theorem loadCertificate_secp256k1 (hwrite : P.encodePublic = PublicKey.write)
    (hread : P.certificate secp256k1Certificate =
      some ⟨secp256k1Certificate, some (.ec secp256k1Key)⟩) :
    (loadCertificate P (.bytes secp256k1Certificate)).run r =
      .ok (.ok { ref := some (r.last + 1), info := ⟨secp256k1Certificate, secp256k1Info⟩ })
        (r.insert (.certificate ⟨secp256k1Certificate, some (.ec secp256k1Key)⟩)) := by
  have htext : Pem.isText secp256k1Certificate = false := rfl
  have hparse : parseCertificate P secp256k1Certificate =
      .ok ⟨secp256k1Certificate, secp256k1Info⟩ := by
    rw [parseCertificate, htext, if_neg Bool.false_ne_true, hread]
    simp only [certificateInfo, (publicInfo_curves hwrite).2]
    rfl
  rw [loadCertificate_bytes hparse]
  exact importCertificate_run hread

/-- The key in the certificate is refused when it is loaded. -/
theorem loadPublic_secp256k1 (hwrite : P.encodePublic = PublicKey.write)
    (hpublic : P.publicKey secp256k1Certificate = none)
    (hbare : P.rsaPublicKey secp256k1Certificate = none)
    (hread : P.certificate secp256k1Certificate =
      some ⟨secp256k1Certificate, some (.ec secp256k1Key)⟩) :
    (loadPublic P (.bytes secp256k1Certificate)).run r =
      .ok (.error (.unsupportedCurve "secp256k1")) r := by
  have htext : Pem.isText secp256k1Certificate = false := rfl
  have hfind : findPublic P secp256k1Certificate = some (.ec secp256k1Key) := by
    rw [findPublic, htext, if_neg Bool.false_ne_true, hpublic, hbare, hread]
    rfl
  have hparse : parsePublic P secp256k1Certificate = .ok secp256k1Info := by
    rw [parsePublic, hfind]
    exact (publicInfo_curves hwrite).2
  rw [loadPublic_bytes hparse]
  exact Action.run_bind_error rfl

end Load

/-- A session in which the certificate and the other key were loaded. -/
theorem Session.exists_runs_curves : ∃ (s : Session) (c : CertificateHandle) (p : PublicHandle),
    s.Runs .curves ∧ s.find? "c" = some (.certificate c) ∧ s.find? "p" = some (.publicKey p) ∧
    c.ref = some 1 ∧ c.info.publicKey = secp256k1Info ∧ p = ⟨some 2, secp256r1Info⟩ := by
  have hcertificate := loadCertificate_secp256k1 (P := .curves) (r := {}) rfl
    Provider.curves_certificate
  obtain ⟨r₁, hcertificate, hlast⟩ : ∃ r₁ : Registry,
      (loadCertificate .curves (.bytes secp256k1Certificate)).run {} =
        .ok (.ok { ref := some 1, info := ⟨secp256k1Certificate, secp256k1Info⟩ }) r₁ ∧
      r₁.last = 1 := ⟨_, hcertificate, rfl⟩
  obtain ⟨r₂, hpublic⟩ : ∃ r₂ : Registry, (loadPublic .curves (.parsed secp256r1Info)).run r₁ =
      .ok (.ok ⟨some 2, secp256r1Info⟩) r₂ := by
    have hdecode : Service.decodeKey .curves .ec false secp256r1Info.encoding =
        some (.ofPublic (.ec secp256r1Key)) := by
      rw [Service.decodeKey, if_neg Bool.false_ne_true, secp256r1Info]
      dsimp only
      rw [(Provider.curves_publicKey (.inl rfl)).2]
      rfl
    have himport := importPublic_run (P := .curves) (r := r₁) (i := secp256r1Info) rfl hdecode rfl
    rw [hlast] at himport
    exact ⟨_, himport⟩
  have hruns₁ := Session.Runs.step .start (q := .loadCertificate "c" (.bytes secp256k1Certificate))
    (P := .curves) (e := fun _ => 0) trivial (SessionM.load_new (by simp) hcertificate)
  have hknown : secp256r1Info.Known .curves :=
    ⟨.ec secp256r1Key, .encoded (Provider.curves_publicKey (.inl rfl)).2,
      (publicInfo_curves rfl).1⟩
  have hruns₂ := hruns₁.step (q := .loadPublic "p" (.parsed secp256r1Info))
    (e := fun _ => 0) hknown (SessionM.load_new (by simp) hpublic)
  exact ⟨_, _, _, hruns₂, rfl, rfl, rfl, rfl, rfl⟩

end Keyring
