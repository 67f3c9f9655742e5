import Keyring.Proofs.Provider.Standard
import Keyring.Proofs.Session.Succession

/-!
# A provider that takes three encodings

The provider in use decodes far more than can be surveyed at once.  Restricted to the encodings
of one key, public and private, and of a certificate of it, it decodes the same, and of these it
can be seen that it reads back what it has written.

## Main definitions

* `X509.plain` — a certificate with nothing in it but what has to be there.
* `Provider.taking` — a provider that takes some encodings and nothing else.
* `Provider.narrow` — the provider in use, restricted to one key.
* `mersenneRegistry` — the objects of a session with the key and its certificate.

## Main results

* `Provider.narrow_rereads` — **it reads back what it has written.**
* `Session.exists_runs_mersenne`, `Session.exists_runs_narrow` — a session with the key and its
  certificate.
-/

namespace Keyring

open Asn1

/-- A certificate of an encoded key, with nothing in it but what has to be there. -/
def X509.plain (key : Bytes) : Bytes :=
  let algorithm := Write.sequence [Write.oid Identifier.rsaEncryption]
  let time := Write.element 23 (Bytes.ascii "200101000000Z")
  let name := Write.sequence []
  Write.sequence
    [Write.sequence [Write.integer 1, algorithm, name, Write.sequence [time, time], name, key],
      algorithm, Write.bitString [0]]

namespace Rsa

/-- The public key to try things on, with its algorithm. -/
def mersennePublic : Bytes :=
  Write.sequence [PublicKey.writeAlgorithm Identifier.rsaEncryption Write.null,
    Write.bitString mersenneKey.publicKey.write]

/-- A certificate of it. -/
def mersenneCertificate : Bytes := X509.plain mersennePublic

end Rsa

/-! ### Restricted providers -/

namespace Provider

/-- A provider that takes some encodings and nothing else: no texts, nothing encrypted and no
containers. -/
def taking (P : Provider) (taken : List Bytes) : Provider :=
  { P with
    publicKey := fun b => if b ∈ taken then P.publicKey b else none
    rsaPublicKey := fun b => if b ∈ taken then P.rsaPublicKey b else none
    certificate := fun b => if b ∈ taken then P.certificate b else none
    privateKey := fun b => if b ∈ taken then P.privateKey b else none
    publicKeyOfText := fun _ => none
    rsaPublicKeyOfText := fun _ => none
    certificateOfText := fun _ => none
    protectedPrivateKey := fun _ _ => none
    privateKeyOfText := fun _ _ => none
    container := fun _ => none }

variable {P : Provider} {taken : List Bytes}

theorem exists_of_taking {α : Type} {b : Bytes} {f : Bytes → Option α} {a : α}
    (h : (if b ∈ taken then f b else none) = some a) : b ∈ taken ∧ f b = some a := by
  split at h
  · next hb => exact ⟨hb, h⟩
  · cases h

theorem taking_publicKey {b : Bytes} (hb : b ∈ taken) :
    (P.taking taken).publicKey b = P.publicKey b := if_pos hb

theorem taking_rsaPublicKey {b : Bytes} (hb : b ∈ taken) :
    (P.taking taken).rsaPublicKey b = P.rsaPublicKey b := if_pos hb

theorem taking_certificate {b : Bytes} (hb : b ∈ taken) :
    (P.taking taken).certificate b = P.certificate b := if_pos hb

theorem taking_privateKey {b : Bytes} (hb : b ∈ taken) :
    (P.taking taken).privateKey b = P.privateKey b := if_pos hb

/-- A restricted provider decodes a certificate only from what it takes. -/
theorem DecodesCertificate.of_taking {c : X509} (h : (P.taking taken).DecodesCertificate c) :
    ∃ b ∈ taken, P.certificate b = some c := by
  cases h with
  | encoded h => exact ⟨_, exists_of_taking h⟩
  | text h => cases h
  | contained h => cases h

/-- So it is with public keys. -/
theorem DecodesPublic.of_taking {k : PublicKey} (h : (P.taking taken).DecodesPublic k) :
    ∃ b ∈ taken, P.publicKey b = some k ∨ P.rsaPublicKey b = some k ∨
      ∃ c, P.certificate b = some c ∧ c.key = some k := by
  cases h with
  | encoded h =>
    obtain ⟨hb, hk⟩ := exists_of_taking h
    exact ⟨_, hb, .inl hk⟩
  | bare h =>
    obtain ⟨hb, hk⟩ := exists_of_taking h
    exact ⟨_, hb, .inr (.inl hk)⟩
  | text h => cases h
  | bareText h => cases h
  | certified hc hk =>
    obtain ⟨b, hb, hc⟩ := hc.of_taking
    exact ⟨b, hb, .inr (.inr ⟨_, hc, hk⟩)⟩

/-- And with private keys. -/
theorem DecodesPrivate.of_taking {k : PrivateKey} (h : (P.taking taken).DecodesPrivate k) :
    ∃ b ∈ taken, P.privateKey b = some k := by
  cases h with
  | encoded h => exact ⟨_, exists_of_taking h⟩
  | encrypted h => cases h
  | text h => cases h
  | contained h => cases h

/-! ### One key -/

open Rsa

/-- The provider in use, restricted to one key and a certificate of it. -/
def narrow : Provider :=
  standard.taking [mersennePublic, mersenneKey.write, mersenneCertificate]

/-- What the provider in use makes of the three encodings, and what it does not take them for. -/
theorem standard_mersenne :
    (standard.publicKey mersennePublic = some (.rsa mersenneKey.publicKey) ∧
      standard.certificate mersenneCertificate =
        some ⟨mersenneCertificate, some (.rsa mersenneKey.publicKey)⟩ ∧
      standard.privateKey mersenneKey.write = some (.rsa mersenneKey) ∧
      standard.rsaPrivateKey mersenneKey.write = some (.rsa mersenneKey)) ∧
    (∀ b ∈ [mersenneKey.write, mersenneCertificate], standard.publicKey b = none) ∧
    (∀ b ∈ [mersennePublic, mersenneKey.write, mersenneCertificate],
      standard.rsaPublicKey b = none) ∧
    (∀ b ∈ [mersennePublic, mersenneKey.write], standard.certificate b = none) ∧
    ∀ b ∈ [mersennePublic, mersenneCertificate], standard.privateKey b = none := by
  decide +kernel

theorem standard_publicKey_mersennePublic :
    standard.publicKey mersennePublic = some (.rsa mersenneKey.publicKey) := standard_mersenne.1.1

theorem standard_certificate_mersenneCertificate : standard.certificate mersenneCertificate =
    some ⟨mersenneCertificate, some (.rsa mersenneKey.publicKey)⟩ := standard_mersenne.1.2.1

theorem standard_privateKey_mersenneKey :
    standard.privateKey mersenneKey.write = some (.rsa mersenneKey) ∧
      standard.rsaPrivateKey mersenneKey.write = some (.rsa mersenneKey) := standard_mersenne.1.2.2

theorem DecodesCertificate.of_narrow {c : X509} (h : narrow.DecodesCertificate c) :
    c = ⟨mersenneCertificate, some (.rsa mersenneKey.publicKey)⟩ := by
  obtain ⟨b, hb, hc⟩ := h.of_taking
  obtain ⟨-, -, hnone, -⟩ := standard_mersenne.2
  simp only [List.mem_cons, List.not_mem_nil, or_false] at hb
  rcases hb with rfl | rfl | rfl
  · rw [hnone _ (by simp)] at hc
    cases hc
  · rw [hnone _ (by simp)] at hc
    cases hc
  · rw [standard_certificate_mersenneCertificate] at hc
    exact (Option.some.inj hc).symm

theorem DecodesPublic.of_narrow {k : PublicKey} (h : narrow.DecodesPublic k) :
    k = .rsa mersenneKey.publicKey := by
  obtain ⟨b, hb, hk⟩ := h.of_taking
  obtain ⟨hnone, hbare, -⟩ := standard_mersenne.2
  rcases hk with hk | hk | ⟨c, hc, hk⟩
  · simp only [List.mem_cons, List.not_mem_nil, or_false] at hb
    rcases hb with rfl | rfl | rfl
    · rw [standard_publicKey_mersennePublic] at hk
      exact (Option.some.inj hk).symm
    · rw [hnone _ (by simp)] at hk
      cases hk
    · rw [hnone _ (by simp)] at hk
      cases hk
  · rw [hbare b hb] at hk
    cases hk
  · have hdecodes : narrow.DecodesCertificate c := .encoded (b := b) (by
      rw [narrow, taking]
      exact (if_pos hb).trans hc)
    rw [hdecodes.of_narrow] at hk
    exact (Option.some.inj hk).symm

theorem DecodesPrivate.of_narrow {k : PrivateKey} (h : narrow.DecodesPrivate k) :
    k = .rsa mersenneKey := by
  obtain ⟨b, hb, hk⟩ := h.of_taking
  obtain ⟨-, -, -, hnone⟩ := standard_mersenne.2
  simp only [List.mem_cons, List.not_mem_nil, or_false] at hb
  rcases hb with rfl | rfl | rfl
  · rw [hnone _ (by simp)] at hk
    cases hk
  · rw [standard_privateKey_mersenneKey.1] at hk
    exact (Option.some.inj hk).symm
  · rw [hnone _ (by simp)] at hk
    cases hk

theorem narrow_publicKey :
    narrow.publicKey mersennePublic = some (.rsa mersenneKey.publicKey) := by
  rw [narrow, taking_publicKey List.mem_cons_self, standard_publicKey_mersennePublic]

theorem narrow_certificate : narrow.certificate mersenneCertificate =
    some ⟨mersenneCertificate, some (.rsa mersenneKey.publicKey)⟩ := by
  have hmem : mersenneCertificate ∈ [mersennePublic, mersenneKey.write, mersenneCertificate] :=
    List.mem_cons_of_mem _ (List.mem_cons_of_mem _ List.mem_cons_self)
  rw [narrow, taking_certificate hmem, standard_certificate_mersenneCertificate]

theorem narrow_encode : narrow.encodePublic (.rsa mersenneKey.publicKey) = some mersennePublic ∧
    narrow.encodeBare (.rsa mersenneKey) = some mersenneKey.write := ⟨rfl, rfl⟩

/-- **It reads back what it has written.** -/
theorem narrow_rereads : narrow.Rereads where
  publicKey := by
    intro k b hk _ hb
    rw [hk.of_narrow, narrow_encode.1] at hb
    rw [← Option.some.inj hb, hk.of_narrow]
    exact narrow_publicKey
  privateKey := by
    intro k a b hk ha hb
    rw [hk.of_narrow] at ha hb ⊢
    rw [narrow_encode.2] at hb
    have halgorithm : a = .rsa := (Option.some.inj ha).symm
    have hdecode : Service.decodePrivate narrow .rsa = standard.rsaPrivateKey := rfl
    rw [← Option.some.inj hb, halgorithm, hdecode, standard_privateKey_mersenneKey.2]
    exact ⟨_, rfl, rfl⟩
  certificate := by
    intro c hc
    rw [hc.of_narrow]
    exact narrow_certificate

end Provider

/-! ### A session -/

section Session

open Provider Rsa

/-- What is known of the public key. -/
def mersenneInfo : PublicInfo := ⟨.rsa, mersenneKey.publicKey.bitSize, mersennePublic⟩

theorem publicInfo_mersenne :
    publicInfo narrow (.rsa mersenneKey.publicKey) = .ok mersenneInfo := rfl

theorem parseCertificate_mersenne :
    parseCertificate narrow mersenneCertificate = .ok ⟨mersenneCertificate, mersenneInfo⟩ := by
  have htext : Pem.isText mersenneCertificate = false := rfl
  rw [parseCertificate, htext, if_neg (by decide), narrow_certificate]
  rfl

theorem parsePublic_mersenne : parsePublic narrow mersenneCertificate = .ok mersenneInfo := by
  have htext : Pem.isText mersenneCertificate = false := rfl
  have hmem : mersenneCertificate ∈ [mersennePublic, mersenneKey.write, mersenneCertificate] :=
    List.mem_cons_of_mem _ (List.mem_cons_of_mem _ List.mem_cons_self)
  obtain ⟨hpublic, hbare, -⟩ := standard_mersenne.2
  have hnone : narrow.publicKey mersenneCertificate = none :=
    (taking_publicKey hmem).trans (hpublic _ (List.mem_cons_of_mem _ List.mem_cons_self))
  have hnone' : narrow.rsaPublicKey mersenneCertificate = none :=
    (taking_rsaPublicKey hmem).trans (hbare _ hmem)
  have hfind : findPublic narrow mersenneCertificate = some (.rsa mersenneKey.publicKey) := by
    rw [findPublic, htext, if_neg (by decide), hnone, hnone', narrow_certificate]
    rfl
  rw [parsePublic, hfind]
  exact publicInfo_mersenne

/-- Without a password a private key is looked for as it is. -/
theorem parsePrivate_none {P : Provider} {b : Bytes} {k : PrivateKey}
    (h : findPrivate P b [] = some k) : parsePrivate P b none = failing (privateInfo P k) :=
  parsePrivate_of_find List.not_mem_nil h

theorem exists_parsePrivate_mersenne : ∃ i, i.parameters = .rsa ∧ i.bare = mersenneKey.write ∧
    parsePrivate narrow mersenneKey.write none = .ok i := by
  have htext : Pem.isText mersenneKey.write = false := rfl
  have hmem : mersenneKey.write ∈ [mersennePublic, mersenneKey.write, mersenneCertificate] :=
    List.mem_cons_of_mem _ List.mem_cons_self
  have hread : narrow.privateKey mersenneKey.write = some (.rsa mersenneKey) :=
    (taking_privateKey hmem).trans standard_privateKey_mersenneKey.1
  have hfind : findPrivate narrow mersenneKey.write [] = some (.rsa mersenneKey) := by
    rw [findPrivate, htext, if_neg (by decide), hread]
    rfl
  obtain ⟨i, hparameters, hbare, hi⟩ : ∃ i, i.parameters = .rsa ∧ i.bare = mersenneKey.write ∧
      privateInfo narrow (.rsa mersenneKey) = .ok i := ⟨⟨.rsa, _, _, _⟩, rfl, rfl, rfl⟩
  refine ⟨i, hparameters, hbare, ?_⟩
  rw [parsePrivate_none hfind, hi]
  rfl

/-- The objects of a session with a certificate, its key and the private key. -/
def mersenneRegistry : Registry :=
  ((Registry.insert {}
    (.certificate ⟨mersenneCertificate, some (.rsa mersenneKey.publicKey)⟩)).insert
      (.key ⟨.ofPublic (.rsa mersenneKey.publicKey), true, true⟩)).insert
        (.key ⟨.ofPrivate (.rsa mersenneKey), true, true⟩)

/-- In a session the certificate, its key and the private key are loaded, the key from the
certificate. -/
theorem Session.exists_runs_mersenne : ∃ (c : CertificateHandle) (p : PublicHandle)
    (k : PrivateHandle) (r r' : Registry),
    Session.Runs narrow ⟨mersenneRegistry,
      [("k", .privateKey k), ("p", .publicKey p), ("c", .certificate c)]⟩ ∧
    c.ref = some 1 ∧ p.ref = some 2 ∧ k.ref = some 3 ∧
    (loadPublic narrow (.bytes c.info.encoding)).run r = .ok (.ok p) r' := by
  -- the certificate
  have hcertificate : (loadCertificate narrow (.bytes mersenneCertificate)).run {} =
      .ok (.ok { ref := some 1, info := ⟨mersenneCertificate, mersenneInfo⟩ })
        (Registry.insert {} _) :=
    (loadCertificate_bytes parseCertificate_mersenne).trans
      (importCertificate_run (i := ⟨mersenneCertificate, mersenneInfo⟩) narrow_certificate)
  -- its key
  have hdecode : Service.decodeKey narrow .rsa false mersennePublic =
      some (.ofPublic (.rsa mersenneKey.publicKey)) := by
    rw [Service.decodeKey, narrow_publicKey]
    rfl
  have hpublic : ∀ r : Registry, (loadPublic narrow (.bytes mersenneCertificate)).run r =
      .ok (.ok ⟨some (r.last + 1), mersenneInfo⟩) (r.insert _) := fun r =>
    (loadPublic_bytes parsePublic_mersenne).trans
      (importPublic_run (P := narrow) (i := mersenneInfo) rfl hdecode rfl)
  -- the private key
  obtain ⟨i, hparameters, hbare, hparse⟩ := exists_parsePrivate_mersenne
  have hprivate : ∀ r : Registry, (loadPrivate narrow (.bytes mersenneKey.write) none).run r =
      .ok (.ok ⟨some (r.last + 1), i⟩)
        (r.insert (.key ⟨.ofPrivate (.rsa mersenneKey), true, true⟩)) := by
    intro r
    have hdecode : Service.decodeKey narrow i.parameters.algorithm true i.bare =
        some (.ofPrivate (.rsa mersenneKey)) := by
      have hkey : Service.decodePrivate narrow .rsa = standard.rsaPrivateKey := rfl
      rw [hparameters, hbare, Service.decodeKey, if_pos rfl, KeyParameters.algorithm, hkey,
        standard_privateKey_mersenneKey.2]
      rfl
    exact (loadPrivate_bytes hparse).trans (importPrivate_run (P := narrow) (i := i)
      (by rw [hparameters]; rfl) hdecode (by rw [hparameters]; rfl))
  have hruns₁ := Session.Runs.step .start (q := .loadCertificate "c" (.bytes mersenneCertificate))
    (P := narrow) (e := fun _ => 0) trivial (SessionM.load_new (by simp) hcertificate)
  have hruns₂ := hruns₁.step (q := .loadPublic "p" (.bytes mersenneCertificate))
    (e := fun _ => 0) trivial (SessionM.load_new (by simp) (hpublic _))
  have hruns₃ := hruns₂.step (q := .loadPrivate "k" (.bytes mersenneKey.write) none)
    (e := fun _ => 0) trivial (SessionM.load_new (by simp) (hprivate _))
  exact ⟨_, _, _, _, _, hruns₃, rfl, rfl, rfl, hpublic _⟩

/-- A session in which the certificate, its key and the private key were loaded, the key from
the certificate. -/
theorem Session.exists_runs_narrow : ∃ (s : Session) (c : CertificateHandle) (p : PublicHandle)
    (k : PrivateHandle) (r r' : Registry), s.Runs narrow ∧
    s.handles = [("k", .privateKey k), ("p", .publicKey p), ("c", .certificate c)] ∧
    c.ref = some 1 ∧ p.ref = some 2 ∧ k.ref = some 3 ∧
    (loadPublic narrow (.bytes c.info.encoding)).run r = .ok (.ok p) r' := by
  obtain ⟨c, p, k, r, r', hs, hc, hp, hk, hload⟩ := exists_runs_mersenne
  exact ⟨_, c, p, k, r, r', hs, rfl, hc, hp, hk, hload⟩

end Session

end Keyring
