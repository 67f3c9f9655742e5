import Keyring.Key.Parse
import Keyring.Proofs.Outcome
import Keyring.Service.Keys
import Mathlib.Data.Option.Basic

/-!
# Where what is known of keys comes from

Nothing is known of a key or certificate unless the provider has decoded it.  What is known is
handed on as encodings that the provider has written itself, and the service decodes them again.
That it gets the same keys is asked of the provider.

Each parser is inverted: from a result it is concluded that something was decoded and that the
result tells of it.  Later proofs start from `Known` and never open a parser again.  Of a private
key the public part is followed, as only this is known of it; the private part is in its encoding,
and `Rereads` asks of the encoding that it has the same public part.

## Main definitions

* `Provider.DecodesPublic`, `Provider.DecodesPrivate`, `Provider.DecodesCertificate` — the keys
  and certificates that a provider decodes.
* `PublicInfo.Known`, `PrivateInfo.Known`, `CertificateInfo.Known`, `ContainerInfo.Known` — what
  is known of them.
* `Provider.Rereads` — a provider reads back what it has written.

## Main results

* `publicInfo_eq_ok`, `privateInfo_eq_ok`, `certificateInfo_eq_ok` — **what is known is true of
  the key.**
* `known_of_parsePublic`, `known_of_parsePrivate`, `known_of_parseCertificate`,
  `known_of_parseContainer` — parsers tell of keys that were decoded.
* `Provider.Rereads.decodeKey_public`, `Provider.Rereads.exists_decodeKey_private` — **the
  service gets the key that was parsed.**
-/

namespace Keyring

variable {P : Provider}

/-! ### What a provider decodes -/

namespace Provider

/-- A certificate that the provider has decoded: alone, in a text or in a container. -/
inductive DecodesCertificate (P : Provider) : X509 → Prop
  | encoded {b : Bytes} {c : X509} : P.certificate b = some c → DecodesCertificate P c
  | text {b : Bytes} {c : X509} : P.certificateOfText b = some c → DecodesCertificate P c
  | contained {b password : Bytes} {openWith : Bytes → Option Contents} {contents : Contents}
    {c : X509} : P.container b = some openWith → openWith password = some contents →
      c ∈ contents.certificate.toList ++ contents.others → DecodesCertificate P c

/-- A public key that the provider has decoded: alone, as a bare RSA key, either in a text, or in
a certificate. -/
inductive DecodesPublic (P : Provider) : PublicKey → Prop
  | encoded {b : Bytes} {k : PublicKey} : P.publicKey b = some k → DecodesPublic P k
  | bare {b : Bytes} {k : PublicKey} : P.rsaPublicKey b = some k → DecodesPublic P k
  | text {b : Bytes} {k : PublicKey} : P.publicKeyOfText b = some k → DecodesPublic P k
  | bareText {b : Bytes} {k : PublicKey} : P.rsaPublicKeyOfText b = some k → DecodesPublic P k
  | certified {c : X509} {k : PublicKey} : P.DecodesCertificate c → c.key = some k →
      DecodesPublic P k

/-- A private key that the provider has decoded: alone, encrypted or not, in a text or in a
container. -/
inductive DecodesPrivate (P : Provider) : PrivateKey → Prop
  | encoded {b : Bytes} {k : PrivateKey} : P.privateKey b = some k → DecodesPrivate P k
  | encrypted {password b : Bytes} {k : PrivateKey} : P.protectedPrivateKey password b = some k →
      DecodesPrivate P k
  | text {password b : Bytes} {k : PrivateKey} : P.privateKeyOfText password b = some k →
      DecodesPrivate P k
  | contained {b password : Bytes} {openWith : Bytes → Option Contents} {contents : Contents}
    {k : PrivateKey} : P.container b = some openWith → openWith password = some contents →
      contents.key = some k → DecodesPrivate P k

/-- A provider reads back what it has written.  The encoding of a key of an algorithm that is
imported decodes to the key; of a private key in the structure of its algorithm the public part
is what counts.  The encoding of a certificate decodes to the certificate. -/
structure Rereads (P : Provider) : Prop where
  publicKey : ∀ k b, P.DecodesPublic k → k.algorithm?.isSome → P.encodePublic k = some b →
    P.publicKey b = some k
  privateKey : ∀ k a b, P.DecodesPrivate k → k.algorithm? = some a → P.encodeBare k = some b →
    ∃ k', Service.decodePrivate P a b = some k' ∧ k'.publicKey = k.publicKey
  certificate : ∀ c, P.DecodesCertificate c → P.certificate c.encoding = some c

end Provider

/-! ### What is known of what was decoded -/

variable (P) in
/-- What is known of a public key that was decoded. -/
def PublicInfo.Known (i : PublicInfo) : Prop := ∃ k, P.DecodesPublic k ∧ publicInfo P k = .ok i

variable (P) in
/-- What is known of a private key that was decoded. -/
def PrivateInfo.Known (i : PrivateInfo) : Prop := ∃ k, P.DecodesPrivate k ∧ privateInfo P k = .ok i

variable (P) in
/-- What is known of a certificate that was decoded. -/
def CertificateInfo.Known (i : CertificateInfo) : Prop :=
  ∃ c, P.DecodesCertificate c ∧ certificateInfo P c = .ok i

variable (P) in
/-- What is known of the contents of a container, each of which was decoded. -/
structure ContainerInfo.Known (i : ContainerInfo) : Prop where
  privateKey : ∀ k, i.privateKey = some k → k.Known P
  certificate : ∀ c, i.certificate = some c → c.Known P
  others : ∀ c ∈ i.others, c.Known P

theorem parametersOf_eq_ok {k : PublicKey} {b : Bytes} {p : KeyParameters}
    (h : parametersOf k b = .ok p) : k.algorithm? = some p.algorithm := by
  cases k with
  | rsa k =>
    cases h
    rfl
  | dsa k =>
    cases h
    rfl
  | ec k =>
    simp only [parametersOf] at h
    split at h <;> cases h
    rfl
  | rsaPss k => cases h
  | other name => cases h

/-- **What is known of a public key is true of it.** -/
theorem publicInfo_eq_ok {k : PublicKey} {i : PublicInfo} (h : publicInfo P k = .ok i) :
    k.algorithm? = some i.algorithm ∧ i.bitSize = k.bitSize ∧
      P.encodePublic k = some i.encoding ∧ parametersOf k i.encoding = .ok i.parameters := by
  unfold publicInfo at h
  split at h
  · cases h
  split at h
  · cases h
  · -- an algorithm that is imported, and an encoding that could be written
    next b hb =>
    obtain ⟨p, hp, h⟩ := bind_eq_ok_iff.mp h
    cases h
    exact ⟨parametersOf_eq_ok hp, rfl, hb, hp⟩

/-- What is written of a public key is known of it. -/
theorem publicInfo_of_encode {k : PublicKey} {b : Bytes} {p : KeyParameters}
    (hencode : P.encodePublic k = some b) (hparameters : parametersOf k b = .ok p) :
    publicInfo P k = .ok ⟨p, k.bitSize, b⟩ := by
  have hsome : k.algorithm?.isNone = false := by
    rw [parametersOf_eq_ok hparameters]
    rfl
  rw [publicInfo, hsome, if_neg Bool.false_ne_true, hencode]
  dsimp only
  rw [hparameters]
  rfl

/-- What is known of a private key is what is known of its public part. -/
theorem privateInfo_eq_ok {k : PrivateKey} {i : PrivateInfo} (h : privateInfo P k = .ok i) :
    ∃ j, publicInfo P k.publicKey = .ok j ∧ j.parameters = i.parameters ∧
      j.bitSize = i.bitSize ∧ P.encodeBare k = some i.bare := by
  obtain ⟨j, hj, h⟩ := bind_eq_ok_iff.mp h
  split at h
  · next hbare =>
    cases h
    exact ⟨j, hj, rfl, rfl, hbare⟩
  · cases h

theorem certificateInfo_eq_ok {c : X509} {i : CertificateInfo} (h : certificateInfo P c = .ok i) :
    ∃ k, c.key = some k ∧ publicInfo P k = .ok i.publicKey ∧ i.encoding = c.encoding := by
  unfold certificateInfo at h
  split at h
  · cases h
  · next k hk =>
    obtain ⟨j, hj, h⟩ := bind_eq_ok_iff.mp h
    cases h
    exact ⟨k, hk, hj, rfl⟩

/-- The key of a certificate is known with the certificate. -/
theorem CertificateInfo.Known.publicKey {i : CertificateInfo} (h : i.Known P) :
    i.publicKey.Known P := by
  obtain ⟨c, hc, hi⟩ := h
  obtain ⟨k, hk, hinfo, -⟩ := certificateInfo_eq_ok hi
  exact ⟨k, .certified hc hk, hinfo⟩

/-! ### Parsers -/

section Parse

variable {b : Bytes} {password : Option Bytes}

theorem failing_eq_ok {α : Type} {x : Except CryptoError α} {a : α} (h : failing x = .ok a) :
    x = .ok a := by
  cases x with
  | error e => cases h
  | ok a' =>
    cases h
    rfl

theorem decodes_of_findPublic {k : PublicKey} (h : findPublic P b = some k) :
    P.DecodesPublic k := by
  unfold findPublic at h
  split at h
  · -- in a text: with its algorithm, bare, or in a certificate
    rcases (Option.orElse_eq_some _ _ _).mp h with h | ⟨-, h⟩
    · exact .text h
    rcases (Option.orElse_eq_some _ _ _).mp h with h | ⟨-, h⟩
    · exact .bareText h
    obtain ⟨c, hc, hk⟩ := Option.bind_eq_some_iff.mp h
    exact .certified (.text hc) hk
  · -- and the same outside of texts
    rcases (Option.orElse_eq_some _ _ _).mp h with h | ⟨-, h⟩
    · exact .encoded h
    rcases (Option.orElse_eq_some _ _ _).mp h with h | ⟨-, h⟩
    · exact .bare h
    obtain ⟨c, hc, hk⟩ := Option.bind_eq_some_iff.mp h
    exact .certified (.encoded hc) hk

theorem exists_of_parsePublic {i : PublicInfo} (h : parsePublic P b = .ok i) :
    ∃ k, findPublic P b = some k ∧ publicInfo P k = .ok i := by
  unfold parsePublic at h
  split at h
  · cases h
  · next k hk => exact ⟨k, hk, h⟩

theorem known_of_parsePublic {i : PublicInfo} (h : parsePublic P b = .ok i) : i.Known P := by
  obtain ⟨k, hk, hinfo⟩ := exists_of_parsePublic h
  exact ⟨k, decodes_of_findPublic hk, hinfo⟩

theorem decodes_of_findPrivate {p : Bytes} {k : PrivateKey} (h : findPrivate P b p = some k) :
    P.DecodesPrivate k := by
  unfold findPrivate at h
  split at h
  · exact .text h
  · rcases (Option.orElse_eq_some _ _ _).mp h with h | ⟨-, h⟩
    · exact .encrypted h
    · exact .encoded h

/-- A private key that is found is parsed, under any password without a zero byte. -/
theorem parsePrivate_of_find {k : PrivateKey} (hpassword : 0 ∉ password.getD [])
    (h : findPrivate P b (password.getD []) = some k) :
    parsePrivate P b password = failing (privateInfo P k) := by
  dsimp only [parsePrivate]
  rw [if_neg hpassword, h]

theorem exists_of_parsePrivate {i : PrivateInfo} (h : parsePrivate P b password = .ok i) :
    ∃ k, findPrivate P b (password.getD []) = some k ∧ privateInfo P k = .ok i := by
  dsimp only [parsePrivate] at h
  split at h
  · cases h
  split at h
  · cases h
  · next k hk => exact ⟨k, hk, failing_eq_ok h⟩

theorem known_of_parsePrivate {i : PrivateInfo} (h : parsePrivate P b password = .ok i) :
    i.Known P := by
  obtain ⟨k, hk, hinfo⟩ := exists_of_parsePrivate h
  exact ⟨k, decodes_of_findPrivate hk, hinfo⟩

variable (P) in
/-- The certificate in a byte string. -/
def findCertificate (input : Bytes) : Option X509 :=
  if Pem.isText input then P.certificateOfText input else P.certificate input

theorem exists_of_parseCertificate {i : CertificateInfo} (h : parseCertificate P b = .ok i) :
    ∃ c, findCertificate P b = some c ∧ certificateInfo P c = .ok i := by
  unfold parseCertificate at h
  split at h
  · cases h
  · next c hc => exact ⟨c, hc, h⟩

theorem known_of_parseCertificate {i : CertificateInfo} (h : parseCertificate P b = .ok i) :
    i.Known P := by
  obtain ⟨c, hc, hinfo⟩ := exists_of_parseCertificate h
  unfold findCertificate at hc
  split at hc
  · exact ⟨c, .text hc, hinfo⟩
  · exact ⟨c, .encoded hc, hinfo⟩

/-- Everything that a container is known to hold was decoded. -/
theorem known_of_parseContainer {i : ContainerInfo} (h : parseContainer P b password = .ok i) :
    i.Known P := by
  dsimp only [parseContainer] at h
  split at h
  · cases h
  split at h
  · cases h
  · next openWith hcontainer =>
    split at h
    · cases h
    split at h
    · cases h
    · next contents hopen =>
      obtain ⟨key, hkey, h⟩ := bind_eq_ok_iff.mp (failing_eq_ok h)
      obtain ⟨certificate, hcertificate, h⟩ := bind_eq_ok_iff.mp h
      obtain ⟨others, hothers, h⟩ := bind_eq_ok_iff.mp h
      cases h
      -- whatever is known of a component, the component was in the container
      have hdecodes : ∀ c ∈ contents.certificate.toList ++ contents.others,
          P.DecodesCertificate c := fun c hc => .contained hcontainer hopen hc
      refine ⟨fun k hk => ?_, fun c hc => ?_, fun c hc => ?_⟩
      · rcases mapM_eq_ok_iff.mp hkey with ⟨-, hnone⟩ | ⟨a, j, ha, hj, hsome⟩
        · rw [hnone] at hk
          cases hk
        · rw [hsome] at hk
          cases hk
          exact ⟨a, .contained hcontainer hopen ha, hj⟩
      · rcases mapM_eq_ok_iff.mp hcertificate with ⟨-, hnone⟩ | ⟨a, j, ha, hj, hsome⟩
        · rw [hnone] at hc
          cases hc
        · rw [hsome] at hc
          cases hc
          exact ⟨a, hdecodes a (by simp [ha]), hj⟩
      · obtain ⟨a, ha, hj⟩ := exists_mem_of_mapM hothers hc
        exact ⟨a, hdecodes a (List.mem_append_right _ ha), hj⟩

end Parse

/-! ### The service -/

namespace Provider.Rereads

variable (hP : P.Rereads)

include hP

/-- **The service gets the public key that was parsed.** -/
theorem decodeKey_public {k : PublicKey} {i : PublicInfo} (hk : P.DecodesPublic k)
    (hi : publicInfo P k = .ok i) :
    Service.decodeKey P i.algorithm false i.encoding = some (.ofPublic k) := by
  obtain ⟨halgorithm, -, hencode, -⟩ := publicInfo_eq_ok hi
  have hsome : k.algorithm?.isSome := by rw [halgorithm]; rfl
  rw [Service.decodeKey, hP.publicKey k i.encoding hk hsome hencode]
  rfl

/-- The service gets the private key that was parsed, as far as its public part goes. -/
theorem exists_decodeKey_private {k : PrivateKey} {i : PrivateInfo} (hk : P.DecodesPrivate k)
    (hi : privateInfo P k = .ok i) :
    ∃ k', Service.decodeKey P i.algorithm true i.bare = some (.ofPrivate k') ∧
      k'.publicKey = k.publicKey := by
  obtain ⟨j, hj, hparameters, -, hbare⟩ := privateInfo_eq_ok hi
  obtain ⟨halgorithm, -, -, -⟩ := publicInfo_eq_ok hj
  -- the algorithm is the one of the public part
  have hsame : k.algorithm? = some i.algorithm := by
    rw [PrivateInfo.algorithm, ← hparameters]
    exact halgorithm
  obtain ⟨k', hk', hpublic⟩ := hP.privateKey k i.algorithm i.bare hk hsame hbare
  refine ⟨k', ?_, hpublic⟩
  rw [Service.decodeKey, if_pos rfl, hk']
  rfl

end Provider.Rereads

end Keyring
