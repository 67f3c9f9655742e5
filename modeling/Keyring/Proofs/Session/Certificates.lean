import Keyring.Proofs.Provider.Narrow
import Keyring.Proofs.Session.Answers

/-!
# Certificates in place of public keys

Whoever has a certificate has its public key: loaded from the encoding of the certificate, or
from that of the key alone, the key is told the same, and every operation on it ends as the same
operation on the certificate does.  The two come to their objects on different ways.  One copies
the key out of the certificate, for verifying only; the other has it decoded, as a key for
everything.

## Main definitions

* `Provider.Distinguishes` — encodings are not taken for what they are not.

## Main results

* `parsePublic_of_publicInfo`, `parsePublic_of_certificateInfo` — what is parsed of the encodings
  of a key and of a certificate.
* `Session.Runs.certificate_answers` — **a certificate answers as the key that was loaded from
  it.**
-/

namespace Keyring

variable {P : Provider} {r r' : Registry} {s : Session} {n m : String} {c : CertificateHandle}
  {p : PublicHandle} {d : Bytes} {e : Entropy}

/-! ### Parsing what was written -/

/-- Encodings are not taken for what they are not: those of keys and certificates are sequences,
so that they are not text, and a certificate is not a key. -/
structure Provider.Distinguishes (P : Provider) : Prop where
  publicKey : ∀ k b, P.encodePublic k = some b → b.head? = some 0x30
  certificate : ∀ c, P.DecodesCertificate c → c.encoding.head? = some 0x30
  notKey : ∀ c, P.DecodesCertificate c →
    P.publicKey c.encoding = none ∧ P.rsaPublicKey c.encoding = none

/-- A sequence is not text. -/
theorem Pem.isText_of_head {b : Bytes} (h : b.head? = some 0x30) : isText b = false := by
  cases b with
  | nil => cases h
  | cons x rest =>
    cases h
    rfl

/-- A key is written as a sequence. -/
theorem PublicKey.head?_write {key : PublicKey} {b : Bytes} (h : key.write = some b) :
    b.head? = some 0x30 := by
  cases key with
  | rsa k | dsa k =>
    cases h
    rfl
  | ec k =>
    obtain ⟨parameters, -, h⟩ := Option.bind_eq_some_iff.mp h
    obtain ⟨point, -, h⟩ := Option.bind_eq_some_iff.mp h
    cases h
    rfl
  | rsaPss k | other name => cases h

/-- The provider for one key takes neither for the other. -/
theorem Provider.narrow_distinguishes : Provider.narrow.Distinguishes where
  publicKey := fun _ _ h => PublicKey.head?_write h
  certificate := by
    intro c hc
    rw [hc.of_narrow]
    rfl
  notKey := by
    intro c hc
    have hmem : Rsa.mersenneCertificate ∈
        [Rsa.mersennePublic, Rsa.mersenneKey.write, Rsa.mersenneCertificate] :=
      List.mem_cons_of_mem _ (List.mem_cons_of_mem _ List.mem_cons_self)
    obtain ⟨hpublic, hbare, -⟩ := standard_mersenne.2
    rw [hc.of_narrow]
    exact ⟨(taking_publicKey hmem).trans (hpublic _ (List.mem_cons_of_mem _ List.mem_cons_self)),
      (taking_rsaPublicKey hmem).trans (hbare _ hmem)⟩

section Parse

variable (hP : P.Rereads) (hD : P.Distinguishes)

include hP hD

theorem parsePublic_of_publicInfo {key : PublicKey} {i : PublicInfo} (hkey : P.DecodesPublic key)
    (hinfo : publicInfo P key = .ok i) : parsePublic P i.encoding = .ok i := by
  obtain ⟨halgorithm, -, hencode, -⟩ := publicInfo_eq_ok hinfo
  have htext := Pem.isText_of_head (hD.publicKey key i.encoding hencode)
  have hread := hP.publicKey key i.encoding hkey (by rw [halgorithm]; rfl) hencode
  have hfind : findPublic P i.encoding = some key := by
    rw [findPublic, htext, if_neg Bool.false_ne_true, hread]
    rfl
  rw [parsePublic, hfind]
  exact hinfo

theorem parsePublic_of_certificateInfo {cert : X509} {i : CertificateInfo}
    (hcert : P.DecodesCertificate cert) (hinfo : certificateInfo P cert = .ok i) :
    parsePublic P i.encoding = .ok i.publicKey := by
  obtain ⟨key, hkey, hpublic, hencoding⟩ := certificateInfo_eq_ok hinfo
  obtain ⟨hnone, hnone'⟩ := hD.notKey cert hcert
  have htext := Pem.isText_of_head (hD.certificate cert hcert)
  have hfind : findPublic P i.encoding = some key := by
    rw [hencoding, findPublic, htext, if_neg Bool.false_ne_true, hnone, hnone',
      hP.certificate cert hcert]
    exact hkey
  rw [parsePublic, hfind]
  exact hpublic

end Parse

/-- A loaded key tells what was parsed. -/
theorem info_of_loadPublic (hload : (loadPublic P (.bytes d)).run r = .ok (.ok p) r') :
    parsePublic P d = .ok p.info := by
  obtain ⟨i, r₁, hparse, himport⟩ := Action.exists_of_run_bind hload
  obtain ⟨-, rfl⟩ := importPublic_eq_ok himport
  exact failing_eq_ok (Action.ofParsed_eq_ok hparse)

/-- A key is told by what is known of it. -/
theorem Provider.Rereads.publicKey_inj (hP : P.Rereads) {k k' : PublicKey} {i : PublicInfo}
    (hk : P.DecodesPublic k) (hk' : P.DecodesPublic k') (hi : publicInfo P k = .ok i)
    (hi' : publicInfo P k' = .ok i) : k = k' := by
  have hread := hP.decodeKey_public hk hi
  rw [hP.decodeKey_public hk' hi'] at hread
  cases hread
  rfl

/-! ### Requests -/

/-- What becomes of a request on a public key or certificate. -/
theorem outcomeOf_ofPublic {k : PublicSource} {q : PublicRequest}
    (hfind : s.find? n = some k.handle) :
    outcomeOf ((Request.ofPublic n q).run P e s) =
      (outcomeOf (q.run P k e s.registry)).map Prod.fst := by
  rw [SessionM.ofPublic_eq P q e hfind]
  cases hrun : q.run P k e s.registry with
  | ok a r' =>
    rw [bind_run_ok (SessionM.ofRegistry_eq_ok hrun)]
    rfl
  | error halt r' =>
    rw [bind_run_error (SessionM.ofRegistry_eq_error hrun)]
    rfl

namespace Session

/-- **A certificate answers as the key that was loaded from it**, whether from its own encoding
or from that of its key.  Let both be held and neither released.  Then the key is told the same as
the key of the certificate, asked for either way, and any other request ends in the same way on
both: with the same answer, the same failure, or without end.  Whether the certificate has derived
its key before does not matter. -/
theorem Runs.certificate_answers (hP : P.Rereads) (hD : P.Distinguishes) (hs : s.Runs P)
    (hc : s.find? n = some (.certificate c)) (hp : s.find? m = some (.publicKey p))
    (hclive : c.ref.isSome) (hplive : p.ref.isSome)
    (hload : (loadPublic P (.bytes d)).run r = .ok (.ok p) r')
    (hd : d = c.info.encoding ∨ d = c.info.publicKey.encoding) :
    p.info = c.info.publicKey ∧
    (∀ e, ∃ k, outcomeOf ((Request.ofPublic n .key).run P e s) =
      .ok (.answer (.handle (.publicKey k))) ∧ k.info = p.info) ∧
    ∀ q e, q ≠ .key → outcomeOf ((Request.ofPublic n q).run P e s) =
      outcomeOf ((Request.ofPublic m q).run P e s) := by
  -- both are at a key, and it is told the same of both
  have hcfind : s.find? n = some (PublicSource.certificate c).handle := hc
  have hpfind : s.find? m = some (PublicSource.key p).handle := hp
  obtain ⟨key, hkey, hinfo, hat⟩ :=
    hs.exists_at hP (mem_of_find? hcfind) (Option.isNone_eq_false_iff.mpr hclive)
  obtain ⟨key', hkey', hinfo', hat'⟩ :=
    hs.exists_at hP (mem_of_find? hpfind) (Option.isNone_eq_false_iff.mpr hplive)
  have hparse : parsePublic P d = .ok c.info.publicKey := by
    rcases hd with rfl | rfl
    · obtain ⟨cert, hstands⟩ := hs.backed hP _ (mem_of_find? hcfind) hclive
      exact parsePublic_of_certificateInfo hP hD hstands.decoded hstands.info
    · exact parsePublic_of_publicInfo hP hD hkey hinfo
  have hsame : p.info = c.info.publicKey :=
    Except.ok.inj ((info_of_loadPublic hload).symm.trans hparse)
  -- so it is the same key
  have hinfo'' : publicInfo P key' = .ok c.info.publicKey := hsame ▸ hinfo'
  have hat'' : (PublicSource.key p).At key' c.info.publicKey s.registry (ownedBy s.all) :=
    hsame ▸ hat'
  obtain rfl := hP.publicKey_inj hkey hkey' hinfo hinfo''
  refine ⟨hsame, fun e => ?_, fun q e hq => ?_⟩
  · obtain ⟨k, s', r₁, owned', hpublic, hk⟩ := hat.exists_publicKey
    refine ⟨k, ?_, hk.info.trans hsame.symm⟩
    rw [outcomeOf_ofPublic hcfind]
    exact congrArg (fun x => (outcomeOf x).map Prod.fst) (bind_run_ok hpublic)
  · obtain ⟨answer, -, hanswers⟩ := q.answers_run hinfo hq e
    rw [outcomeOf_ofPublic hcfind, outcomeOf_ofPublic hpfind]
    exact (hanswers _ _ _ hat).trans (hanswers _ _ _ hat'').symm

/-- So it is with the certificate of a session and the key that was loaded from it. -/
theorem certificate_answers_narrow : ∃ (s : Session) (c : CertificateHandle) (p : PublicHandle),
    s.Runs .narrow ∧ s.find? "c" = some (.certificate c) ∧ s.find? "p" = some (.publicKey p) ∧
    p.info = c.info.publicKey ∧
    (∀ e, ∃ k, outcomeOf ((Request.ofPublic "c" .key).run .narrow e s) =
      .ok (.answer (.handle (.publicKey k))) ∧ k.info = p.info) ∧
    ∀ q e, q ≠ .key → outcomeOf ((Request.ofPublic "c" q).run .narrow e s) =
      outcomeOf ((Request.ofPublic "p" q).run .narrow e s) := by
  obtain ⟨s, c, p, k, r, r', hs, hhandles, hc, hp, -, hload⟩ := exists_runs_narrow
  have hcfind : s.find? "c" = some (.certificate c) := by
    rw [Session.find?, hhandles]
    rfl
  have hpfind : s.find? "p" = some (.publicKey p) := by
    rw [Session.find?, hhandles]
    rfl
  exact ⟨s, c, p, hs, hcfind, hpfind, hs.certificate_answers Provider.narrow_rereads
    Provider.narrow_distinguishes hcfind hpfind (by rw [hc]; rfl) (by rw [hp]; rfl) hload
    (.inl rfl)⟩

end Session

end Keyring
