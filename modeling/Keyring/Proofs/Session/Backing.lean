import Keyring.Proofs.Session.Succession

/-!
# What handles stand for

A handle that was not released has an object in the service, and the object is what the handle
was loaded from: a key of the class and algorithm that the handle tells, of the size and with the
parameters that it tells, or a certificate of such a key.  The key that a certificate has derived
is the key in the certificate.  Of the service this asks that it reads back what was written.

## Main definitions

* `PublicHandle.StandsFor`, `PrivateHandle.StandsFor`, `CertificateHandle.StandsFor` — what an
  unreleased handle has in the service.
* `Handle.Backed` — a handle that stands for something unless it was released.

## Main results

* `importPrivate_eq`, `importPublic_eq`, `importCertificate_eq` — what is imported once it is
  allowed.
* `CertificateHandle.StandsFor.of_derive` — deriving its key, a certificate stands for the same.
* `Session.Runs.backed` — **in every session, handles are backed.**
-/

namespace Keyring

open Registry

variable {P : Provider} {r r' : Registry} {s : Session} {h : Handle}

/-! ### Objects of handles -/

/-- Under a reference there is a public key, which may verify and may or may not sign. -/
def Registry.HoldsPublic (r : Registry) (x : Ref) (key : PublicKey) : Prop :=
  ∃ canSign, r.object x = .ok (.key ⟨.ofPublic key, canSign, true⟩)

/-- Under a reference there is a private key, which may sign and verify. -/
def Registry.HoldsPrivate (r : Registry) (x : Ref) (key : PrivateKey) : Prop :=
  r.object x = .ok (.key ⟨.ofPrivate key, true, true⟩)

/-- What is not a transform stays under its reference for as long as there is anything. -/
theorem Registry.Follows.object_eq {x : Ref} {o : NativeObject} (hfollows : r.Follows r')
    (hr : r.Sound) (ho : r.object x = .ok o) (hkind : o.kind ≠ .transform)
    (hthere : ∃ o', r'.object x = .ok o') : r'.object x = .ok o := by
  obtain ⟨o', ho'⟩ := hthere
  rcases hfollows.object x o' (hr.ordered.le_last_of_object ho) ho' with hbefore | ⟨t, -, ht, -⟩
  · rwa [ho.symm.trans hbefore]
  · -- only transforms change, and this is none
    rw [ho] at ht
    cases ht
    exact absurd rfl hkind

variable (P) in
/-- A public key handle stands for a key that was decoded: its object is the key, and what it
tells is known of the key. -/
structure PublicHandle.StandsFor (r : Registry) (k : PublicHandle) (key : PublicKey) : Prop where
  decoded : P.DecodesPublic key
  info : publicInfo P key = .ok k.info
  object : ∃ x, k.ref = some x ∧ r.HoldsPublic x key

variable (P) in
/-- A private key handle stands for a key: its object is the key, with the public part of one that
was decoded, and what it tells of algorithm, parameters and size is known of that part. -/
structure PrivateHandle.StandsFor (r : Registry) (k : PrivateHandle) (key : PrivateKey) : Prop where
  decoded : ∃ key', P.DecodesPrivate key' ∧ key'.publicKey = key.publicKey
  info : ∃ i, publicInfo P key.publicKey = .ok i ∧ i.parameters = k.info.parameters ∧
    i.bitSize = k.info.bitSize
  object : ∃ x, k.ref = some x ∧ r.HoldsPrivate x key

variable (P) in
/-- A certificate handle stands for a certificate that was decoded: its object is the
certificate, and what it tells is known of the certificate.  The key that it has derived stands
for the key in the certificate. -/
structure CertificateHandle.StandsFor (r : Registry) (c : CertificateHandle) (cert : X509) :
    Prop where
  decoded : P.DecodesCertificate cert
  info : certificateInfo P cert = .ok c.info
  object : ∃ x, c.ref = some x ∧ r.object x = .ok (.certificate cert)
  derived : ∀ k, c.derived = some k → ∃ key, cert.key = some key ∧ k.StandsFor P r key

variable (P) in
/-- A handle stands for a key or certificate, unless it was released. -/
def Handle.Backed (r : Registry) : Handle → Prop
  | privateKey k => k.ref.isSome → ∃ key, k.StandsFor P r key
  | publicKey k => k.ref.isSome → ∃ key, k.StandsFor P r key
  | certificate c => c.ref.isSome → ∃ cert, c.StandsFor P r cert

/-! ### What stays of them -/

section Follow

variable (hr : r.Sound) (hfollows : r.Follows r')

include hr hfollows

theorem PublicHandle.StandsFor.follow {k : PublicHandle} {key : PublicKey}
    (hk : k.StandsFor P r key)
    (hthere : ∀ x, k.ref = some x → ∃ o, r'.object x = .ok o) : k.StandsFor P r' key := by
  obtain ⟨x, hx, canSign, ho⟩ := hk.object
  exact ⟨hk.decoded, hk.info, x, hx, canSign,
    hfollows.object_eq hr ho nofun (hthere x hx)⟩

theorem PrivateHandle.StandsFor.follow {k : PrivateHandle} {key : PrivateKey}
    (hk : k.StandsFor P r key)
    (hthere : ∀ x, k.ref = some x → ∃ o, r'.object x = .ok o) : k.StandsFor P r' key := by
  obtain ⟨x, hx, ho⟩ := hk.object
  exact ⟨hk.decoded, hk.info, x, hx, hfollows.object_eq hr ho nofun (hthere x hx)⟩

theorem CertificateHandle.StandsFor.follow {c : CertificateHandle} {cert : X509}
    (hc : c.StandsFor P r cert)
    (hthere : ∀ x ∈ (Handle.certificate c).owns, ∃ o, r'.object x = .ok o) :
    c.StandsFor P r' cert := by
  obtain ⟨x, hx, ho⟩ := hc.object
  have hmem : x ∈ (Handle.certificate c).owns :=
    List.mem_append_right _ (by rw [hx]; exact List.mem_singleton_self x)
  refine ⟨hc.decoded, hc.info, ⟨x, hx, hfollows.object_eq hr ho nofun (hthere x hmem)⟩,
    fun k hk => ?_⟩
  -- the key that was derived has an object of its own, which is owned as well
  obtain ⟨key, hkey, hstands⟩ := hc.derived k hk
  refine ⟨key, hkey, hstands.follow hr hfollows fun y hy => hthere y ?_⟩
  refine List.mem_append_left _ ?_
  rw [hk, Option.bind_some, hy]
  exact List.mem_singleton_self y

theorem Handle.Backed.follow (hh : h.Backed P r)
    (hthere : ∀ x ∈ h.owns, ∃ o, r'.object x = .ok o) : h.Backed P r' := by
  cases h with
  | privateKey k =>
    intro hlive
    obtain ⟨key, hk⟩ := hh hlive
    exact ⟨key, hk.follow hr hfollows fun x hx => hthere x (by simp [owns, hx])⟩
  | publicKey k =>
    intro hlive
    obtain ⟨key, hk⟩ := hh hlive
    exact ⟨key, hk.follow hr hfollows fun x hx => hthere x (by simp [owns, hx])⟩
  | certificate c =>
    intro hlive
    obtain ⟨cert, hc⟩ := hh hlive
    exact ⟨cert, hc.follow hr hfollows hthere⟩

end Follow

/-! ### Deriving -/

theorem CertificateHandle.StandsFor.exists_key {c : CertificateHandle} {cert : X509}
    (hc : c.StandsFor P r cert) : ∃ key, cert.key = some key ∧ P.DecodesPublic key ∧
      publicInfo P key = .ok c.info.publicKey := by
  obtain ⟨key, hkey, hinfo, -⟩ := certificateInfo_eq_ok hc.info
  exact ⟨key, hkey, .certified hc.decoded hkey, hinfo⟩

/-- A certificate that has derived its key stands for what it stood for. -/
theorem CertificateHandle.StandsFor.of_derive {c : CertificateHandle} {cert : X509}
    {k : PublicHandle} (hr : r.Sound) (hc : c.StandsFor P r cert)
    (hderive : c.derive.run r = .ok (.ok k) r') :
    CertificateHandle.StandsFor P r' { c with derived := some k } cert := by
  obtain ⟨key, hkey, hdecoded, hinfo⟩ := hc.exists_key
  obtain ⟨x, hx, ho⟩ := hc.object
  cases (CertificateHandle.derive_run hx ho hkey).symm.trans hderive
  refine ⟨hc.decoded, hc.info, ⟨x, hx, object_insert_of_ok hr.ordered ho⟩, fun k' hk' => ?_⟩
  cases hk'
  exact ⟨key, hkey, hdecoded, hinfo, _, rfl, false, object_insert_last hr.ordered⟩

/-! ### Importing -/

section Import

variable (hP : P.Rereads)

include hP

/-- A public key that is allowed is imported. -/
theorem importPublic_eq {i : PublicInfo} {key : PublicKey} (hkey : P.DecodesPublic key)
    (hinfo : publicInfo P key = .ok i) (hcheck : checkParameters i.parameters i.bitSize = .ok ()) :
    (importPublic P i).run r = .ok (.ok ⟨some (r.last + 1), i⟩)
      (r.insert (.key ⟨.ofPublic key, true, true⟩)) :=
  importPublic_run hcheck (hP.decodeKey_public hkey hinfo) (publicInfo_eq_ok hinfo).1

/-- A private key that is allowed is imported as a key with the same public part. -/
theorem importPrivate_eq {i : PrivateInfo} (hi : i.Known P)
    (hcheck : checkParameters i.parameters i.bitSize = .ok ()) :
    ∃ key j, (∃ key', P.DecodesPrivate key' ∧ key'.publicKey = key.publicKey) ∧
      publicInfo P key.publicKey = .ok j ∧ j.parameters = i.parameters ∧ j.bitSize = i.bitSize ∧
      ∀ r, (importPrivate P i).run r = .ok (.ok ⟨some (r.last + 1), i⟩)
        (r.insert (.key ⟨.ofPrivate key, true, true⟩)) := by
  obtain ⟨k, hdecodes, hk⟩ := hi
  obtain ⟨j, hj, hparameters, hsize, -⟩ := privateInfo_eq_ok hk
  obtain ⟨key, hdecode, hpublic⟩ := hP.exists_decodeKey_private hdecodes hk
  refine ⟨key, j, ⟨k, hdecodes, hpublic.symm⟩, by rw [hpublic, hj], hparameters, hsize,
    fun r => importPrivate_run hcheck hdecode ?_⟩
  -- the key that is read again has the same public part, which is all that the algorithm depends on
  rw [← hparameters, KeyMaterial.algorithm?, KeyMaterial.publicKey, hpublic]
  exact (publicInfo_eq_ok hj).1

/-- A certificate is imported without conditions. -/
theorem importCertificate_eq {i : CertificateInfo} {cert : X509}
    (hcert : P.DecodesCertificate cert) (hinfo : certificateInfo P cert = .ok i) :
    (importCertificate P i).run r = .ok (.ok { ref := some (r.last + 1), info := i })
      (r.insert (.certificate cert)) := by
  obtain ⟨-, -, -, hencoding⟩ := certificateInfo_eq_ok hinfo
  exact importCertificate_run (by rw [hencoding, hP.certificate cert hcert])

/-- A handle stands for what it was imported from. -/
theorem Imported.backed (hr : r.Sound) (himport : Imported P r r' h) : h.Backed P r' := by
  cases himport with
  | @privateKey i k _ _ hi hrun =>
    intro _
    obtain ⟨key, j, hdecoded, hj, hparameters, hsize, heq⟩ :=
      importPrivate_eq hP hi (importPrivate_eq_ok hrun).1
    cases (heq r).symm.trans hrun
    exact ⟨key, hdecoded, ⟨j, hj, hparameters, hsize⟩, _, rfl, object_insert_last hr.ordered⟩
  | @publicKey i k _ _ hi hrun =>
    intro _
    obtain ⟨key, hdecodes, hinfo⟩ := hi
    cases (importPublic_eq hP hdecodes hinfo (importPublic_eq_ok hrun).1).symm.trans hrun
    exact ⟨key, hdecodes, hinfo, _, rfl, true, object_insert_last hr.ordered⟩
  | @certificate i c _ _ hi hrun =>
    intro _
    obtain ⟨cert, hdecodes, hinfo⟩ := hi
    cases (importCertificate_eq hP hdecodes hinfo).symm.trans hrun
    exact ⟨cert, hdecodes, hinfo, ⟨_, rfl, object_insert_last hr.ordered⟩, by rintro _ ⟨⟩⟩

theorem inherited_backed : Inherited P (Handle.Backed P) where
  imported := fun _ _ _ hr himport => himport.backed hP hr
  follow := fun _ _ _ hr hfollows hthere hh => hh.follow hr hfollows hthere
  released := fun _ h _ => by cases h <;> nofun
  derived := by
    intro r r' c k hr hderive hh hlive
    obtain ⟨cert, hc⟩ := hh hlive
    exact ⟨cert, hc.of_derive hr hderive⟩

/-- **In every session, handles are backed.** -/
theorem Session.Runs.backed (hs : s.Runs P) : ∀ p ∈ s.handles, p.2.Backed P s.registry :=
  hs.inherit (inherited_backed hP)

end Import

end Keyring
