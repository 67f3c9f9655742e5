import Keyring.Proofs.Provider.Curves
import Keyring.Proofs.Session.Answers
import Keyring.Proofs.Session.Released

/-!
# The import policy over a session

Keys are checked against the import policy when they are loaded, before the service sees them, so
that a handle that was loaded is on a key that the policy lets in, for as long as there is one.
Certificates are not checked, and neither are the keys derived from them.  A derived key is one
that the policy lets in if the key that its certificate is known to certify is; if it is not, the
certificate gives it out all the same, where the key itself would have been refused.

## Main definitions

* `Handle.Vetted` — the key of a handle was let in, as far as the handle has one of its own.

## Main results

* `Handle.Backed.vetted` — what a handle tells having been let in, so is its object.
* `Session.Runs.keys_vetted` — **over any session, every key was let in by the policy**, if not
  derived from a certificate of a key that the policy refuses.
* `Session.derived_unvetted` — there are such keys.
-/

namespace Keyring

open Registry

variable {P : Provider} {r r' : Registry} {s s' : Session} {h : Handle} {name : String}
  {e : Entropy}

/-! ### Keys that were let in -/

/-- What is known of a public key is let in by the policy. -/
def PublicInfo.Allowed (i : PublicInfo) : Prop := checkParameters i.parameters i.bitSize = .ok ()

/-- What is known of a private key is let in by the policy. -/
def PrivateInfo.Allowed (i : PrivateInfo) : Prop := checkParameters i.parameters i.bitSize = .ok ()

/-- A public key was let in: so tells the handle, and so it is with its object. -/
structure PublicHandle.Vetted (r : Registry) (k : PublicHandle) : Prop where
  allowed : k.info.Allowed
  object : ∀ x, k.ref = some x → ∃ key, r.HoldsPublic x key ∧ key.Admitted

/-- A private key was let in. -/
structure PrivateHandle.Vetted (r : Registry) (k : PrivateHandle) : Prop where
  allowed : k.info.Allowed
  object : ∀ x, k.ref = some x → ∃ key, r.HoldsPrivate x key ∧ key.publicKey.Admitted

/-- The key of a handle was let in; that of a certificate, once it is derived, if what the
certificate certifies is let in. -/
def Handle.Vetted (r : Registry) : Handle → Prop
  | privateKey k => k.Vetted r
  | publicKey k => k.Vetted r
  | certificate c => ∀ k, c.derived = some k →
    k.info = c.info.publicKey ∧ (c.info.publicKey.Allowed → k.Vetted r)

/-- What a key handle tells is let in. -/
def Handle.Allowed : Handle → Prop
  | privateKey k => k.info.Allowed
  | publicKey k => k.info.Allowed
  | certificate _ => True

/-- What is imported as a key was checked. -/
theorem Imported.allowed (himport : Imported P r r' h) : h.Allowed := by
  cases himport with
  | privateKey hi hrun =>
    obtain ⟨hcheck, rfl⟩ := importPrivate_eq_ok hrun
    exact hcheck
  | publicKey hi hrun =>
    obtain ⟨hcheck, rfl⟩ := importPublic_eq_ok hrun
    exact hcheck
  | certificate hi hrun => trivial

theorem inherited_allowed : Inherited P fun _ h => h.Allowed where
  imported := fun _ _ _ _ himport => himport.allowed
  follow := fun _ _ _ _ _ _ hh => hh
  released := fun _ h hh => by cases h <;> exact hh
  derived := fun _ _ _ _ _ _ hh => hh

/-! ### Their objects -/

section Objects

variable (hC : P.NamesCurves)

include hC

theorem PublicHandle.StandsFor.vetted {k : PublicHandle} {key : PublicKey}
    (hk : k.StandsFor P r key) (hallowed : k.info.Allowed) : k.Vetted r := by
  obtain ⟨y, hy, hobject⟩ := hk.object
  refine ⟨hallowed, fun x hx => ⟨key, ?_, ?_⟩⟩
  · cases hx.symm.trans hy
    exact hobject
  · exact (checkParameters_eq_ok_iff hC (.inl hk.decoded) hk.info).mp hallowed

theorem PrivateHandle.StandsFor.vetted {k : PrivateHandle} {key : PrivateKey}
    (hk : k.StandsFor P r key) (hallowed : k.info.Allowed) : k.Vetted r := by
  obtain ⟨y, hy, hobject⟩ := hk.object
  obtain ⟨i, hi, hparameters, hsize⟩ := hk.info
  refine ⟨hallowed, fun x hx => ⟨key, ?_, ?_⟩⟩
  · cases hx.symm.trans hy
    exact hobject
  · refine (checkParameters_eq_ok_iff hC (.inr hk.decoded) hi).mp ?_
    rw [hparameters, hsize]
    exact hallowed

/-- **What a handle tells having been let in, so is its object.** -/
theorem Handle.Backed.vetted (hh : h.Backed P r) (hcoherent : h.Coherent) (hallowed : h.Allowed) :
    h.Vetted r := by
  cases h with
  | privateKey k =>
    refine ⟨hallowed, fun x hx => ?_⟩
    obtain ⟨key, hk⟩ := hh (by rw [hx]; rfl)
    exact (hk.vetted hC hallowed).object x hx
  | publicKey k =>
    refine ⟨hallowed, fun x hx => ?_⟩
    obtain ⟨key, hk⟩ := hh (by rw [hx]; rfl)
    exact (hk.vetted hC hallowed).object x hx
  | certificate c =>
    intro k hk
    obtain ⟨⟨x, hx⟩, y, rfl⟩ := hcoherent k hk
    refine ⟨rfl, fun hcertified => ?_⟩
    obtain ⟨cert, hc⟩ := hh (by rw [hx]; rfl)
    obtain ⟨key, -, hstands⟩ := hc.derived _ hk
    exact hstands.vetted hC hcertified

end Objects

/-! ### Over a session -/

namespace Session

section Runs

variable (hP : P.Rereads) (hC : P.NamesCurves) (hs : s.Runs P)

include hP hC hs

theorem Runs.vetted : ∀ p ∈ s.handles, p.2.Vetted s.registry := fun p hp =>
  (hs.backed hP p hp).vetted hC (hs.reaches.owned.carries.coherent _ (List.mem_map_of_mem hp))
    (hs.inherit inherited_allowed p hp)

/-- Every key that there is was let in, or it is derived from a certificate of a key that is
refused. -/
theorem Runs.admitted_of_object {x : Ref} {o : KeyObject}
    (ho : s.registry.object x = .ok (.key o)) :
    o.material.publicKey.Admitted ∨ ∃ n c k, (n, .certificate c) ∈ s.handles ∧
      c.derived = some k ∧ k.ref = some x ∧ ¬ c.info.publicKey.Allowed := by
  -- somebody holds it
  obtain ⟨entry, hfind, hobject⟩ := object_eq_ok_iff.mp ho
  obtain ⟨h, hh, hx⟩ := hs.reaches.owned.carries.exists_holdings_iff.mpr
    ⟨entry, hfind, congrArg NativeObject.kind hobject⟩
  obtain ⟨⟨n, h⟩, hmem, rfl⟩ := List.mem_map.mp (Multiset.mem_coe.mp hh)
  have hvetted := hs.vetted hP hC _ hmem
  cases h with
  | privateKey k =>
    simp only [Handle.holdings, List.mem_map, Option.mem_toList, Prod.mk.injEq] at hx
    obtain ⟨_, hk, rfl, -⟩ := hx
    obtain ⟨key, hkey, hadmitted⟩ := hvetted.object _ hk
    cases ho.symm.trans hkey
    exact .inl hadmitted
  | publicKey k =>
    simp only [Handle.holdings, List.mem_map, Option.mem_toList, Prod.mk.injEq] at hx
    obtain ⟨_, hk, rfl, -⟩ := hx
    obtain ⟨key, ⟨canSign, hkey⟩, hadmitted⟩ := hvetted.object _ hk
    cases ho.symm.trans hkey
    exact .inl hadmitted
  | certificate c =>
    simp only [Handle.holdings, List.mem_append, List.mem_map, Option.mem_toList, Prod.mk.injEq,
      Option.bind_eq_some_iff] at hx
    rcases hx with ⟨_, ⟨k, hk, href⟩, rfl, -⟩ | ⟨_, -, -, hkind⟩
    · by_cases hallowed : c.info.publicKey.Allowed
      · obtain ⟨key, ⟨canSign, hkey⟩, hadmitted⟩ := ((hvetted k hk).2 hallowed).object _ href
        cases ho.symm.trans hkey
        exact .inl hadmitted
      · exact .inr ⟨n, c, k, hmem, hk, href, hallowed⟩
    · -- a key is not a certificate
      rw [NativeObject.kind] at hkind
      cases hmaterial : o.material <;> rw [hmaterial] at hkind <;> cases hkind

/-- Whoever asks for a key gets one of which the same is known, and which was let in if that is. -/
theorem Runs.vetted_answer {k : PublicSource} {p : PublicHandle}
    (hfind : s.find? name = some k.handle)
    (hrun : (Request.ofPublic name .key).run P e s =
      .ok (.answer (.handle (.publicKey p))) s') :
    p.info = k.info ∧ (k.info.Allowed → p.Vetted s'.registry) := by
  rcases SessionM.ofPublic_cases hrun with ⟨hunbound, -⟩ | ⟨k₀, k', r', hfind', hcall, rfl⟩
  · cases hunbound
  obtain rfl : k₀ = k := by
    have hhandle := Option.some.inj (hfind'.symm.trans hfind)
    cases k₀ <;> cases k <;> cases hhandle <;> rfl
  obtain ⟨⟨x, k''⟩, r₁, hpublic, hrest⟩ := exists_of_bind_run hcall
  cases x with
  | error err => cases hrest
  | ok p' =>
    cases hrest
    have hmem := mem_of_find? hfind
    cases hreleased : k₀.handle.isReleased with
    | false =>
      obtain ⟨key, hdecoded, hinfo, hat⟩ := hs.exists_at hP hmem hreleased
      obtain ⟨_, _, _, _, hpublic', hp⟩ := hat.exists_publicKey
      cases hpublic'.symm.trans hpublic
      obtain ⟨x, -, hx, hobject⟩ := hp.object
      have hstands : p.StandsFor P r' key := ⟨hdecoded, hp.info ▸ hinfo, x, hx, hobject⟩
      exact ⟨hp.info, fun hallowed => hstands.vetted hC (hp.info ▸ hallowed)⟩
    | true =>
      have hnone := Option.isNone_iff_eq_none.mp hreleased
      cases k₀ with
      | key k =>
        -- a released key is given out as it is
        cases hpublic
        refine ⟨rfl, fun hallowed => ⟨hallowed, fun x hx => ?_⟩⟩
        cases hnone.symm.trans hx
      | certificate c =>
        have hkey := CertificateHandle.key_released (r := s.registry)
          (hs.reaches.owned.coherent hfind) hnone
        cases (bind_run_ok hkey).symm.trans hpublic

end Runs

/-- **Over any session, every key was let in by the import policy**, if not derived from a
certificate of a key that the policy refuses.  Whatever handle there is, of a private or a public
key, tells of a key that is let in, and its object, unless it was released, is an RSA key, a DSA
key in a subgroup of an order of at most 160 bits, or an EC key on one of the three curves.  So is
every key in the service.  Whoever asks for the key of a public key or certificate gets one of
which the same is known; if that is let in, so is the key. -/
theorem Runs.keys_vetted (hP : P.Rereads) (hC : P.NamesCurves) (hs : s.Runs P) :
    (∀ p ∈ s.handles, p.2.Vetted s.registry) ∧
    (∀ x o, s.registry.object x = .ok (.key o) → o.material.publicKey.Admitted ∨
      ∃ n c k, (n, .certificate c) ∈ s.handles ∧ c.derived = some k ∧ k.ref = some x ∧
        ¬ c.info.publicKey.Allowed) ∧
    ∀ n k e p s', s.find? n = some (PublicSource.handle k) →
      (Request.ofPublic n .key).run P e s = .ok (.answer (.handle (.publicKey p))) s' →
        p.info = k.info ∧ (k.info.Allowed → p.Vetted s'.registry) :=
  ⟨hs.vetted hP hC, fun _ _ => hs.admitted_of_object hP hC,
    fun _ _ _ _ _ => hs.vetted_answer hP hC⟩

/-- So it is in a session with a key that is let in and a certificate of one that is not. -/
theorem keys_vetted_curves : ∃ (s : Session) (c : CertificateHandle) (p : PublicHandle),
    s.Runs .curves ∧ s.find? "p" = some (.publicKey p) ∧ p.ref = some 2 ∧
    p.info.parameters = .ec (.named "secp256r1") ∧ p.Vetted s.registry ∧
    s.find? "c" = some (.certificate c) ∧ ¬ c.info.publicKey.Allowed := by
  obtain ⟨s, c, p, hs, hc, hp, -, hinfo, rfl⟩ := exists_runs_curves
  obtain ⟨hvetted, -, -⟩ := hs.keys_vetted Provider.curves_rereads Provider.curves_namesCurves
  have hrefused : ¬ c.info.publicKey.Allowed := by
    rw [hinfo]
    nofun
  exact ⟨s, c, _, hs, hp, rfl, rfl, hvetted _ (mem_of_find? hp), hc, hrefused⟩

/-- A certificate of a key on the curve secp256k1 is loaded and gives out its key, for verifying,
where the key itself is refused. -/
theorem derived_unvetted : ∃ (s s' : Session) (p : PublicHandle) (e : Entropy),
    s.Runs .standard ∧ s'.Runs .standard ∧
    (Request.ofPublic "c" .key).run .standard e s = .ok (.answer (.handle (.publicKey p))) s' ∧
    checkParameters p.info.parameters p.info.bitSize = .error (.unsupportedCurve "secp256k1") ∧
    p.ref = some 2 ∧ s'.registry.HoldsPublic 2 (.ec Elliptic.secp256k1Key) ∧
    (Request.loadPublic "p" (.bytes Elliptic.secp256k1Certificate)).run .standard e s =
      .ok (.failure (.unsupportedCurve "secp256k1")) s := by
  let e : Entropy := fun _ => 0
  have hread := Provider.standard_certificate_secp256k1
  obtain ⟨hpublic, hbare, -⟩ := Provider.standard_isNone_curves
  let c : CertificateHandle :=
    { ref := some 1, info := ⟨Elliptic.secp256k1Certificate, Elliptic.secp256k1Info⟩ }
  obtain ⟨r, hload, ho, hordered, hlast⟩ : ∃ r : Registry,
      (loadCertificate .standard (.bytes Elliptic.secp256k1Certificate)).run {} =
        .ok (.ok c) r ∧ r.object 1 = .ok (.certificate
          ⟨Elliptic.secp256k1Certificate, some (.ec Elliptic.secp256k1Key)⟩) ∧
      r.Ordered ∧ r.last = 1 :=
    ⟨_, loadCertificate_secp256k1 rfl hread, object_insert_last .empty, .insert .empty _, rfl⟩
  let s : Session := ⟨r, [("c", .certificate c)]⟩
  have hruns : s.Runs .standard := Session.Runs.step .start (e := e)
    (q := .loadCertificate "c" (.bytes Elliptic.secp256k1Certificate)) trivial
    (SessionM.load_new (by simp) hload)
  -- the key is given out
  have hkey := CertificateHandle.key_run (c := c) rfl ho rfl rfl
  have hobject := object_insert_last hordered
    (o := .key ⟨.ofPublic (.ec Elliptic.secp256k1Key), false, true⟩)
  rw [hlast] at hkey hobject
  have hfind : s.find? "c" = some (PublicSource.certificate c).handle := rfl
  have hderive := (SessionM.ofPublic_eq .standard .key e hfind).trans
    (bind_run_ok (SessionM.ofRegistry_eq_ok (bind_run_ok (bind_run_ok hkey))))
  -- and refused
  have hrefused :
      (Request.loadPublic "p" (.bytes Elliptic.secp256k1Certificate)).run .standard e s =
      .ok (.failure (.unsupportedCurve "secp256k1")) s :=
    bind_run_ok (SessionM.ofRegistry_eq_ok (loadPublic_secp256k1 rfl hpublic
      (hbare _ (List.mem_cons_of_mem _ (List.mem_cons_of_mem _ List.mem_cons_self))).1 hread))
  exact ⟨s, _, _, e, hruns, hruns.step (q := .ofPublic "c" .key) trivial hderive, hderive, rfl, rfl,
    ⟨false, hobject⟩, hrefused⟩

end Session

end Keyring
