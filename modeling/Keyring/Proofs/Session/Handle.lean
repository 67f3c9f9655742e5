import Keyring.Proofs.Key.Inspection
import Keyring.Proofs.Service.Ownership
import Keyring.Session.Handle
import Keyring.Session.Loading

/-!
# Handles that are live

A handle is live while the service has its object, and the object is the key or the
certificate that the handle was loaded from.  What is known of an RSA key through a live
handle is true of the key in the service.

## Main definitions

* `Action.FailsWith` — a call fails with errors of one sort only.
* `PublicHandle.Live`, `PrivateHandle.Live`, `CertificateHandle.Live`,
  `PublicSource.Live` — handles that are live on an RSA key.

## Main results

* `Action.run_bind_ok`, `Action.run_bind_error` — the steps of a call of the library.
* `importPrivate_run`, `importPublic_run`, `importCertificate_run` — what is imported when.
* `importPrivate_eq_ok`, `importPublic_eq_ok` — what was imported was checked.
* `CertificateHandle.derive_run` — **a certificate derives the key in it.**
* `PublicSource.exists_publicKey` — **a live source supplies a live public key.**
* `modulus_of_publicInfo` — the modulus that a live handle tells.
-/

namespace Keyring

open Registry

/-! ### Steps of calls -/

theorem bind_run_ok {ε σ α β : Type} {x : EStateM ε σ α} {f : α → EStateM ε σ β} {a : α}
    {s s' : σ} (h : x s = .ok a s') : (x >>= f) s = f a s' := by
  show EStateM.bind x f s = _
  rw [EStateM.bind, h]

theorem bind_run_error {ε σ α β : Type} {x : EStateM ε σ α} {f : α → EStateM ε σ β} {e : ε}
    {s s' : σ} (h : x s = .error e s') : (x >>= f) s = .error e s' := by
  show EStateM.bind x f s = _
  rw [EStateM.bind, h]

/-- What comes to an end has done so at every step. -/
theorem exists_of_bind_run {ε σ α β : Type} {x : EStateM ε σ α} {f : α → EStateM ε σ β} {b : β}
    {s s'' : σ} (h : (x >>= f) s = .ok b s'') : ∃ a s', x s = .ok a s' ∧ f a s' = .ok b s'' := by
  change EStateM.bind x f s = _ at h
  rw [EStateM.bind] at h
  cases hx : x s with
  | error e s' =>
    rw [hx] at h
    cases h
  | ok a s' =>
    rw [hx] at h
    exact ⟨a, s', rfl, h⟩

namespace Action

variable {α β : Type} {x : Action α} {f : α → Action β} {r r' : Registry}

theorem run_bind_ok {a : α} (h : x.run r = .ok (.ok a) r') : (x >>= f).run r = (f a).run r' := by
  show EStateM.bind x.run _ r = _
  rw [EStateM.bind, h]
  rfl

theorem run_bind_error {e : CryptoError} (h : x.run r = .ok (.error e) r') :
    (x >>= f).run r = .ok (.error e) r' := by
  show EStateM.bind x.run _ r = _
  rw [EStateM.bind, h]
  rfl

/-- What a call with two steps ends with, the first step has failed with, or the second has. -/
theorem run_bind_cases {result : Except CryptoError β} {r'' : Registry}
    (h : (x >>= f).run r = .ok result r'') :
    (∃ e, x.run r = .ok (.error e) r'' ∧ result = .error e) ∨
      ∃ a r', x.run r = .ok (.ok a) r' ∧ (f a).run r' = .ok result r'' := by
  obtain ⟨answer, r', hx, h⟩ := exists_of_bind_run h
  cases answer with
  | error e =>
    cases h
    exact .inl ⟨e, hx, rfl⟩
  | ok a => exact .inr ⟨a, r', hx, h⟩

/-- What succeeds has succeeded at every step. -/
theorem exists_of_run_bind {b : β} {r'' : Registry} (h : (x >>= f).run r = .ok (.ok b) r'') :
    ∃ a r', x.run r = .ok (.ok a) r' ∧ (f a).run r' = .ok (.ok b) r'' := by
  rcases run_bind_cases h with ⟨e, -, he⟩ | hok
  · cases he
  · exact hok

@[simp] theorem run_pure (a : α) : (pure a : Action α).run r = .ok (.ok a) r := rfl

@[simp] theorem run_ofExcept (e : Except CryptoError α) : (ofExcept e).run r = .ok e r := rfl

theorem run_ofService {s : Service α} {a : Except ServiceError α} (h : s r = .ok a r') :
    (ofService s).run r = .ok (a.mapError CryptoError.service) r' := by
  show EStateM.map _ s r = _
  rw [EStateM.map, h]

/-- Wherever a call is made, it fails with errors of one sort only. -/
def FailsWith (sort : CryptoError → Prop) (x : Action α) : Prop :=
  ∀ r err r', x.run r = .ok (.error err) r' → sort err

variable {sort : CryptoError → Prop}

theorem FailsWith.bind (hx : x.FailsWith sort)
    (hf : ∀ a r r', x.run r = .ok (.ok a) r' → (f a).FailsWith sort) :
    (x >>= f).FailsWith sort := by
  intro r err r'' hrun
  rcases run_bind_cases hrun with ⟨err', herror, heq⟩ | ⟨a, r', hok, hrest⟩
  · cases heq
    exact hx r err r'' herror
  · exact hf a r r' hok r' err r'' hrest

/-- Cleaning up does not change the error. -/
theorem FailsWith.onError (hx : x.FailsWith sort) (cleanup : EStateM Halt Registry Unit) :
    (x.onError cleanup).FailsWith sort := by
  intro r err r'' hrun
  obtain ⟨answer, r', hanswer, hrest⟩ := exists_of_bind_run hrun
  cases answer with
  | ok a => cases hrest
  | error err' =>
    obtain ⟨u, r₁, -, hrest⟩ := exists_of_bind_run hrest
    cases hrest
    exact hx r err r' hanswer

end Action

/-- A certificate that derives its key was not released, and neither is the key. -/
theorem CertificateHandle.eq_of_derive {c : CertificateHandle} {k : PublicHandle}
    {r r' : Registry} (h : c.derive.run r = .ok (.ok k) r') :
    ∃ x y, c.ref = some x ∧ k = ⟨some y, c.info.publicKey⟩ := by
  obtain ⟨x, r₁, hx, h⟩ := Action.exists_of_run_bind h
  obtain ⟨y, r₂, -, h⟩ := Action.exists_of_run_bind h
  cases h
  refine ⟨x, y, ?_, rfl⟩
  -- the first step has found a reference in the handle
  have howned : owned c.ref = .ok x := (EStateM.Result.ok.inj hx).1
  cases href : c.ref with
  | none =>
    rw [href] at howned
    cases howned
  | some x' =>
    rw [href] at howned
    cases howned
    rfl

/-! ### Live handles -/

variable {P : Provider} {r r' : Registry} {key : Rsa.PublicKey}

/-- A public key handle is live on an RSA key. -/
structure PublicHandle.Live (P : Provider) (r : Registry) (key : Rsa.PublicKey)
    (k : PublicHandle) : Prop where
  /-- Its object is the key. -/
  object : ∃ x o, k.ref = some x ∧ r.object x = .ok (.key o) ∧ o.material = .ofPublic (.rsa key)
  /-- It was loaded from the key. -/
  info : publicInfo P (.rsa key) = .ok k.info

/-- A private key handle is live on an RSA key. -/
structure PrivateHandle.Live (P : Provider) (r : Registry) (key : Rsa.PrivateKey)
    (k : PrivateHandle) : Prop where
  /-- Its object is the key. -/
  object : ∃ x o, k.ref = some x ∧ r.object x = .ok (.key o) ∧ o.material = .ofPrivate (.rsa key)
  /-- It was loaded from the key. -/
  info : privateInfo P (.rsa key) = .ok k.info

/-- A certificate handle is live on an RSA key. -/
structure CertificateHandle.Live (P : Provider) (r : Registry) (key : Rsa.PublicKey)
    (c : CertificateHandle) : Prop where
  /-- Its object is a certificate of the key. -/
  object : ∃ x o, c.ref = some x ∧ r.object x = .ok (.certificate o) ∧ o.key = some (.rsa key)
  /-- It was loaded from a certificate of the key. -/
  info : publicInfo P (.rsa key) = .ok c.info.publicKey
  /-- The key that was derived from it is live. -/
  derived : ∀ k, c.derived = some k → k.Live P r key

/-- A source of a public key is live on an RSA key. -/
def PublicSource.Live (P : Provider) (r : Registry) (key : Rsa.PublicKey) : PublicSource → Prop
  | .key k => k.Live P r key
  | .certificate c => c.Live P r key

section Mono

variable (h : ∀ x o, r.object x = .ok o → r'.object x = .ok o)

include h

theorem PublicHandle.Live.mono {k : PublicHandle} (hk : k.Live P r key) : k.Live P r' key := by
  obtain ⟨x, o, hx, ho, hkey⟩ := hk.object
  exact ⟨⟨x, o, hx, h x _ ho, hkey⟩, hk.info⟩

theorem CertificateHandle.Live.mono {c : CertificateHandle} (hc : c.Live P r key) :
    c.Live P r' key := by
  obtain ⟨x, o, hx, ho, hkey⟩ := hc.object
  exact ⟨⟨x, o, hx, h x _ ho, hkey⟩, hc.info, fun k hk => (hc.derived k hk).mono h⟩

theorem PublicSource.Live.mono {s : PublicSource} (hs : s.Live P r key) : s.Live P r' key := by
  cases s with
  | key k => exact PublicHandle.Live.mono h hs
  | certificate c => exact CertificateHandle.Live.mono h hs

end Mono

/-- References that are used up do not matter. -/
theorem PublicSource.Live.skip {s : PublicSource} (hs : s.Live P r key) (n : Nat) :
    s.Live P { r with last := n } key := by
  have hkeep : ∀ x o, r.object x = .ok o → Registry.object { r with last := n } x = .ok o :=
    fun _ _ h => h
  exact hs.mono hkeep

/-! ### What a live handle tells of its key -/

theorem publicInfo_rsa {i : PublicInfo} (h : publicInfo P (.rsa key) = .ok i) :
    i.parameters = .rsa ∧ i.bitSize = key.bitSize ∧
      P.encodePublic (.rsa key) = some i.encoding := by
  unfold publicInfo at h
  rw [if_neg (by simp [PublicKey.algorithm?])] at h
  cases hencode : P.encodePublic (.rsa key) with
  | none => simp [hencode] at h
  | some b =>
    rw [hencode] at h
    cases h
    exact ⟨rfl, rfl, rfl⟩

theorem privateInfo_rsa {key : Rsa.PrivateKey} {i : PrivateInfo}
    (h : privateInfo P (.rsa key) = .ok i) :
    ∃ j, publicInfo P (.rsa key.publicKey) = .ok j ∧ i.parameters = .rsa ∧
      i.bitSize = key.publicKey.bitSize := by
  obtain ⟨j, hj, h⟩ := bind_eq_ok_iff.mp h
  obtain ⟨hparameters, hsize, -⟩ := publicInfo_rsa hj
  refine ⟨j, hj, ?_⟩
  split at h
  · cases h
    exact ⟨hparameters, hsize⟩
  · cases h

/-- The encoder writes RSA public keys as they are written here, within the lengths that
can be read back. -/
def Provider.EncodesRsa (P : Provider) (key : Rsa.PublicKey) : Prop :=
  ∀ b, P.encodePublic (.rsa key) = some b →
    PublicKey.write (.rsa key) = some b ∧ b.length < 2 ^ 32

/-- The modulus that is told of a key is its modulus, and it is not excessively long. -/
theorem modulus_of_publicInfo {i : PublicInfo} (hP : P.EncodesRsa key)
    (h : publicInfo P (.rsa key) = .ok i) :
    i.modulus = some (Bytes.minimal key.modulus) ∧ key.bitSize < 2 ^ 35 := by
  obtain ⟨-, -, hencode⟩ := publicInfo_rsa h
  obtain ⟨hwrite, hlen⟩ := hP _ hencode
  exact ⟨Inspection.modulusOf_write hwrite hlen, Inspection.bitSize_lt hwrite hlen⟩

theorem PublicSource.Live.algorithm {s : PublicSource} (hs : s.Live P r key) :
    s.algorithm = .rsa := by
  cases s with
  | key k =>
    show k.info.parameters.algorithm = .rsa
    rw [(publicInfo_rsa hs.info).1]
    rfl
  | certificate c =>
    show c.info.publicKey.parameters.algorithm = .rsa
    rw [(publicInfo_rsa hs.info).1]
    rfl

/-! ### Handles that were loaded

A provider that reads back what it has written gives live handles. -/

theorem Service.keyCreate_eq {a : KeyAttributes} {b : Bytes} {m : KeyMaterial}
    (hdecode : decodeKey P a.algorithm a.isPrivate b = some m)
    (halgorithm : m.algorithm? = some a.algorithm) :
    keyCreate P a b r = .ok (.ok (r.last + 1))
      (r.insert (.key ⟨m, a.canSign, a.canVerify⟩)) := by
  apply create_ok
  simp only [hdecode, decoded, ok_bind, halgorithm, if_true, pure_eq_ok]

/-- A private key that is allowed and can be decoded is imported. -/
theorem importPrivate_run {i : PrivateInfo} {m : KeyMaterial}
    (hcheck : checkParameters i.parameters i.bitSize = .ok ())
    (hdecode : Service.decodeKey P i.parameters.algorithm true i.bare = some m)
    (halgorithm : m.algorithm? = some i.parameters.algorithm) :
    (importPrivate P i).run r = .ok (.ok ⟨some (r.last + 1), i⟩)
      (r.insert (.key ⟨m, true, true⟩)) := by
  have hcreate := Service.keyCreate_eq (r := r) (a := importAttributes i.parameters true) hdecode
    halgorithm
  rw [importPrivate, hcheck]
  exact (Action.run_bind_ok rfl).trans (Action.run_bind_ok (Action.run_ofService hcreate))

/-- A public key that is allowed and can be decoded is imported. -/
theorem importPublic_run {i : PublicInfo} {m : KeyMaterial}
    (hcheck : checkParameters i.parameters i.bitSize = .ok ())
    (hdecode : Service.decodeKey P i.parameters.algorithm false i.encoding = some m)
    (halgorithm : m.algorithm? = some i.parameters.algorithm) :
    (importPublic P i).run r = .ok (.ok ⟨some (r.last + 1), i⟩)
      (r.insert (.key ⟨m, true, true⟩)) := by
  have hcreate := Service.keyCreate_eq (r := r) (a := importAttributes i.parameters false) hdecode
    halgorithm
  rw [importPublic, hcheck]
  exact (Action.run_bind_ok rfl).trans (Action.run_bind_ok (Action.run_ofService hcreate))

/-- What is imported as a key was checked, and the handle tells what was imported. -/
theorem importPrivate_eq_ok {i : PrivateInfo} {k : PrivateHandle}
    (h : (importPrivate P i).run r = .ok (.ok k) r') :
    checkParameters i.parameters i.bitSize = .ok () ∧ k.info = i := by
  obtain ⟨u, r₁, hcheck, hcreate⟩ := Action.exists_of_run_bind h
  obtain ⟨x, r₂, -, hreturn⟩ := Action.exists_of_run_bind hcreate
  cases hreturn
  exact ⟨(EStateM.Result.ok.inj hcheck).1, rfl⟩

theorem importPublic_eq_ok {i : PublicInfo} {k : PublicHandle}
    (h : (importPublic P i).run r = .ok (.ok k) r') :
    checkParameters i.parameters i.bitSize = .ok () ∧ k.info = i := by
  obtain ⟨u, r₁, hcheck, hcreate⟩ := Action.exists_of_run_bind h
  obtain ⟨x, r₂, -, hreturn⟩ := Action.exists_of_run_bind hcreate
  cases hreturn
  exact ⟨(EStateM.Result.ok.inj hcheck).1, rfl⟩

/-- A certificate that can be decoded is imported. -/
theorem importCertificate_run {i : CertificateInfo} {c : X509}
    (hdecode : P.certificate i.encoding = some c) :
    (importCertificate P i).run r = .ok (.ok { ref := some (r.last + 1), info := i })
      (r.insert (.certificate c)) := by
  have hcreate : Service.certificateCreate P i.encoding r =
      .ok (.ok (r.last + 1)) (r.insert (.certificate c)) := by
    apply Service.create_ok
    simp only [hdecode, Service.decoded, Except.map]
  exact Action.run_bind_ok (Action.run_ofService hcreate)

/-- What can be parsed is imported. -/
theorem loadCertificate_bytes {b : Bytes} {i : CertificateInfo} (h : parseCertificate P b = .ok i) :
    (loadCertificate P (.bytes b)).run r = (importCertificate P i).run r := by
  rw [loadCertificate, Source.resolve, h]
  rfl

theorem loadPublic_bytes {b : Bytes} {i : PublicInfo} (h : parsePublic P b = .ok i) :
    (loadPublic P (.bytes b)).run r = (importPublic P i).run r := by
  rw [loadPublic, Source.resolve, h]
  rfl

theorem loadPrivate_bytes {b : Bytes} {password : Option Bytes} {i : PrivateInfo}
    (h : parsePrivate P b password = .ok i) :
    (loadPrivate P (.bytes b) password).run r = (importPrivate P i).run r := by
  rw [loadPrivate, Source.resolve, h]
  rfl

theorem exists_importPublic {i : PublicInfo} (hr : r.Sound)
    (hi : publicInfo P (.rsa key) = .ok i) (hdecode : P.publicKey i.encoding = some (.rsa key)) :
    ∃ k r', (importPublic P i).run r = .ok (.ok k) r' ∧ r'.Sound ∧ k.Live P r' key := by
  obtain ⟨hparameters, -, -⟩ := publicInfo_rsa hi
  have himport := importPublic_run (P := P) (r := r) (i := i) (m := .ofPublic (.rsa key))
    (by rw [hparameters]; rfl) (by simp [Service.decodeKey, hdecode]) (by rw [hparameters]; rfl)
  exact ⟨_, _, himport, hr.insert _, ⟨_, _, rfl, object_insert_last hr.ordered, rfl⟩, hi⟩

theorem exists_importPrivate {key : Rsa.PrivateKey} {i : PrivateInfo} (hr : r.Sound)
    (hi : privateInfo P (.rsa key) = .ok i) (hdecode : P.rsaPrivateKey i.bare = some (.rsa key)) :
    ∃ k r', (importPrivate P i).run r = .ok (.ok k) r' ∧ r'.Sound ∧ k.Live P r' key := by
  obtain ⟨-, -, hparameters, -⟩ := privateInfo_rsa hi
  have himport := importPrivate_run (P := P) (r := r) (i := i) (m := .ofPrivate (.rsa key))
    (by rw [hparameters]; rfl)
    (by simp [hparameters, KeyParameters.algorithm, Service.decodeKey, Service.decodePrivate,
      hdecode]) (by rw [hparameters]; rfl)
  exact ⟨_, _, himport, hr.insert _, ⟨_, _, rfl, object_insert_last hr.ordered, rfl⟩, hi⟩

/-! ### The public key of a source -/

/-- A certificate derives the key in it. -/
theorem CertificateHandle.derive_run {c : CertificateHandle} {x : Ref} {o : X509}
    {key : PublicKey} (hx : c.ref = some x) (ho : r.object x = .ok (.certificate o))
    (hkey : o.key = some key) :
    c.derive.run r = .ok (.ok ⟨some (r.last + 1), c.info.publicKey⟩)
      (r.insert (.key ⟨.ofPublic key, false, true⟩)) := by
  have hcopy : Service.certificateCopyPublicKey x r = .ok (.ok (r.last + 1))
      (r.insert (.key ⟨.ofPublic key, false, true⟩)) := by
    apply Service.create_ok
    simp only [certificate_eq_ok_iff.mpr ho, ok_bind, hkey, Service.decoded, pure_eq_ok]
  rw [derive, hx]
  exact (Action.run_bind_ok rfl).trans (Action.run_bind_ok (Action.run_ofService hcopy))

/-- A certificate that has not derived its key does so when it is asked for it. -/
theorem CertificateHandle.key_run {c : CertificateHandle} {x : Ref} {o : X509} {key : PublicKey}
    (hx : c.ref = some x) (ho : r.object x = .ok (.certificate o)) (hkey : o.key = some key)
    (hnone : c.derived = none) :
    c.key r = .ok (.ok ⟨some (r.last + 1), c.info.publicKey⟩,
        { c with derived := some ⟨some (r.last + 1), c.info.publicKey⟩ })
      (r.insert (.key ⟨.ofPublic key, false, true⟩)) := by
  rw [CertificateHandle.key, hnone]
  exact bind_run_ok (derive_run hx ho hkey)

theorem CertificateHandle.Live.key_eq {c : CertificateHandle} (hc : c.Live P r key)
    (h : c.derived = none) :
    c.key r = .ok (.ok ⟨some (r.last + 1), c.info.publicKey⟩,
        { c with derived := some ⟨some (r.last + 1), c.info.publicKey⟩ })
      (r.insert (.key ⟨.ofPublic (.rsa key), false, true⟩)) := by
  obtain ⟨x, o, hx, ho, hkey⟩ := hc.object
  exact key_run hx ho hkey h

/-- **A live source supplies a live public key**, and stays live. -/
theorem PublicSource.exists_publicKey {s : PublicSource} (hr : r.Sound) (hs : s.Live P r key) :
    ∃ k s' r', s.publicKey r = .ok (.ok k, s') r' ∧ r'.Sound ∧ k.Live P r' key ∧
      s'.Live P r' key ∧ ∀ x o, r.object x = .ok o → r'.object x = .ok o := by
  cases s with
  | key k => exact ⟨k, .key k, r, rfl, hr, hs, hs, fun x o h => h⟩
  | certificate c =>
    cases hderived : c.derived with
    | some k =>
      refine ⟨k, .certificate c, r, ?_, hr, hs.derived k hderived, hs, fun x o h => h⟩
      rw [publicKey, CertificateHandle.key, hderived]
      rfl
    | none =>
      -- the key is derived now, and the handle remembers it
      have hkeep : ∀ x o, r.object x = .ok o →
          (r.insert (.key ⟨.ofPublic (.rsa key), false, true⟩)).object x = .ok o :=
        fun x o h => object_insert_of_ok hr.ordered h
      have hlive : PublicHandle.Live P (r.insert (.key ⟨.ofPublic (.rsa key), false, true⟩)) key
          ⟨some (r.last + 1), c.info.publicKey⟩ :=
        ⟨⟨_, _, rfl, object_insert_last hr.ordered, rfl⟩, hs.info⟩
      refine ⟨_, .certificate { c with derived := some ⟨some (r.last + 1), c.info.publicKey⟩ }, _,
        ?_, hr.insert _, hlive, ?_, hkeep⟩
      · rw [publicKey]
        exact bind_run_ok (CertificateHandle.Live.key_eq hs hderived)
      · obtain ⟨x, o, hx, ho, hkey⟩ := hs.object
        refine ⟨⟨x, o, hx, hkeep x _ ho, hkey⟩, hs.info, fun k hk => ?_⟩
        cases hk
        exact hlive

/-- A call on the public key of a source, once both checks have passed. -/
theorem PublicSource.use_eq {α β : Type} {s s' : PublicSource} {required : KeyAlgorithm}
    {check : Except CryptoError α} {f : α → PublicHandle → Action β} {a : α} {k : PublicHandle}
    {result : Except CryptoError β} {r'' : Registry} (halgorithm : s.algorithm = required)
    (hcheck : check = .ok a) (hkey : s.publicKey r = .ok (.ok k, s') r')
    (hf : (f a k).run r' = .ok result r'') :
    s.use required check f r = .ok (result, s') r'' := by
  unfold use requireAlgorithm
  rw [if_pos halgorithm, hcheck]
  exact (bind_run_ok hkey).trans (bind_run_ok hf)

end Keyring
