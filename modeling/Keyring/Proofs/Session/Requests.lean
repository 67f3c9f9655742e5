import Keyring.Proofs.Provider.Narrow
import Keyring.Proofs.Session.Answers

/-!
# Requests on the keys of a session

An unreleased handle of a session stands for a key, and a request through it ends with what the
operation of the service gives on that key: whatever else there is in the service and whoever else
has handles does not show in the answer.

## Main definitions

* `Session.PrivateAt`, `Session.PublicAt` — the key that a name of a session stands for.
* `Outcome.ofPerformed` — the outcome of an operation of the provider.

## Main results

* `Session.Runs.exists_privateAt`, `Session.Runs.exists_publicAt` — **every unreleased handle
  stands for a key**, of the algorithm that it tells.
* `Session.exists_at_mersenne` — a session with keys.
* `Session.Runs.run_encrypt`, `Session.Runs.run_decrypt`, `Session.Runs.run_sign`,
  `Session.Runs.run_verify` — requests, as functions of the key.
-/

namespace Keyring

open Registry Service

variable {P : Provider} {s : Session} {name hash : String} {e : Entropy} {b signature : Bytes}
  {a : HashAlgorithm} {scheme : SignatureScheme}

/-- The outcome of a request for what an operation of the provider gives: if that fails, so has
the service. -/
def Outcome.ofPerformed : Option Bytes → Outcome
  | some b => .answer (.bytes b)
  | none => .failure (.service .operationFailed)

theorem Outcome.ofExcept_performed (x : Option Bytes) :
    Outcome.ofExcept .bytes ((performed x).mapError .service) = .ofPerformed x := by
  cases x <;> rfl

namespace Session

/-- A name stands for a private key: there is an unreleased handle, and its object is the key. -/
def PrivateAt (s : Session) (name : String) (key : PrivateKey) : Prop :=
  ∃ k x, s.find? name = some (.privateKey k) ∧ k.ref = some x ∧ s.registry.HoldsPrivate x key

/-- A name stands for a public key: there is an unreleased handle, and its object is the key or a
certificate of the key. -/
def PublicAt (s : Session) (name : String) (key : PublicKey) : Prop :=
  (∃ k x, s.find? name = some (.publicKey k) ∧ k.ref = some x ∧ s.registry.HoldsPublic x key) ∨
    ∃ c x cert, s.find? name = some (.certificate c) ∧ c.ref = some x ∧
      s.registry.object x = .ok (.certificate cert) ∧ cert.key = some key

section Runs

variable (hP : P.Rereads) (hs : s.Runs P)

include hP hs

/-! ### Handles and keys -/

/-- **An unreleased private key stands for a key** of the algorithm that it tells. -/
theorem Runs.exists_privateAt {k : PrivateHandle} (hfind : s.find? name = some (.privateKey k))
    (hlive : k.ref.isSome) :
    ∃ key, s.PrivateAt name key ∧ key.publicKey.algorithm? = some k.info.algorithm := by
  obtain ⟨key, i, hinfo, hparameters, -, hk⟩ :=
    hs.exists_at_private hP (mem_of_find? hfind) hlive
  obtain ⟨x, -, hx, ho⟩ := hk.object
  exact ⟨key, ⟨k, x, hfind, hx, ho⟩, algorithm_of_publicInfo hinfo hparameters⟩

/-- **An unreleased public key or certificate stands for a key** of the algorithm that it
tells. -/
theorem Runs.exists_publicAt {k : PublicSource} (hfind : s.find? name = some k.handle)
    (hlive : k.handle.isReleased = false) :
    ∃ key, s.PublicAt name key ∧ key.algorithm? = some k.algorithm := by
  obtain ⟨key, -, hinfo, hk⟩ := hs.exists_at hP (mem_of_find? hfind) hlive
  refine ⟨key, ?_, by rw [hk.algorithm]; exact (publicInfo_eq_ok hinfo).1⟩
  cases k with
  | key k =>
    obtain ⟨x, -, hx, ho⟩ := hk.object
    exact .inl ⟨k, x, hfind, hx, ho⟩
  | certificate c =>
    obtain ⟨x, -, hx, cert, ho, hkey⟩ := hk.object
    exact .inr ⟨c, x, cert, hfind, hx, ho, hkey⟩

/-- The handle of a name that stands for a private key. -/
theorem Runs.exists_handle_private {key : PrivateKey} (hkey : s.PrivateAt name key) :
    ∃ k i, s.find? name = some (.privateKey k) ∧ publicInfo P key.publicKey = .ok i ∧
      i.parameters = k.info.parameters ∧ i.bitSize = k.info.bitSize ∧
      k.At key k.info s.registry (ownedBy s.all) := by
  obtain ⟨k, x, hfind, hx, ho⟩ := hkey
  obtain ⟨key', i, hinfo, hparameters, hsize, hk⟩ :=
    hs.exists_at_private hP (mem_of_find? hfind) (by rw [hx]; rfl)
  obtain ⟨x', -, hx', ho'⟩ := hk.object
  -- an object is one key
  cases hx.symm.trans hx'
  cases ho.symm.trans ho'
  exact ⟨k, i, hfind, hinfo, hparameters, hsize, hk⟩

/-- The handle of a name that stands for a public key. -/
theorem Runs.exists_handle_public {key : PublicKey} (hkey : s.PublicAt name key) :
    ∃ k : PublicSource, s.find? name = some k.handle ∧ publicInfo P key = .ok k.info ∧
      k.At key k.info s.registry (ownedBy s.all) := by
  rcases hkey with ⟨k, x, hfind, hx, canSign, ho⟩ | ⟨c, x, cert, hfind, hx, ho, hcert⟩
  · have hfind' : s.find? name = some (PublicSource.key k).handle := hfind
    obtain ⟨key', -, hinfo, hk⟩ := hs.exists_at hP (mem_of_find? hfind') (by
      simp [PublicSource.handle, Handle.isReleased, Handle.ref, hx])
    obtain ⟨x', -, hx', canSign', ho'⟩ := PublicHandle.At.object hk
    cases hx.symm.trans hx'
    cases ho.symm.trans ho'
    exact ⟨.key k, hfind', hinfo, hk⟩
  · have hfind' : s.find? name = some (PublicSource.certificate c).handle := hfind
    obtain ⟨key', -, hinfo, hk⟩ := hs.exists_at hP (mem_of_find? hfind') (by
      simp [PublicSource.handle, Handle.isReleased, Handle.ref, hx])
    obtain ⟨x', -, hx', cert', ho', hcert'⟩ := CertificateHandle.At.object hk
    cases hx.symm.trans hx'
    cases ho.symm.trans ho'
    cases hcert.symm.trans hcert'
    exact ⟨.certificate c, hfind', hinfo, hk⟩

/-! ### Requests -/

/-- A call on the public key of a name that stands for one. -/
theorem Runs.exists_use {key : PublicKey} {α β : Type} {required : KeyAlgorithm}
    {check : Except CryptoError α} {f : α → PublicHandle → Action β} {c : α}
    {result : Except CryptoError β} {q : PublicRequest} {answer : β → Answer}
    (hq : ∀ k : PublicSource, q.run P k e = (do
      let (b, k) ← k.use required check f
      return (.ofExcept answer b, k)))
    (hkey : s.PublicAt name key) (halgorithm : key.algorithm? = some required)
    (hcheck : check = .ok c)
    (hf : ∀ i k r owned, publicInfo P key = .ok i → i.algorithm = required →
      PublicHandle.At key i k r owned → ∃ r', (f c k).run r = .ok result r') :
    ∃ s', (Request.ofPublic name q).run P e s = .ok (.ofExcept answer result) s' := by
  obtain ⟨k, hfind, hinfo, hk⟩ := hs.exists_handle_public hP hkey
  have hsame : k.info.algorithm = required :=
    Option.some.inj ((publicInfo_eq_ok hinfo).1.symm.trans halgorithm)
  obtain ⟨k', k'', r', owned', hsource, hk'⟩ := hk.exists_publicKey
  obtain ⟨r'', hrun⟩ := hf _ _ _ _ hinfo hsame hk'
  have huse := PublicSource.use_eq (hk.algorithm.trans hsame) hcheck hsource hrun
  have hrequest : q.run P k e s.registry = .ok (.ofExcept answer result, k'') r'' := by
    rw [hq]
    exact bind_run_ok huse
  exact ⟨_, (SessionM.ofPublic_eq P q e hfind).trans
    (bind_run_ok (SessionM.ofRegistry_eq_ok hrequest))⟩

/-- A request on the private key of a name that stands for one. -/
theorem Runs.exists_private {key : PrivateKey} {result : Except CryptoError Bytes}
    {q : PrivateRequest} (hkey : s.PrivateAt name key)
    (hq : ∀ i j k r owned, publicInfo P key.publicKey = .ok j → j.parameters = i.parameters →
      j.bitSize = i.bitSize → PrivateHandle.At key i k r owned →
      ∃ r', (q.run P k e).run r = .ok result r') :
    ∃ s', (Request.ofPrivate name q).run P e s = .ok (.ofExcept .bytes result) s' := by
  obtain ⟨k, i, hfind, hinfo, hparameters, hsize, hk⟩ := hs.exists_handle_private hP hkey
  obtain ⟨r', hrun⟩ := hq _ _ _ _ _ hinfo hparameters hsize hk
  exact ⟨_, (SessionM.withHandle_eq hfind).trans
    (bind_run_ok (SessionM.ofRegistry_eq_ok hrun))⟩

/-- Encrypting gives what the service makes of the RSA key of the name. -/
theorem Runs.run_encrypt {key : Rsa.PublicKey} (hkey : s.PublicAt name (.rsa key))
    (padding : RsaPadding) (b : Bytes) (e : Entropy) :
    ∃ s', (Request.ofPublic name (.encrypt padding b)).run P e s =
      .ok (.ofExcept .bytes ((encryptWith P ⟨.ofPublic (.rsa key), false, true⟩ padding
        key.byteSize e b).mapError .service)) s' := by
  refine hs.exists_use hP (fun k => rfl) hkey rfl rfl fun i k r owned hinfo halgorithm hk => ?_
  obtain ⟨rsa, hrsa, hsize⟩ := byteSize_of_publicInfo hinfo halgorithm
  cases hrsa
  obtain ⟨r', hrun, -⟩ := hk.exists_encryptUnder (P := P) hsize padding b e
  exact ⟨r', hrun⟩

/-- Decrypting gives what the service makes of the RSA key of the name. -/
theorem Runs.run_decrypt {key : Rsa.PrivateKey} (hkey : s.PrivateAt name (.rsa key))
    (padding : RsaPadding) (b : Bytes) (e : Entropy) :
    ∃ s', (Request.ofPrivate name (.decrypt padding b)).run P e s =
      .ok (.ofExcept .bytes ((decryptWith P ⟨.ofPrivate (.rsa key), true, true⟩ padding
        key.publicKey.byteSize b).mapError .service)) s' := by
  refine hs.exists_private hP hkey fun i j k r owned hinfo hparameters hsize hk => ?_
  have halgorithm : i.algorithm = .rsa :=
    (Option.some.inj (algorithm_of_publicInfo hinfo hparameters)).symm
  obtain ⟨rsa, hrsa, hbytes⟩ := exists_rsa_of_publicInfo hinfo hparameters hsize halgorithm
  cases hrsa
  obtain ⟨r', hrun, -⟩ := hk.exists_decryptUnder (P := P) hbytes padding b e
  refine ⟨r', ?_⟩
  rw [PrivateRequest.run, Keyring.decrypt, hk.info, halgorithm]
  exact (Action.run_bind_ok rfl).trans hrun

/-- Signing with anything but PSS padding gives what the service makes of the key of the name. -/
theorem Runs.run_sign {key : PrivateKey} (hkey : s.PrivateAt name key)
    (halgorithm : key.publicKey.algorithm? = some scheme.algorithm) (hscheme : scheme ≠ .pss)
    (hhash : HashAlgorithm.ofName? hash = some a) (b : Bytes) (e : Entropy) :
    ∃ s', (Request.ofPrivate name (.sign scheme hash b)).run P e s =
      .ok (.ofExcept .bytes ((signWith P ⟨.ofPrivate key, true, true⟩ a
        (signaturePadding scheme.algorithm) e b).mapError .service)) s' := by
  refine hs.exists_private hP hkey fun i j k r owned hinfo hparameters hsize hk => ?_
  have hsame : i.algorithm = scheme.algorithm := Option.some.inj
    ((algorithm_of_publicInfo hinfo hparameters).symm.trans halgorithm)
  obtain ⟨r', hrun, -⟩ := hk.exists_signStaged (P := P) hinfo hparameters a b e
  refine ⟨r', ?_⟩
  have hname : hashAlgorithm hash = .ok a := by rw [hashAlgorithm, hhash]
  rw [PrivateRequest.run, Keyring.sign, hk.info, hsame, hname, requireAlgorithm, if_pos rfl]
  refine (Action.run_bind_ok rfl).trans ((Action.run_bind_ok rfl).trans ?_)
  rw [← hsame]
  cases scheme with
  | pss => exact absurd rfl hscheme
  | pkcs1 | dsa | ecdsa => exact hrun

/-- Verifying with anything but PSS padding gives what the service makes of the key of the
name. -/
theorem Runs.run_verify {key : PublicKey} (hkey : s.PublicAt name key)
    (halgorithm : key.algorithm? = some scheme.algorithm) (hscheme : scheme ≠ .pss)
    (hhash : HashAlgorithm.ofName? hash = some a) (signature b : Bytes) (e : Entropy) :
    ∃ s', (Request.ofPublic name (.verify scheme hash signature b)).run P e s =
      .ok (.ofExcept (fun _ => .done) (((verifyWith P ⟨.ofPublic key, false, true⟩ a
        (signaturePadding scheme.algorithm) b signature).mapError .service).bind verdict)) s' := by
  have hname : hashAlgorithm hash = .ok a := by rw [hashAlgorithm, hhash]
  refine hs.exists_use hP (fun k => rfl) hkey halgorithm hname fun i k r owned hinfo hsame hk => ?_
  obtain ⟨r', hrun, -⟩ := hk.exists_verifyStaged (P := P) hinfo a signature b e
  refine ⟨r', ?_⟩
  rw [← hsame]
  cases scheme with
  | pss => exact absurd rfl hscheme
  | pkcs1 | dsa | ecdsa =>
    cases hresult : verifyWith P ⟨.ofPublic key, false, true⟩ a (signaturePadding i.algorithm) b
        signature with
    | error err =>
      rw [hresult] at hrun
      exact Action.run_bind_error hrun
    | ok valid =>
      rw [hresult] at hrun
      exact Action.run_bind_ok hrun

end Runs

/-- A session with a private key of 609 bits, the public key and a certificate of it. -/
theorem exists_at_mersenne : ∃ s : Session, s.Runs .narrow ∧
    s.PrivateAt "k" (.rsa Rsa.mersenneKey) ∧ s.PublicAt "p" (.rsa Rsa.mersenneKey.publicKey) ∧
    s.PublicAt "c" (.rsa Rsa.mersenneKey.publicKey) := by
  obtain ⟨c, p, k, -, -, hs, hc, hp, hk, -⟩ := exists_runs_mersenne
  exact ⟨_, hs, ⟨k, 3, rfl, hk, rfl⟩, .inl ⟨p, 2, rfl, hp, true, rfl⟩,
    .inr ⟨c, 1, _, rfl, hc, rfl, rfl⟩⟩

end Session

end Keyring
