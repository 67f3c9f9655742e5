import Keyring.Proofs.Pss.Padding
import Keyring.Proofs.Session.Handle
import Keyring.Proofs.Session.Scope
import Keyring.Proofs.Session.Signing
import Keyring.Session.Request

/-!
# Errors that are the caller's

Some errors are the caller's: a hash algorithm that does not exist, a key of the wrong
algorithm, a handle that was released.  They are found before the service is used, so a request
that ends with one leaves no trace in the registry.

There is one exception.  PSS padding is not defined for MD5.  A signer is told so before the
service is used, but a verifier only after the public operation, when three objects have come
and gone.

## Main definitions

* `Action.ChecksFirst` — the caller is found at fault before anything has changed.
* `Action.Blameless` — the caller is never found at fault.
* `Action.BlamesReleased` — the caller is found at fault only for a released handle.

## Main results

* `PublicSource.registry_of_use` — a certificate derives its key only after all checks.
* `Request.registry_of_contractViolation` — **a request that ends with an error of the
  caller's leaves the registry as it was**, but for the exception.
* `verify_pss_md5` — the exception.
-/

namespace Keyring

variable {α β : Type} {P : Provider} {r r' r'' : Registry} {err : CryptoError}

/-! ### Steps of calls, taken apart -/

namespace Scope

variable {x : Scope (EStateM Halt Registry) α} {f : α → Scope (EStateM Halt Registry) β}
  {c c' c'' : List Ref}

theorem Ends.bind_cases {result : Except CryptoError β}
    (h : (x >>= f).Ends c r result c'' r'') :
    (∃ e, x.Ends c r (.error e) c'' r'' ∧ result = .error e) ∨
      ∃ a c' r', x.Ends c r (.ok a) c' r' ∧ (f a).Ends c' r' result c'' r'' := by
  obtain ⟨⟨answer, c'⟩, r', hx, h⟩ := exists_of_bind_run h
  cases answer with
  | error e =>
    cases h
    exact .inl ⟨e, hx, rfl⟩
  | ok a => exact .inr ⟨a, c', r', hx, h⟩

/-- A call of the service fails for a cause of the service. -/
theorem exists_service_of_ask {call : EStateM Halt Registry (Except ServiceError α)}
    (h : (ask call).Ends c r (.error err) c' r') : ∃ cause, err = .service cause := by
  obtain ⟨⟨answer, c''⟩, r'', hlift, -⟩ := exists_of_bind_run h
  obtain ⟨⟨answer', c''⟩, r'', hcall, -⟩ := exists_of_bind_run hlift
  obtain ⟨a, r'', hcall, -⟩ := exists_of_bind_run hcall
  have hend := ends_ask (c := c) (show call r = .ok a r'' from hcall)
  rw [Ends, h] at hend
  cases a with
  | error cause =>
    cases hend
    exact ⟨cause, rfl⟩
  | ok a => cases hend

/-- What is put together from calls of the service fails for a cause of the service. -/
theorem Composed.exists_service (hx : Composed P x) (h : x.Ends c r (.error err) c' r') :
    ∃ cause, err = .service cause := by
  induction hx generalizing c r c' r' with
  | pure a => cases h
  | ask => exact exists_service_of_ask h
  | create =>
    rcases h.bind_cases with ⟨e, he, heq⟩ | ⟨y, c₁, r₁, -, h⟩
    · cases heq
      exact exists_service_of_ask he
    · cases h
  | bind _ _ ihx ihf =>
    rcases h.bind_cases with ⟨e, he, heq⟩ | ⟨a, c₁, r₁, -, h⟩
    · cases heq
      exact ihx he
    · exact ihf a h

/-- What an operation fails for, its body has failed for. -/
theorem exists_ends_of_close {body : Scope (EStateM Halt Registry) α}
    (h : close (.registry P) body r = .ok (.error err) r') :
    ∃ c r'', body.Ends [] r (.error err) c r'' := by
  obtain ⟨⟨result, c⟩, r'', hbody, h⟩ := exists_of_bind_run h
  obtain ⟨u, s, -, h⟩ := exists_of_bind_run h
  cases h
  exact ⟨c, r'', hbody⟩

end Scope

/-! ### Whose fault an error is -/

namespace Action

/-- A call never finds the caller at fault. -/
def Blameless (x : Action α) : Prop :=
  ∀ r err r', x.run r = .ok (.error err) r' → err.isContractViolation = false

/-- A call finds the caller at fault before it has changed anything. -/
def ChecksFirst (x : Action α) : Prop :=
  ∀ r err r', x.run r = .ok (.error err) r' → err.isContractViolation = true → r' = r

/-- A call on what a handle owns finds the caller at fault only if the handle was released. -/
def BlamesReleased (ref : Option Ref) (x : Action α) : Prop :=
  ∀ r err r', x.run r = .ok (.error err) r' → err.isContractViolation = true →
    ref = none ∧ r' = r

variable {x : Action α} {f : α → Action β} {ref : Option Ref}

theorem Blameless.checksFirst (hx : x.Blameless) : x.ChecksFirst := by
  intro r err r' h hfault
  rw [hx r err r' h] at hfault
  cases hfault

theorem BlamesReleased.checksFirst (hx : x.BlamesReleased ref) : x.ChecksFirst :=
  fun r err r' h hfault => (hx r err r' h hfault).2

theorem blameless_pure (a : α) : Blameless (pure a) := by
  intro r err r' h
  cases h

theorem blameless_ofService (s : Service α) : (ofService s).Blameless := by
  intro r err r' h
  change EStateM.map _ s r = _ at h
  rw [EStateM.map] at h
  split at h
  · next a r'' hs =>
    cases a <;> cases h
    rfl
  · cases h

theorem blameless_close {call : EStateM Halt Registry (Except CryptoError α)}
    (hcall : ∃ body, Scope.Composed P body ∧ call = Scope.close (.registry P) body) :
    Blameless (ExceptT.mk call) := by
  obtain ⟨body, hbody, rfl⟩ := hcall
  intro r err r' h
  obtain ⟨c, r'', hend⟩ := Scope.exists_ends_of_close h
  obtain ⟨cause, rfl⟩ := hbody.exists_service hend
  rfl

theorem Blameless.bind (hx : x.Blameless) (hf : ∀ a, (f a).Blameless) : (x >>= f).Blameless :=
  FailsWith.bind hx fun a _ _ _ => hf a

theorem Blameless.onError (hx : x.Blameless) (cleanup : EStateM Halt Registry Unit) :
    (x.onError cleanup).Blameless :=
  FailsWith.onError hx cleanup

/-- After a call that has found the caller not at fault nothing else does. -/
theorem ChecksFirst.bind (hx : x.ChecksFirst) (hf : ∀ a, (f a).Blameless) :
    (x >>= f).ChecksFirst := by
  intro r err r'' h hfault
  rcases run_bind_cases h with ⟨e, he, heq⟩ | ⟨a, r', -, hend⟩
  · cases heq
    exact hx r err r'' he hfault
  · rw [hf a r' err r'' hend] at hfault
    cases hfault

theorem BlamesReleased.bind (hx : x.BlamesReleased ref) (hf : ∀ a, (f a).Blameless) :
    (x >>= f).BlamesReleased ref := by
  intro r err r'' h hfault
  rcases run_bind_cases h with ⟨e, he, heq⟩ | ⟨a, r', -, hend⟩
  · cases heq
    exact hx r err r'' he hfault
  · rw [hf a r' err r'' hend] at hfault
    cases hfault

/-- A check changes nothing, whatever it finds. -/
theorem checksFirst_ofExcept_bind {check : Except CryptoError α}
    (hf : ∀ a, check = .ok a → (f a).ChecksFirst) : (ofExcept check >>= f).ChecksFirst := by
  intro r err r'' h hfault
  cases check with
  | error e =>
    cases h
    rfl
  | ok a => exact hf a rfl r err r'' h hfault

theorem checksFirst_ofParsed_bind {parsed : Except Failure α} (hf : ∀ a, (f a).ChecksFirst) :
    (ofParsed parsed >>= f).ChecksFirst := by
  intro r err r'' h hfault
  cases parsed with
  | error failure =>
    cases failure with
    | error e =>
      cases h
      rfl
    | halt e => cases h
  | ok a => exact hf a r err r'' h hfault

theorem checksFirst_ofPss_bind {padded : Except Pss.Error α} (hf : ∀ a, (f a).ChecksFirst) :
    (ofPss padded >>= f).ChecksFirst := by
  intro r err r'' h hfault
  cases padded with
  | error e =>
    cases e <;> cases h <;> rfl
  | ok a => exact hf a r err r'' h hfault

/-- Only a released handle owns nothing. -/
theorem blamesReleased_owned : (ofExcept (owned ref)).BlamesReleased ref := by
  intro r err r' h _
  cases ref <;> cases h
  exact ⟨rfl, rfl⟩

end Action

open Keyring.Action

/-! ### The operations -/

variable (P)

theorem blamesReleased_encryptUnder (padding : RsaPadding) (k : PublicHandle) (input : Bytes)
    (e : Entropy) : (encryptUnder P padding k input e).BlamesReleased k.ref := by
  refine blamesReleased_owned.bind fun y => ?_
  cases padding with
  | pkcs1 => exact blameless_ofService _
  | raw => exact blameless_close (exists_composed_stagedCipher P _ _ _ _ e)
  | oaep => exact blameless_close (exists_composed_stagedCipher P _ _ _ _ e)

theorem blamesReleased_decryptUnder (padding : RsaPadding) (k : PrivateHandle) (input : Bytes)
    (e : Entropy) : (decryptUnder P padding k input e).BlamesReleased k.ref := by
  refine blamesReleased_owned.bind fun y => ?_
  cases padding with
  | pkcs1 => exact blameless_ofService _
  | raw => exact blameless_close (exists_composed_stagedCipher P _ _ _ _ e)
  | oaep => exact blameless_close (exists_composed_stagedCipher P _ _ _ _ e)

theorem blamesReleased_verifyStaged (a : HashAlgorithm) (k : PublicHandle)
    (signature message : Bytes) (e : Entropy) :
    (verifyStaged P a k signature message e).BlamesReleased k.ref :=
  blamesReleased_owned.bind fun _ => blameless_close (exists_composed_stagedVerify P _ _ _ _ _ e)

/-- Checking a PSS signature finds the caller at fault only if the handle was released, or late:
under MD5. -/
theorem fault_of_verifyPss {a : HashAlgorithm} {k : PublicHandle} {signature message : Bytes}
    {e : Entropy} (hlate : a = .md5 → err ≠ .unsupportedHash "md5")
    (h : (verifyPss P a k signature message e).run r = .ok (.error err) r')
    (hfault : err.isContractViolation = true) : k.ref = none ∧ r' = r := by
  rcases run_bind_cases h with ⟨_, howned, he⟩ | ⟨y, r₁, howned, hrest⟩
  · cases he
    exact blamesReleased_owned r err r' howned hfault
  -- the handle was not released, and asking it has changed nothing
  have hsame : r = r₁ := (EStateM.Result.ok.inj howned).2
  rw [← hsame] at hrest
  split at hrest
  · cases hrest
    cases hfault
  split at hrest
  · rcases run_bind_cases hrest with ⟨_, hencrypt, he⟩ | ⟨block, r₂, -, hpad⟩
    · cases he
      exact blamesReleased_encryptUnder P .raw k signature e _ err r' hencrypt hfault
    cases hverify : Pss.verifyPadding a.name (Pss.saltLength a) k.info.bitSize message block with
    | ok valid =>
      rw [hverify] at hpad
      cases hpad
    | error e =>
      rw [hverify] at hpad
      -- the raw operation is over by now: what padding refuses must not be the caller's fault
      rcases Pss.verifyPadding_error_cases hverify with ⟨rfl, rfl⟩ | rfl | ⟨rfl, -⟩
      · cases hpad
        exact absurd rfl (hlate rfl)
      · cases hpad
        cases hfault
      · cases hpad
  · cases hrest

/-- Decrypting looks at the algorithm and the handle before it starts. -/
theorem checksFirst_decrypt (padding : RsaPadding) (k : PrivateHandle) (input : Bytes)
    (e : Entropy) : (decrypt P padding k input e).ChecksFirst :=
  checksFirst_ofExcept_bind fun _ _ => (blamesReleased_decryptUnder P padding k input e).checksFirst

/-- Signing looks at the algorithm, the name and the handle before it starts; padding a message
does not need the service. -/
theorem checksFirst_sign (scheme : SignatureScheme) (hash : String) (k : PrivateHandle)
    (message : Bytes) (e : Entropy) : (sign P scheme hash k message e).ChecksFirst := by
  refine checksFirst_ofExcept_bind fun _ _ => checksFirst_ofExcept_bind fun a _ => ?_
  have hstaged : (signStaged P a k message e).ChecksFirst :=
    (blamesReleased_owned.bind fun _ =>
      blameless_close (exists_composed_stagedSign P _ _ _ _ e)).checksFirst
  cases scheme with
  | pss =>
    exact checksFirst_ofPss_bind fun block =>
      (blamesReleased_decryptUnder P _ k block _).checksFirst
  | pkcs1 => exact hstaged
  | dsa => exact hstaged
  | ecdsa => exact hstaged

variable {P}

/-- The public key of a source is there already, or it is derived from a certificate. -/
theorem PublicSource.publicKey_cases {s s' : PublicSource} {key : Except CryptoError PublicHandle}
    (h : s.publicKey r = .ok (key, s') r') :
    (∃ k, key = .ok k ∧ r' = r) ∨ ∃ c, s = .certificate c ∧ c.derive.run r = .ok key r' := by
  cases s with
  | key k =>
    cases h
    exact .inl ⟨k, rfl, rfl⟩
  | certificate c =>
    obtain ⟨⟨key', c'⟩, r₁, hkey, h⟩ := exists_of_bind_run h
    cases h
    unfold CertificateHandle.key at hkey
    cases hderived : c.derived with
    | some k =>
      rw [hderived] at hkey
      cases hkey
      exact .inl ⟨k, rfl, rfl⟩
    | none =>
      rw [hderived] at hkey
      obtain ⟨result, r₂, hderive, hkey⟩ := exists_of_bind_run hkey
      cases result <;> cases hkey <;> exact .inr ⟨c, rfl, hderive⟩

/-- Deriving a key is the caller's fault only if the certificate was released; nothing has
happened then. -/
theorem CertificateHandle.checksFirst_derive (c : CertificateHandle) : c.derive.ChecksFirst :=
  (blamesReleased_owned.bind fun _ => (blameless_ofService _).bind fun _ =>
    blameless_pure _).checksFirst

theorem PublicSource.registry_of_publicKey {s s' : PublicSource}
    (h : s.publicKey r = .ok (.error err, s') r') (hfault : err.isContractViolation = true) :
    r' = r := by
  rcases publicKey_cases h with ⟨k, hk, -⟩ | ⟨c, -, hderive⟩
  · cases hk
  · exact c.checksFirst_derive r err r' hderive hfault

/-- A call on the public key of a source finds the caller at fault before it has changed
anything, if on a public key it does so only for a released one. -/
theorem PublicSource.registry_of_use {s s' : PublicSource} {required : KeyAlgorithm}
    {check : Except CryptoError α} {f : α → PublicHandle → Action β}
    (hf : ∀ a k r r', check = .ok a → (f a k).run r = .ok (.error err) r' →
      k.ref = none ∧ r' = r)
    (h : s.use required check f r = .ok (.error err, s') r')
    (hfault : err.isContractViolation = true) : r' = r := by
  unfold use at h
  cases hrequired : requireAlgorithm s.algorithm required with
  | error e =>
    rw [hrequired] at h
    cases h
    rfl
  | ok u =>
    rw [hrequired] at h
    cases check with
    | error e =>
      cases h
      rfl
    | ok a =>
      obtain ⟨⟨key, s''⟩, r₁, hkey, h⟩ := exists_of_bind_run h
      cases key with
      | error e =>
        cases h
        exact registry_of_publicKey hkey hfault
      | ok k =>
        obtain ⟨result, r₂, hrun, h⟩ := exists_of_bind_run h
        cases h
        obtain ⟨hreleased, hsame⟩ := hf a k r₁ r' rfl hrun
        rcases publicKey_cases hkey with ⟨-, -, hkeep⟩ | ⟨c, -, hderive⟩
        · exact hsame.trans hkeep
        · -- what was derived just now is not released
          obtain ⟨x, y, -, rfl⟩ := CertificateHandle.eq_of_derive hderive
          cases hreleased

variable (P)

theorem hash_of_md5 {hash : String} (h : hashAlgorithm hash = .ok .md5) : hash = "md5" := by
  unfold hashAlgorithm at h
  split at h
  · next a ha =>
    cases h
    exact (HashAlgorithm.name_of_ofName? ha).symm
  · cases h

/-- That a signature is invalid is nobody's fault. -/
theorem run_of_verdict {x : Action Bool} (hfault : err.isContractViolation = true)
    (h : (x >>= fun valid => Action.ofExcept (verdict valid)).run r = .ok (.error err) r') :
    x.run r = .ok (.error err) r' := by
  rcases run_bind_cases h with ⟨_, hx, he⟩ | ⟨valid, r₁, -, h⟩
  · cases he
    exact hx
  · cases valid <;> cases h
    cases hfault

/-- Verifying finds the caller at fault before it has changed anything, but for PSS signatures
under MD5. -/
theorem registry_of_verify {scheme : SignatureScheme} {hash : String} {s s' : PublicSource}
    {signature message : Bytes} {e : Entropy}
    (hlate : scheme = .pss → hash = "md5" → err ≠ .unsupportedHash "md5")
    (h : verify P scheme hash s signature message e r = .ok (.error err, s') r')
    (hfault : err.isContractViolation = true) : r' = r := by
  refine PublicSource.registry_of_use (fun a k r r' ha h => ?_) h hfault
  have hstaged := blamesReleased_verifyStaged P a k signature message e r err r'
  cases scheme with
  | pss =>
    exact fault_of_verifyPss P (fun hmd5 => hlate rfl (hash_of_md5 (hmd5 ▸ ha)))
      (run_of_verdict hfault h) hfault
  | pkcs1 => exact hstaged (run_of_verdict hfault h) hfault
  | dsa => exact hstaged (run_of_verdict hfault h) hfault
  | ecdsa => exact hstaged (run_of_verdict hfault h) hfault

theorem registry_of_encrypt {padding : RsaPadding} {s s' : PublicSource} {input : Bytes}
    {e : Entropy} (h : encrypt P padding s input e r = .ok (.error err, s') r')
    (hfault : err.isContractViolation = true) : r' = r :=
  PublicSource.registry_of_use
    (fun _ k r r' _ h => blamesReleased_encryptUnder P padding k input e r err r' h hfault) h hfault

/-! ### Loading -/

theorem checksFirst_importPrivate (i : PrivateInfo) : (importPrivate P i).ChecksFirst :=
  checksFirst_ofExcept_bind fun _ _ => ((blameless_ofService _).bind fun _ =>
    blameless_pure _).checksFirst

theorem checksFirst_importPublic (i : PublicInfo) : (importPublic P i).ChecksFirst :=
  checksFirst_ofExcept_bind fun _ _ => ((blameless_ofService _).bind fun _ =>
    blameless_pure _).checksFirst

theorem blameless_importCertificate (i : CertificateInfo) : (importCertificate P i).Blameless :=
  (blameless_ofService _).bind fun _ => blameless_pure _

theorem blameless_importCertificates (done : List CertificateHandle) (rest : List CertificateInfo) :
    (importCertificates P done rest).Blameless := by
  induction rest generalizing done with
  | nil => exact blameless_pure _
  | cons i rest ih => exact ((blameless_importCertificate P i).onError _).bind fun c => ih _

/-- Of what a container holds only the private key can be the caller's fault, and it is the
first to be imported. -/
theorem checksFirst_importContainer (i : ContainerInfo) : (importContainer P i).ChecksFirst := by
  refine ChecksFirst.bind ?_ fun key => Blameless.bind ?_ fun certificate =>
    Blameless.bind ?_ fun others => blameless_pure _
  · cases i.privateKey with
    | none => exact (blameless_pure none).checksFirst
    | some k => exact (checksFirst_importPrivate P k).bind fun _ => blameless_pure _
  · refine Blameless.onError ?_ _
    cases i.certificate with
    | none => exact blameless_pure none
    | some c => exact (blameless_importCertificate P c).bind fun _ => blameless_pure _
  · exact (blameless_importCertificates P [] i.others).onError _

/-! ### Requests -/

section Request

open SessionM

variable {P} {s s' : Session} {e : Entropy}

theorem SessionM.ofRegistry_ok {x : EStateM Halt Registry α} {a : α}
    (h : ofRegistry x s = .ok a s') : x s.registry = .ok a s'.registry := by
  unfold ofRegistry at h
  split at h
  · next hx =>
    cases h
    exact hx
  · cases h

/-- What loading fails for, the loader has failed for. -/
theorem SessionM.run_of_load_failure {call : Action α} {answer : α → Answer}
    {handles : α → List (String × Handle)}
    (h : load call answer handles s = .ok (.failure err) s') :
    call.run s.registry = .ok (.error err) s'.registry := by
  obtain ⟨result, s₁, hcall, h⟩ := exists_of_bind_run h
  cases result with
  | error e' =>
    cases h
    exact ofRegistry_ok hcall
  | ok a =>
    obtain ⟨u, s₂, -, h⟩ := exists_of_bind_run h
    cases h

/-- A call on a handle that has ended: there is none, or the call on it has. -/
theorem SessionM.withHandle_cases {name : String} {f : Handle → SessionM Outcome}
    {outcome : Outcome} (h : withHandle name f s = .ok outcome s') :
    outcome = .unbound ∧ s' = s ∨
      ∃ handle, s.find? name = some handle ∧ f handle s = .ok outcome s' := by
  obtain ⟨s₀, s₁, hget, h⟩ := exists_of_bind_run h
  cases hget
  cases hfind : s.find? name with
  | none =>
    rw [hfind] at h
    cases h
    exact .inl ⟨rfl, rfl⟩
  | some handle =>
    rw [hfind] at h
    exact .inr ⟨handle, rfl, h⟩

theorem SessionM.exists_of_withHandle {name : String} {f : Handle → SessionM Outcome}
    (h : withHandle name f s = .ok (.failure err) s') :
    ∃ handle, s.find? name = some handle ∧ f handle s = .ok (.failure err) s' := by
  rcases withHandle_cases h with ⟨hunbound, -⟩ | hfound
  · cases hunbound
  · exact hfound

theorem PublicRequest.registry_of_run {q : PublicRequest} {k k' : PublicSource}
    (hlate : ∀ signature message, q = .verify .pss "md5" signature message →
      err ≠ .unsupportedHash "md5")
    (h : q.run P k e r = .ok (.failure err, k') r') (hfault : err.isContractViolation = true) :
    r' = r := by
  cases q with
  | key =>
    obtain ⟨⟨key, k''⟩, r₁, hkey, h⟩ := exists_of_bind_run h
    cases key <;> cases h
    exact PublicSource.registry_of_publicKey hkey hfault
  | modulus =>
    obtain ⟨⟨key, k''⟩, r₁, hkey, h⟩ := exists_of_bind_run h
    cases key with
    | error e' =>
      cases h
      exact PublicSource.registry_of_publicKey hkey hfault
    | ok key =>
      -- a modulus that cannot be read is not the caller's fault
      simp only [ok_bind] at h
      cases hmodulus : key.info.modulus <;> rw [hmodulus] at h <;> cases h
      cases hfault
  | encrypt padding input =>
    obtain ⟨⟨b, k''⟩, r₁, hencrypt, h⟩ := exists_of_bind_run h
    cases b <;> cases h
    exact registry_of_encrypt P hencrypt hfault
  | verify scheme hash signature message =>
    obtain ⟨⟨v, k''⟩, r₁, hverify, h⟩ := exists_of_bind_run h
    cases v <;> cases h
    refine registry_of_verify P ?_ hverify hfault
    rintro rfl rfl
    exact hlate signature message rfl

theorem PrivateRequest.checksFirst_run (q : PrivateRequest) (k : PrivateHandle) :
    (q.run P k e).ChecksFirst := by
  cases q with
  | decrypt padding input => exact checksFirst_decrypt P padding k input e
  | sign scheme hash message => exact checksFirst_sign P scheme hash k message e

/-- **A request that ends with an error of the caller's leaves the registry as it was**: no
reference is used up and every entry is as before.  The one error of which this is not so is
that of verifying a PSS signature that there is no PSS padding under MD5. -/
theorem Request.registry_of_contractViolation {q : Request}
    (hlate : ∀ name signature message, q = .ofPublic name (.verify .pss "md5" signature message) →
      err ≠ .unsupportedHash "md5")
    (h : q.run P e s = .ok (.failure err) s') (hfault : err.isContractViolation = true) :
    s'.registry = s.registry := by
  cases q with
  | loadPrivate name source password =>
    exact checksFirst_ofParsed_bind (checksFirst_importPrivate P) _ _ _ (run_of_load_failure h)
      hfault
  | loadPublic name source =>
    exact checksFirst_ofParsed_bind (checksFirst_importPublic P) _ _ _ (run_of_load_failure h)
      hfault
  | loadCertificate name source =>
    exact checksFirst_ofParsed_bind (fun i => (blameless_importCertificate P i).checksFirst) _ _ _
      (run_of_load_failure h) hfault
  | loadContainer name source password =>
    exact checksFirst_ofParsed_bind (checksFirst_importContainer P) _ _ _ (run_of_load_failure h)
      hfault
  | look name =>
    obtain ⟨handle, -, h⟩ := exists_of_withHandle h
    cases h
  | release name =>
    obtain ⟨handle, -, h⟩ := exists_of_withHandle h
    obtain ⟨handle', s₁, -, h⟩ := exists_of_bind_run h
    cases h
  | drop name =>
    obtain ⟨handle, -, h⟩ := exists_of_withHandle h
    obtain ⟨handle', s₁, -, h⟩ := exists_of_bind_run h
    cases h
  | ofPublic name q =>
    obtain ⟨handle, -, h⟩ := exists_of_withHandle h
    cases hsource : handle.source? with
    | none =>
      rw [hsource] at h
      cases h
    | some k =>
      rw [hsource] at h
      obtain ⟨⟨outcome, k'⟩, s₁, hrun, h⟩ := exists_of_bind_run h
      cases h
      have hlate' : ∀ signature message, q = .verify .pss "md5" signature message →
          err ≠ .unsupportedHash "md5" :=
        fun signature message hq => hlate name signature message (by rw [hq])
      have hsame := PublicRequest.registry_of_run hlate' (ofRegistry_ok hrun) hfault
      exact hsame
  | ofPrivate name q =>
    obtain ⟨handle, -, h⟩ := exists_of_withHandle h
    cases handle with
    | privateKey k =>
      obtain ⟨result, s₁, hrun, h⟩ := exists_of_bind_run h
      cases result <;> cases h
      exact q.checksFirst_run k _ _ _ (ofRegistry_ok hrun) hfault
    | publicKey k => cases h
    | certificate c => cases h

/-- On a certificate whose key was never derived, a hash algorithm that does not exist is found
before the key is. -/
theorem Request.registry_of_contractViolation_underived :
    ∃ s s', Request.run .standard (fun _ => 0)
        (.ofPublic "c" (.verify .pkcs1 "sha3" [1] [])) s =
          .ok (.failure (.unsupportedHash "sha3")) s' ∧
      s.registry.last = 1 ∧ s'.registry = s.registry := by
  let c : CertificateHandle := ⟨some 1, ⟨[], ⟨.rsa, 512, []⟩⟩, none⟩
  let s : Session := ⟨⟨1, [(1, ⟨.certificate ⟨[], none⟩, 1⟩)]⟩, [("c", .certificate c)]⟩
  have hrun : Request.run .standard (fun _ => 0) (.ofPublic "c" (.verify .pkcs1 "sha3" [1] [])) s =
      .ok (.failure (.unsupportedHash "sha3")) s := rfl
  exact ⟨s, s, hrun, rfl, registry_of_contractViolation (by simp) hrun rfl⟩

end Request

/-! ### PSS signatures under MD5 -/

/-- Under MD5 every number below the modulus goes through the public operation, with three
objects made for it, before the caller is told that there is no such padding. -/
theorem verify_pss_md5 {key : Rsa.PublicKey} {k : PublicHandle} {f : Nat → Nat}
    {signature : Bytes} (hr : r.Sound) (hk : k.Live P r key) (hP : P.EncodesRsa key)
    (hraw : P.RawPublic key f) (hlen : signature.length = key.byteSize)
    (hlt : signature.value < key.modulus) (message : Bytes) (e : Entropy) :
    verify P .pss "md5" (.key k) signature message e r =
      .ok (.error (.unsupportedHash "md5"), .key k) { r with last := r.last + 3 } := by
  obtain ⟨x, -, hx, -⟩ := hk.object
  obtain ⟨hmodulus, -⟩ := modulus_of_publicInfo hP hk.info
  have hencrypt := encryptUnder_raw hr hk (Nat.le_of_eq hlen)
    (by rw [Bytes.padLeft_of_length hlen]; exact hraw e signature hlen hlt)
  have hverify : (verifyPss P .md5 k signature message e).run r =
      .ok (.error (.unsupportedHash "md5")) { r with last := r.last + 3 } := by
    rw [verifyPss_run hx hmodulus, if_pos (signatureInRange_minimal.mpr ⟨hlen, hlt⟩)]
    exact Action.run_bind_ok hencrypt
  have hlive : PublicSource.Live P r key (.key k) := hk
  exact PublicSource.use_eq hlive.algorithm rfl rfl (Action.run_bind_error hverify)

/-- A key of 609 bits is loaded, and a PSS signature is verified under MD5: the error is the
caller's, and the registry is not as it was. -/
theorem registry_of_contractViolation_md5 : ∃ i answer s s',
    publicInfo .standard (.rsa Rsa.mersenneKey.publicKey) = .ok i ∧
    Request.run .standard (fun _ => 0) (.loadPublic "p" (.parsed i)) {} = .ok answer s ∧
    Request.run .standard (fun _ => 0)
      (.ofPublic "p" (.verify .pss "md5" (List.replicate 77 0) [])) s =
        .ok (.failure (.unsupportedHash "md5")) s' ∧
    CryptoError.isContractViolation (.unsupportedHash "md5") = true ∧
    s'.registry ≠ s.registry := by
  obtain ⟨i, k, r, hi, hload, hr, hk⟩ := exists_loadPublic_mersenneKey
  have hlen : (List.replicate 77 0 : Bytes).length = Rsa.mersenneKey.publicKey.byteSize := by
    decide +kernel
  have hlt : Bytes.value (List.replicate 77 0) < Rsa.mersenneKey.publicKey.modulus := by
    decide +kernel
  have hverify := verify_pss_md5 .standard hr hk Provider.standard_encodesRsa_mersenneKey
    (Provider.standard_rawPublic (by decide +kernel)) hlen hlt [] (fun _ => 0)
  refine ⟨i, .answer (.handle (.publicKey k)), ⟨r, [("p", .publicKey k)]⟩,
    ⟨{ r with last := r.last + 3 }, [("p", .publicKey k)]⟩, hi, ?_, ?_, rfl, ?_⟩
  · have hcall : SessionM.ofRegistry (loadPublic .standard (.parsed i)).run {} =
        .ok (.ok k) ⟨r, []⟩ := by rw [SessionM.ofRegistry, hload]
    exact bind_run_ok hcall
  · -- three references were used up on the way to the error
    have hrun : SessionM.ofRegistry (PublicRequest.run .standard (.key k) (fun _ => 0)
        (.verify .pss "md5" (List.replicate 77 0) [])) ⟨r, [("p", .publicKey k)]⟩ =
          .ok (.failure (.unsupportedHash "md5"), .key k)
            ⟨{ r with last := r.last + 3 }, [("p", .publicKey k)]⟩ := by
      rw [SessionM.ofRegistry, PublicRequest.run, bind_run_ok hverify]
      rfl
    exact (bind_run_ok rfl).trans (bind_run_ok hrun)
  · exact fun h => Nat.ne_of_gt (Nat.lt_add_of_pos_right (n := r.last) (k := 3) (by decide))
      (congrArg Registry.last h)

end Keyring
