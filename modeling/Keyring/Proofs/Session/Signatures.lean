import Keyring.Proofs.Provider.Narrow
import Keyring.Proofs.Rsa.Blocks
import Keyring.Proofs.Session.Requests

/-!
# Signatures of the service

Signatures other than those with PSS padding are the service's own.  A signer does not hand over
key, hash algorithm and message at once, but has a transform created, tells it the family and the
length of the digest and the padding one after the other, and executes it.  What comes out is what
the signer of the provider gives when it has all of them at once; so it is with verifying.  Hence
a signature just made is verified.

## Main definitions

* `Provider.signature`, `Provider.accepts` — signer and verifier of the provider, set up directly.
* `Provider.Agrees` — the verifier accepts what the signer has made.

## Main results

* `Service.signWith_eq`, `Service.verifyWith_eq` — the service sets both up as the key requires.
* `Session.Runs.signatures_direct` — **requests sign and verify as the provider does, and what is
  signed is verified.**
-/

namespace Keyring

open Registry Service

variable {P : Provider} {s : Session} {name hash : String} {e : Entropy}
  {message b : Bytes} {a : HashAlgorithm} {scheme : SignatureScheme}
  {algorithm : KeyAlgorithm}

/-! ### Signers and verifiers -/

/-- The signature that the provider's signer makes of a message when it is set up for a key and a
hash algorithm, with padding of PKCS #1 version 1.5 for RSA keys and none for others.  There is
none if it cannot be set up for the key, or fails. -/
def Provider.signature (P : Provider) (key : PrivateKey) (a : HashAlgorithm) (e : Entropy)
    (message : Bytes) : Option Bytes :=
  if P.takesDigest key.publicKey then P.sign key a e message else none

/-- Whether the provider's verifier, set up in the same way, accepts a signature of a message. -/
def Provider.accepts (P : Provider) (key : PublicKey) (a : HashAlgorithm)
    (message signature : Bytes) : Bool :=
  P.takesDigest key && (P.verify key a message signature).getD false

/-- The verifier accepts what the signer has made with the key. -/
def Provider.Agrees (P : Provider) (key : PrivateKey) : Prop :=
  ∀ a e message signature, P.signature key a e message = some signature →
    P.accepts key.publicKey a message signature = true

/-- Keys whose exponents undo each other are agreed on by the provider in use. -/
theorem Provider.standard_agrees {key : Rsa.PrivateKey} (hkey : key.IsConsistent)
    (husable : key.publicKey.isUsable = true)
    (hodd : ¬(key.modulus % 2 = 0 ∨ key.p % 2 = 0 ∨ key.q % 2 = 0)) :
    Provider.standard.Agrees (.rsa key) :=
  fun _ _ _ _ hsign => hkey.verify_sign husable hodd hsign

/-- What a provider decodes does not matter for that. -/
theorem Provider.Agrees.taking {key : PrivateKey} (h : P.Agrees key) (taken : List Bytes) :
    (P.taking taken).Agrees key := h

theorem Provider.narrow_signature (key : Rsa.PrivateKey) :
    Provider.narrow.signature (.rsa key) a e message = key.sign a message := rfl

/-- With a key that may sign, and the padding that goes with it, the service signs as the
provider does. -/
theorem Service.signWith_eq {key : PrivateKey}
    (halgorithm : key.publicKey.algorithm? = some algorithm) :
    signWith P ⟨.ofPrivate key, true, true⟩ a (signaturePadding algorithm) e message =
      performed (P.signature key a e message) := by
  have hpadding := checkSignaturePadding_eq (o := ⟨.ofPrivate key, true, true⟩) halgorithm
  unfold signWith Provider.signature
  simp only [Bool.not_true, Bool.false_eq_true, if_false, hpadding, ok_bind]
  cases P.takesDigest key.publicKey <;> rfl

/-- With a key that may verify, and the padding that goes with it, the service verifies as the
provider does, unless the verifier cannot be set up. -/
theorem Service.verifyWith_eq {key : PublicKey} (halgorithm : key.algorithm? = some algorithm) :
    verifyWith P ⟨.ofPublic key, false, true⟩ a (signaturePadding algorithm) message b =
      if P.takesDigest key then .ok (P.accepts key a message b)
      else .error .operationFailed := by
  have hpadding := checkSignaturePadding_eq (o := ⟨.ofPublic key, false, true⟩) halgorithm
  unfold verifyWith Provider.accepts
  simp only [Bool.not_true, Bool.false_eq_true, if_false, hpadding, ok_bind]
  cases htakes : P.takesDigest key <;> simp [KeyMaterial.publicKey, htakes]

namespace Session

section Runs

variable (hP : P.Rereads) (hs : s.Runs P)

include hP hs

/-- A request to sign ends as the signer of the provider does. -/
theorem Runs.exists_sign {key : PrivateKey} (hkey : s.PrivateAt name key)
    (halgorithm : key.publicKey.algorithm? = some scheme.algorithm) (hscheme : scheme ≠ .pss)
    (hhash : HashAlgorithm.ofName? hash = some a) (message : Bytes) (e : Entropy) :
    ∃ s', (Request.ofPrivate name (.sign scheme hash message)).run P e s =
      .ok (.ofPerformed (P.signature key a e message)) s' := by
  obtain ⟨s', hrun⟩ := hs.run_sign hP hkey halgorithm hscheme hhash message e
  rw [signWith_eq halgorithm, Outcome.ofExcept_performed] at hrun
  exact ⟨s', hrun⟩

/-- A request to verify ends well exactly if the verifier of the provider accepts. -/
theorem Runs.exists_verify {key : PublicKey} (hkey : s.PublicAt name key)
    (halgorithm : key.algorithm? = some scheme.algorithm) (hscheme : scheme ≠ .pss)
    (hhash : HashAlgorithm.ofName? hash = some a) (message signature : Bytes) (e : Entropy) :
    ∃ outcome s', (Request.ofPublic name (.verify scheme hash signature message)).run P e s =
        .ok outcome s' ∧
      (outcome = .answer .done ↔ P.accepts key a message signature = true) := by
  obtain ⟨s', hrun⟩ := hs.run_verify hP hkey halgorithm hscheme hhash signature message e
  refine ⟨_, s', hrun, ?_⟩
  rw [verifyWith_eq halgorithm]
  cases htakes : P.takesDigest key with
  | false => simp [Provider.accepts, htakes, Except.mapError, Except.bind, Outcome.ofExcept]
  | true =>
    cases haccepts : P.accepts key a message signature with
    | false => simp [Except.mapError, Except.bind, Outcome.ofExcept, verdict]
    | true => simp [Except.mapError, Except.bind, Outcome.ofExcept, verdict]

/-- **Requests sign and verify as the provider does.**  Let a session have an unreleased private
key of the algorithm of a scheme without PSS padding, and let a name be that of a hash algorithm.
Then signing any message ends as the provider's signer does when it is set up directly, with the
object of the key, with that hash algorithm, with padding of PKCS #1 version 1.5 for RSA keys and
none for others, on that message and under the same random bytes; if the signer fails, the request
fails with the status -50.  Verifying a signature through an unreleased public key or certificate
ends well exactly if the provider's verifier accepts it.  The answers depend on nothing else there
is in the service.  So if the provider's verifier agrees with its signer on a key, then a signature
that was made with it in one session is verified in every session that has the public key or a
certificate of it. -/
theorem Runs.signatures_direct :
    (∀ name k, s.find? name = some (.privateKey k) → k.ref.isSome →
      ∃ key, s.PrivateAt name key ∧ key.publicKey.algorithm? = some k.info.algorithm ∧
        ∀ scheme hash a message e, scheme ≠ .pss → k.info.algorithm = scheme.algorithm →
          HashAlgorithm.ofName? hash = some a →
          ∃ s', (Request.ofPrivate name (.sign scheme hash message)).run P e s =
              .ok (.ofPerformed (P.signature key a e message)) s' ∧
            signWith P ⟨.ofPrivate key, true, true⟩ a (signaturePadding scheme.algorithm) e
              message = performed (P.signature key a e message)) ∧
    ServiceError.operationFailed.code = -50 ∧
    (∀ name (k : PublicSource), s.find? name = some k.handle → k.handle.isReleased = false →
      ∃ key, s.PublicAt name key ∧ key.algorithm? = some k.algorithm ∧
        ∀ scheme hash a message signature e, scheme ≠ .pss → k.algorithm = scheme.algorithm →
          HashAlgorithm.ofName? hash = some a →
          ∃ outcome s', (Request.ofPublic name (.verify scheme hash signature message)).run P e s =
              .ok outcome s' ∧
            (outcome = .answer .done ↔ P.accepts key a message signature = true) ∧
            (P.accepts key a message signature = true ↔
              verifyWith P ⟨.ofPublic key, false, true⟩ a (signaturePadding scheme.algorithm)
                message signature = .ok true)) ∧
    ∀ s₁ name name' key scheme hash a message signature e e' s', s₁.Runs P → P.Agrees key →
      s.PrivateAt name key → s₁.PublicAt name' key.publicKey →
      key.publicKey.algorithm? = some scheme.algorithm → scheme ≠ .pss →
      HashAlgorithm.ofName? hash = some a →
      (Request.ofPrivate name (.sign scheme hash message)).run P e s =
        .ok (.answer (.bytes signature)) s' →
      ∃ s₂, (Request.ofPublic name' (.verify scheme hash signature message)).run P e' s₁ =
        .ok (.answer .done) s₂ := by
  refine ⟨fun name k hfind hlive => ?_, rfl, fun name k hfind hlive => ?_, ?_⟩
  · obtain ⟨key, hkey, halgorithm⟩ := hs.exists_privateAt hP hfind hlive
    refine ⟨key, hkey, halgorithm, fun scheme hash a message e hscheme hsame hhash => ?_⟩
    rw [hsame] at halgorithm
    obtain ⟨s', hrun⟩ := hs.exists_sign hP hkey halgorithm hscheme hhash message e
    exact ⟨s', hrun, signWith_eq halgorithm⟩
  · obtain ⟨key, hkey, halgorithm⟩ := hs.exists_publicAt hP hfind hlive
    refine ⟨key, hkey, halgorithm, fun scheme hash a message signature e hscheme hsame hhash => ?_⟩
    rw [hsame] at halgorithm
    obtain ⟨outcome, s', hrun, haccepts⟩ :=
      hs.exists_verify hP hkey halgorithm hscheme hhash message signature e
    refine ⟨outcome, s', hrun, haccepts, ?_⟩
    rw [verifyWith_eq halgorithm]
    cases htakes : P.takesDigest key <;> simp [Provider.accepts, htakes]
  · intro s₁ name name' key scheme hash a message signature e e' s' hs₁ hagrees hkey hpublic
      halgorithm hscheme hhash hsign
    -- what was answered is what the signer has made
    obtain ⟨s'', hrun⟩ := hs.exists_sign hP hkey halgorithm hscheme hhash message e
    have hmade : P.signature key a e message = some signature := by
      rw [hsign] at hrun
      cases hresult : P.signature key a e message with
      | none =>
        rw [hresult] at hrun
        cases hrun
      | some made =>
        rw [hresult] at hrun
        cases hrun
        rfl
    obtain ⟨outcome, s₂, hverify, haccepts⟩ :=
      hs₁.exists_verify hP hpublic halgorithm hscheme hhash message signature e'
    rw [haccepts.mpr (hagrees a e message signature hmade)] at hverify
    exact ⟨s₂, hverify⟩

end Runs

/-- A key of 609 bits signs for SHA-256, and the signature is verified through the public key and
through a certificate of it. -/
theorem signatures_direct_mersenne : ∃ (s s' : Session) (signature : Bytes), s.Runs .narrow ∧
    (Request.ofPrivate "k" (.sign .pkcs1 "sha256" [1, 2, 3])).run .narrow (fun _ => 0) s =
      .ok (.answer (.bytes signature)) s' ∧
    (∃ s₂, (Request.ofPublic "p" (.verify .pkcs1 "sha256" signature [1, 2, 3])).run .narrow
      (fun _ => 0) s = .ok (.answer .done) s₂) ∧
    ∃ s₂, (Request.ofPublic "c" (.verify .pkcs1 "sha256" signature [1, 2, 3])).run .narrow
      (fun _ => 0) s = .ok (.answer .done) s₂ := by
  have hodd : ¬(Rsa.mersenneKey.modulus % 2 = 0 ∨ Rsa.mersenneKey.p % 2 = 0 ∨
    Rsa.mersenneKey.q % 2 = 0) := by decide +kernel
  have husable : Rsa.mersenneKey.publicKey.isUsable = true := by decide +kernel
  have hagrees : Provider.narrow.Agrees (.rsa Rsa.mersenneKey) :=
    (Provider.standard_agrees Rsa.mersenneKey_isConsistent husable hodd).taking _
  obtain ⟨signature, hmade⟩ := Rsa.mersenneKey_isConsistent.exists_sign husable hodd
    (a := .sha256) (m := [1, 2, 3]) (by decide +kernel)
  obtain ⟨s, hs, hkey, hp, hc⟩ := exists_at_mersenne
  obtain ⟨hsign, -, -, hverify⟩ := hs.signatures_direct Provider.narrow_rereads
  obtain ⟨k, x, hfind, hx, ho⟩ := id hkey
  obtain ⟨key, ⟨k', x', hfind', hx', ho'⟩, halgorithm, hrequest⟩ :=
    hsign "k" k hfind (by rw [hx]; rfl)
  cases hfind.symm.trans hfind'
  cases hx.symm.trans hx'
  cases ho.symm.trans ho'
  have hrsa : some KeyAlgorithm.rsa = some k.info.algorithm := halgorithm
  obtain ⟨s', hrun, -⟩ := hrequest .pkcs1 "sha256" .sha256 [1, 2, 3] (fun _ => 0) (by decide)
    (Option.some.inj hrsa).symm rfl
  rw [Provider.narrow_signature, hmade] at hrun
  exact ⟨s, s', signature, hs, hrun,
    hverify s "k" "p" _ .pkcs1 "sha256" .sha256 _ _ _ _ _ hs hagrees hkey hp rfl (by decide) rfl
      hrun,
    hverify s "k" "c" _ .pkcs1 "sha256" .sha256 _ _ _ _ _ hs hagrees hkey hc rfl (by decide) rfl
      hrun⟩

end Session

end Keyring
