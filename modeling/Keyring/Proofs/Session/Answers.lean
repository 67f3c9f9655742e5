import Keyring.Proofs.Session.Backing
import Keyring.Proofs.Session.Staging

/-!
# Answers that depend on the key alone

An operation through a handle asks the service several times, but what it answers in the end
depends on the key that the handle stands for, not on the reference of its object, on whether the
object may sign, or on anything else that there is in the service.  And when the service fails on
the way, it fails for the key and the input: the input is too long, or the operation of the key
fails.

## Main definitions

* `CryptoError.Proper` — an error that is not a misuse of the service.
* `Action.Answers` — a call on handles answers the same wherever they are in the service.
* `PublicHandle.At`, `PrivateHandle.At`, `CertificateHandle.At` — handles on one key, anywhere.

## Main results

* `answers_encryptUnder`, `answers_decryptUnder`, `answers_sign`, `answers_verify` — the
  operations on a key.
* `PublicSource.answers_use` — **a certificate answers as its public key does.**
* `PublicRequest.answers_run`, `PrivateRequest.answers_run` — requests.
-/

namespace Keyring

open Registry Service

variable {α β κ : Type} {P : Provider} {r r' : Registry} {owned : Multiset Ref} {e : Entropy}

/-- What comes of a call, apart from the state that it leaves. -/
def outcomeOf {ε σ : Type} : EStateM.Result ε σ α → Except ε α
  | .ok a _ => .ok a
  | .error e _ => .error e

/-- An error is proper: if the service fails, then because an input is too long for the key or
the operation of the key fails. -/
def CryptoError.Proper (err : CryptoError) : Prop :=
  ∀ e, err = .service e → e = .inputTooLong ∨ e = .operationFailed

theorem CryptoError.proper_of_mapError {x : Except ServiceError α} {err : CryptoError}
    (hx : ∀ e, x = .error e → e = .inputTooLong ∨ e = .operationFailed)
    (h : x.mapError .service = .error err) : err.Proper := by
  cases x with
  | ok a => cases h
  | error e =>
    cases h
    rintro _ ⟨⟩
    exact hx e rfl

/-! ### Calls on handles -/

namespace Action

/-- A call on handles answers: wherever a handle is, it ends in the same way and leaves the handle
where it is, and its errors are proper. -/
def Answers (At : κ → Registry → Multiset Ref → Prop) (f : κ → Action α) : Prop :=
  ∃ answer : Except Halt (Except CryptoError α),
    (∀ err, answer = .ok (.error err) → err.Proper) ∧
    ∀ k r owned, At k r owned → outcomeOf ((f k).run r) = answer ∧
      ∀ result r', (f k).run r = .ok result r' → At k r' owned

variable {At : κ → Registry → Multiset Ref → Prop} {f : κ → Action α} {g : α → κ → Action β}

/-- A call that runs to one result wherever the handles are. -/
theorem answers_of_run {result : Except CryptoError α}
    (hrun : ∀ k r owned, At k r owned → ∃ r', (f k).run r = .ok result r' ∧ At k r' owned)
    (hproper : ∀ err, result = .error err → err.Proper) : Answers At f := by
  refine ⟨.ok result, fun err herr => hproper err (Except.ok.inj herr), fun k r owned hk => ?_⟩
  obtain ⟨r', hf, hk'⟩ := hrun k r owned hk
  rw [hf]
  refine ⟨rfl, fun result' r'' hrun' => ?_⟩
  cases hrun'
  exact hk'

theorem answers_ofExcept (check : Except CryptoError α)
    (h : ∀ err, check = .error err → err.Proper) : Answers At fun _ => ofExcept check :=
  answers_of_run (fun _ r _ hk => ⟨r, rfl, hk⟩) h

theorem answers_pure (a : α) : Answers At fun _ => pure a := answers_ofExcept (.ok a) nofun

theorem answers_throw {err : CryptoError} (h : err.Proper) :
    Answers At fun _ => (throw err : Action α) := by
  refine answers_ofExcept (.error err) fun err' herr => ?_
  cases herr
  exact h

/-- Padding has errors of its own. -/
theorem answers_ofPss (padded : Except Pss.Error α) : Answers At fun _ => ofPss padded := by
  cases padded with
  | ok a => exact answers_pure a
  | error err =>
    cases err with
    | overflow => exact ⟨.error .sizeOverflow, nofun, fun _ _ _ _ => ⟨rfl, nofun⟩⟩
    | unsupportedDigest name => exact answers_throw nofun
    | keyTooShort => exact answers_throw nofun
    | invalidParameter => exact answers_throw nofun

/-- A call that runs as another does where the handles are. -/
theorem Answers.congr {f' : κ → Action α} (hf : Answers At f)
    (h : ∀ k r owned, At k r owned → (f' k).run r = (f k).run r) : Answers At f' := by
  obtain ⟨answer, hproper, hanswers⟩ := hf
  refine ⟨answer, hproper, fun k r owned hk => ?_⟩
  rw [h k r owned hk]
  exact hanswers k r owned hk

theorem Answers.bind (hf : Answers At f) (hg : ∀ a, Answers At (g a)) :
    Answers At fun k => f k >>= fun a => g a k := by
  obtain ⟨answer, hproper, hanswers⟩ := hf
  -- how the second call goes is known once the answer of the first is
  match answer, hproper, hanswers with
  | .error halt, _, hanswers =>
    refine ⟨.error halt, nofun, fun k r owned hk => ?_⟩
    obtain ⟨houtcome, -⟩ := hanswers k r owned hk
    cases hrun : (f k).run r with
    | ok result r' =>
      rw [hrun] at houtcome
      cases houtcome
    | error halt' r' =>
      rw [hrun] at houtcome
      cases houtcome
      have hbind : (f k >>= fun a => g a k).run r = .error halt r' := bind_run_error hrun
      rw [hbind]
      exact ⟨rfl, nofun⟩
  | .ok (.error err), hproper, hanswers =>
    refine ⟨.ok (.error err), fun err' herr => ?_, fun k r owned hk => ?_⟩
    · cases herr
      exact hproper err rfl
    obtain ⟨houtcome, hstays⟩ := hanswers k r owned hk
    cases hrun : (f k).run r with
    | ok result r' =>
      rw [hrun] at houtcome
      cases houtcome
      have hafter := hstays _ r' hrun
      rw [run_bind_error hrun]
      refine ⟨rfl, fun result r'' hrun' => ?_⟩
      cases hrun'
      exact hafter
    | error halt' r' =>
      rw [hrun] at houtcome
      cases houtcome
  | .ok (.ok a), _, hanswers =>
    obtain ⟨answer', hproper', hanswers'⟩ := hg a
    refine ⟨answer', hproper', fun k r owned hk => ?_⟩
    obtain ⟨houtcome, hstays⟩ := hanswers k r owned hk
    cases hrun : (f k).run r with
    | ok result r' =>
      rw [hrun] at houtcome
      cases houtcome
      rw [run_bind_ok hrun]
      exact hanswers' k r' owned (hstays _ r' hrun)
    | error halt' r' =>
      rw [hrun] at houtcome
      cases houtcome

end Action

open Keyring.Action

/-! ### Handles on a key -/

/-- A public key handle with some knowledge is at a key: it is there for an owner. -/
structure PublicHandle.At (key : PublicKey) (i : PublicInfo) (k : PublicHandle) (r : Registry)
    (owned : Multiset Ref) : Prop where
  info : k.info = i
  balanced : r.Balanced owned
  object : ∃ x ∈ owned, k.ref = some x ∧ r.HoldsPublic x key

/-- A private key handle with some knowledge is at a key. -/
structure PrivateHandle.At (key : PrivateKey) (i : PrivateInfo) (k : PrivateHandle) (r : Registry)
    (owned : Multiset Ref) : Prop where
  info : k.info = i
  balanced : r.Balanced owned
  object : ∃ x ∈ owned, k.ref = some x ∧ r.HoldsPrivate x key

/-- What an owner has, it has as it was. -/
theorem Registry.Balanced.object_eq {x : Ref} {o : NativeObject} (hr : r.Balanced owned)
    (hr' : r'.Balanced owned) (hfollows : r.Follows r') (hx : x ∈ owned)
    (ho : r.object x = .ok o) (hkind : o.kind ≠ .transform) : r'.object x = .ok o := by
  obtain ⟨e, he⟩ := hr'.exists_find?_of_mem hx
  exact hfollows.object_eq hr.sound ho hkind ⟨_, object_of_find? he⟩

theorem PublicHandle.At.follow {key : PublicKey} {i : PublicInfo} {k : PublicHandle}
    (hk : k.At key i r owned) (hfollows : r.Follows r') (hr' : r'.Balanced owned) :
    k.At key i r' owned := by
  obtain ⟨x, hx, href, canSign, ho⟩ := hk.object
  exact ⟨hk.info, hr', x, hx, href, canSign, hk.balanced.object_eq hr' hfollows hx ho nofun⟩

theorem PrivateHandle.At.follow {key : PrivateKey} {i : PrivateInfo} {k : PrivateHandle}
    (hk : k.At key i r owned) (hfollows : r.Follows r') (hr' : r'.Balanced owned) :
    k.At key i r' owned := by
  obtain ⟨x, hx, href, ho⟩ := hk.object
  exact ⟨hk.info, hr', x, hx, href, hk.balanced.object_eq hr' hfollows hx ho nofun⟩

/-! ### Key objects -/

/-- The input of an operation can be too long, nothing else. -/
theorem Service.fitInput_error {padding : RsaPadding} {n : Nat} {b : Bytes} {err : ServiceError}
    (h : fitInput padding n b = .error err) : err = .inputTooLong := by
  unfold fitInput at h
  split at h
  · cases h
  · split at h <;> cases h
    rfl

theorem Service.performed_error {x : Option α} {err : ServiceError}
    (h : performed x = .error err) : err = .operationFailed := by
  cases x <;> cases h
  rfl

/-- Encrypting into a buffer of the size of the key. -/
theorem Service.encryptWith_error {o : KeyObject} {rsa : Rsa.PublicKey} {padding : RsaPadding}
    {capacity : Nat} {b : Bytes} {err : ServiceError} (hrsa : o.material.publicKey.rsa? = some rsa)
    (hcapacity : rsa.byteSize ≤ capacity) (h : encryptWith P o padding capacity e b = .error err) :
    err = .inputTooLong ∨ err = .operationFailed := by
  rw [encryptWith, hrsa, asRsa, ok_bind, if_neg (Nat.not_lt.mpr hcapacity)] at h
  rcases bind_eq_error_iff.mp h with hfit | ⟨input, -, hperformed⟩
  · exact .inl (fitInput_error hfit)
  · exact .inr (performed_error hperformed)

/-- Decrypting into a buffer of the size of the key. -/
theorem Service.decryptWith_error {o : KeyObject} {key : PrivateKey} {rsa : Rsa.PrivateKey}
    {padding : RsaPadding} {capacity : Nat} {b : Bytes} {err : ServiceError}
    (hkey : o.material = .ofPrivate key) (hrsa : key.rsa? = some rsa)
    (hcapacity : rsa.publicKey.byteSize ≤ capacity)
    (h : decryptWith P o padding capacity b = .error err) :
    err = .inputTooLong ∨ err = .operationFailed := by
  rw [decryptWith, hkey] at h
  simp only [hrsa, asRsa, ok_bind, if_neg (Nat.not_lt.mpr hcapacity)] at h
  rcases bind_eq_error_iff.mp h with hfit | ⟨input, -, hperformed⟩
  · exact .inl (fitInput_error hfit)
  · exact .inr (performed_error hperformed)

/-- The padding that goes with the algorithm of a key is the right one for it. -/
theorem Service.checkSignaturePadding_eq {o : KeyObject} {algorithm : KeyAlgorithm}
    (halgorithm : o.material.algorithm? = some algorithm) :
    checkSignaturePadding o (signaturePadding algorithm) = .ok () := by
  unfold checkSignaturePadding signaturePadding
  rw [halgorithm]
  cases algorithm <;> rfl

/-- Signing with a key that may sign. -/
theorem Service.signWith_error {o : KeyObject} {key : PrivateKey} {a : HashAlgorithm}
    {algorithm : KeyAlgorithm} {b : Bytes} {err : ServiceError}
    (hkey : o.material = .ofPrivate key) (halgorithm : o.material.algorithm? = some algorithm)
    (hsign : o.canSign = true) (h : signWith P o a (signaturePadding algorithm) e b = .error err) :
    err = .operationFailed := by
  have hpadding := checkSignaturePadding_eq halgorithm
  rw [signWith, hsign, hkey] at h
  cases htakes : P.takesDigest key.publicKey with
  | false =>
    simp only [htakes, Bool.not_true, Bool.not_false, Bool.false_eq_true, if_false, if_true] at h
    cases h
    rfl
  | true =>
    simp only [htakes, Bool.not_true, Bool.false_eq_true, if_false, hpadding, ok_bind] at h
    exact performed_error h

/-- Verifying with a key that may verify. -/
theorem Service.verifyWith_error {o : KeyObject} {a : HashAlgorithm} {algorithm : KeyAlgorithm}
    {b signature : Bytes} {err : ServiceError}
    (halgorithm : o.material.algorithm? = some algorithm) (hverify : o.canVerify = true)
    (h : verifyWith P o a (signaturePadding algorithm) b signature = .error err) :
    err = .operationFailed := by
  have hpadding := checkSignaturePadding_eq halgorithm
  rw [verifyWith, hverify] at h
  cases htakes : P.takesDigest o.material.publicKey with
  | false =>
    simp only [htakes, Bool.not_true, Bool.not_false, Bool.false_eq_true, if_false, if_true] at h
    cases h
    rfl
  | true =>
    simp only [htakes, Bool.not_true, Bool.false_eq_true, if_false, hpadding, pure_eq_ok,
      ok_bind] at h
    cases h

/-! ### Operations on a key -/

theorem PublicKey.exists_rsa {key : PublicKey} (h : key.algorithm? = some .rsa) :
    ∃ k, key = .rsa k := by
  cases key <;> cases h
  exact ⟨_, rfl⟩

theorem PrivateKey.exists_rsa {key : PrivateKey} (h : key.publicKey.algorithm? = some .rsa) :
    ∃ k, key = .rsa k := by
  cases key <;> cases h
  exact ⟨_, rfl⟩

section Public

variable {key : PublicKey} {i : PublicInfo} (hinfo : publicInfo P key = .ok i)

include hinfo

/-- The size that is known of an RSA key is the size of its object. -/
theorem byteSize_of_publicInfo (hrsa : i.algorithm = .rsa) :
    ∃ k, key = .rsa k ∧ i.byteSize = k.byteSize := by
  obtain ⟨halgorithm, hsize, -⟩ := publicInfo_eq_ok hinfo
  obtain ⟨k, rfl⟩ := PublicKey.exists_rsa (halgorithm.trans (congrArg some hrsa))
  refine ⟨k, rfl, ?_⟩
  rw [PublicInfo.byteSize, hsize]
  rfl

omit hinfo in
/-- Encrypting with an RSA key. -/
theorem PublicHandle.At.exists_encryptUnder {rsa : Rsa.PublicKey} {k : PublicHandle}
    (hk : k.At (.rsa rsa) i r owned) (hsize : i.byteSize = rsa.byteSize) (padding : RsaPadding)
    (b : Bytes) (e : Entropy) :
    ∃ r', (encryptUnder P padding k b e).run r =
        .ok ((encryptWith P ⟨.ofPublic (.rsa rsa), false, true⟩ padding rsa.byteSize e b).mapError
          .service) r' ∧
      k.At (.rsa rsa) i r' owned := by
  obtain ⟨x, hx, href, canSign, ho⟩ := hk.object
  -- whether the object may sign does not matter
  have hsame : encryptWith P ⟨.ofPublic (.rsa rsa), canSign, true⟩ padding rsa.byteSize e b =
      encryptWith P ⟨.ofPublic (.rsa rsa), false, true⟩ padding rsa.byteSize e b := rfl
  rw [encryptUnder, href]
  cases padding with
  | pkcs1 =>
    have hcall : keyEncrypt P x k.info.byteSize e b r = .ok
        (encryptWith P ⟨.ofPublic (.rsa rsa), false, true⟩ .pkcs1 rsa.byteSize e b) r := by
      rw [keyEncrypt, query, key_eq_ok_iff.mpr ho, ok_bind, hk.info, hsize, hsame]
    exact ⟨r, (run_bind_ok rfl).trans (run_ofService hcall), hk⟩
  | raw | oaep =>
    obtain ⟨r', hrun, hfollows, hr'⟩ := exists_stagedEncrypt (P := P) hk.balanced ho _ b e rfl
    exact ⟨r', (run_bind_ok rfl).trans hrun, hk.follow hfollows hr'⟩

theorem answers_encryptUnder (padding : RsaPadding) (b : Bytes) (e : Entropy)
    (hrsa : i.algorithm = .rsa) :
    Answers (PublicHandle.At key i) fun k => encryptUnder P padding k b e := by
  obtain ⟨rsa, rfl, hsize⟩ := byteSize_of_publicInfo hinfo hrsa
  refine answers_of_run (fun _ _ _ hk => hk.exists_encryptUnder hsize padding b e) ?_
  exact fun _ => CryptoError.proper_of_mapError fun _ => encryptWith_error rfl (Nat.le_refl _)

/-- Verifying with a key, by way of the service. -/
theorem PublicHandle.At.exists_verifyStaged {k : PublicHandle} (hk : k.At key i r owned)
    (a : HashAlgorithm) (signature b : Bytes) (e : Entropy) :
    ∃ r', (verifyStaged P a k signature b e).run r =
        .ok ((verifyWith P ⟨.ofPublic key, false, true⟩ a (signaturePadding i.algorithm) b
          signature).mapError .service) r' ∧
      k.At key i r' owned := by
  obtain ⟨halgorithm, -⟩ := publicInfo_eq_ok hinfo
  obtain ⟨x, hx, href, canSign, ho⟩ := hk.object
  obtain ⟨r', hrun, hfollows, hr'⟩ := exists_stagedVerify (P := P) hk.balanced ho i.algorithm a
    signature b e halgorithm
  refine ⟨r', ?_, hk.follow hfollows hr'⟩
  rw [verifyStaged, href, hk.info]
  exact (run_bind_ok rfl).trans hrun

theorem answers_verifyStaged (a : HashAlgorithm) (signature b : Bytes) (e : Entropy) :
    Answers (PublicHandle.At key i) fun k => verifyStaged P a k signature b e := by
  have halgorithm : (KeyMaterial.ofPublic key).algorithm? = some i.algorithm :=
    (publicInfo_eq_ok hinfo).1
  refine answers_of_run (fun _ _ _ hk => hk.exists_verifyStaged hinfo a signature b e) ?_
  exact fun _ => CryptoError.proper_of_mapError fun _ herr =>
    .inr (verifyWith_error (o := ⟨_, false, true⟩) halgorithm rfl herr)

theorem answers_verifyPss (a : HashAlgorithm) (signature b : Bytes) (e : Entropy)
    (hrsa : i.algorithm = .rsa) :
    Answers (PublicHandle.At key i) fun k => verifyPss P a k signature b e := by
  cases hmodulus : i.modulus with
  | none =>
    have hproper : CryptoError.Proper .malformedPublicKey := by rintro _ ⟨⟩
    refine (answers_throw hproper).congr fun k r owned hk => ?_
    obtain ⟨x, -, href, -⟩ := hk.object
    rw [verifyPss, href, hk.info, hmodulus]
    exact run_bind_ok rfl
  -- everything but the block is known from the handle, so only the block has to be answered
  | some n =>
    have hblock : Answers (PublicHandle.At key i) fun k => (do
        if signatureInRange n signature then
          let block ← encryptUnder P .raw k signature e
          ofPss (Pss.verifyPadding a.name (Pss.saltLength a) i.bitSize b block)
        else return false : Action Bool) := by
      cases signatureInRange n signature with
      | false => exact answers_pure false
      | true =>
        exact (answers_encryptUnder hinfo .raw signature e hrsa).bind fun block => answers_ofPss _
    refine hblock.congr fun k r owned hk => ?_
    obtain ⟨x, -, href, -⟩ := hk.object
    rw [verifyPss, href, hk.info, hmodulus]
    exact run_bind_ok rfl

/-- Verifying on a key of the algorithm of the scheme. -/
theorem answers_verify (scheme : SignatureScheme) (a : HashAlgorithm) (signature b : Bytes)
    (e : Entropy) (halgorithm : i.algorithm = scheme.algorithm) :
    Answers (PublicHandle.At key i) fun k => (do
      let valid ←
        match scheme with
        | .pss => verifyPss P a k signature b e
        | _ => verifyStaged P a k signature b e
      Action.ofExcept (verdict valid) : Action Unit) := by
  have hverdict : ∀ valid, Answers (PublicHandle.At key i) fun _ =>
        Action.ofExcept (verdict valid) := by
    intro valid
    refine answers_ofExcept _ fun err herr => ?_
    cases valid <;> cases herr
    nofun
  have hstaged := answers_verifyStaged (P := P) hinfo a signature b e
  cases scheme with
  | pss => exact (answers_verifyPss hinfo a signature b e halgorithm).bind hverdict
  | pkcs1 => exact hstaged.bind hverdict
  | dsa => exact hstaged.bind hverdict
  | ecdsa => exact hstaged.bind hverdict

end Public

section Private

variable {key : PrivateKey} {i : PrivateInfo} {j : PublicInfo}
  (hinfo : publicInfo P key.publicKey = .ok j) (hparameters : j.parameters = i.parameters)
  (hsize : j.bitSize = i.bitSize)

include hinfo hparameters

theorem algorithm_of_publicInfo :
    (KeyMaterial.ofPrivate key).algorithm? = some i.algorithm := by
  rw [PrivateInfo.algorithm, ← hparameters]
  exact (publicInfo_eq_ok hinfo).1

/-- Signing with a key, by way of the service. -/
theorem PrivateHandle.At.exists_signStaged {k : PrivateHandle} (hk : k.At key i r owned)
    (a : HashAlgorithm) (b : Bytes) (e : Entropy) :
    ∃ r', (signStaged P a k b e).run r =
        .ok ((signWith P ⟨.ofPrivate key, true, true⟩ a (signaturePadding i.algorithm) e
          b).mapError .service) r' ∧
      k.At key i r' owned := by
  have halgorithm := algorithm_of_publicInfo hinfo hparameters
  obtain ⟨x, hx, href, ho⟩ := hk.object
  obtain ⟨r', hrun, hfollows, hr'⟩ := exists_stagedSign (P := P) hk.balanced ho i.algorithm a b e
    halgorithm rfl
  refine ⟨r', ?_, hk.follow hfollows hr'⟩
  rw [signStaged, href, hk.info]
  exact (run_bind_ok rfl).trans hrun

theorem answers_signStaged (a : HashAlgorithm) (b : Bytes) (e : Entropy) :
    Answers (PrivateHandle.At key i) fun k => signStaged P a k b e := by
  have halgorithm := algorithm_of_publicInfo hinfo hparameters
  refine answers_of_run (fun _ _ _ hk => hk.exists_signStaged hinfo hparameters a b e) ?_
  exact fun _ => CryptoError.proper_of_mapError fun _ herr =>
    .inr (signWith_error rfl halgorithm rfl herr)

include hsize

/-- The size that is known of an RSA key is the size of its object. -/
theorem exists_rsa_of_publicInfo (hrsa : i.algorithm = .rsa) :
    ∃ k, key = .rsa k ∧ i.byteSize = k.publicKey.byteSize := by
  have halgorithm := algorithm_of_publicInfo hinfo hparameters
  obtain ⟨k, rfl⟩ := PrivateKey.exists_rsa (halgorithm.trans (congrArg some hrsa))
  obtain ⟨-, hbits, -⟩ := publicInfo_eq_ok hinfo
  refine ⟨k, rfl, ?_⟩
  rw [PrivateInfo.byteSize, ← hsize, hbits]
  rfl

omit hinfo hparameters hsize in
/-- Decrypting with an RSA key. -/
theorem PrivateHandle.At.exists_decryptUnder {rsa : Rsa.PrivateKey} {k : PrivateHandle}
    (hk : k.At (.rsa rsa) i r owned) (hbytes : i.byteSize = rsa.publicKey.byteSize)
    (padding : RsaPadding) (b : Bytes) (e : Entropy) :
    ∃ r', (decryptUnder P padding k b e).run r =
        .ok ((decryptWith P ⟨.ofPrivate (.rsa rsa), true, true⟩ padding rsa.publicKey.byteSize
          b).mapError .service) r' ∧
      k.At (.rsa rsa) i r' owned := by
  obtain ⟨x, hx, href, ho⟩ := hk.object
  rw [decryptUnder, href]
  cases padding with
  | pkcs1 =>
    have hcall : keyDecrypt P x k.info.byteSize b r = .ok (decryptWith P
        ⟨.ofPrivate (.rsa rsa), true, true⟩ .pkcs1 rsa.publicKey.byteSize b) r := by
      rw [keyDecrypt, query, key_eq_ok_iff.mpr ho, ok_bind, hk.info, hbytes]
    exact ⟨r, (run_bind_ok rfl).trans (run_ofService hcall), hk⟩
  | raw | oaep =>
    obtain ⟨r', hrun, hfollows, hr'⟩ := exists_stagedDecrypt (P := P) hk.balanced ho _ b e rfl rfl
    exact ⟨r', (run_bind_ok rfl).trans hrun, hk.follow hfollows hr'⟩

theorem answers_decryptUnder (padding : RsaPadding) (b : Bytes) (e : Entropy)
    (hrsa : i.algorithm = .rsa) :
    Answers (PrivateHandle.At key i) fun k => decryptUnder P padding k b e := by
  obtain ⟨rsa, rfl, hbytes⟩ := exists_rsa_of_publicInfo hinfo hparameters hsize hrsa
  refine answers_of_run (fun _ _ _ hk => hk.exists_decryptUnder hbytes padding b e) ?_
  exact fun _ => CryptoError.proper_of_mapError fun _ => decryptWith_error rfl rfl (Nat.le_refl _)

theorem answers_signPss (a : HashAlgorithm) (b : Bytes) (e : Entropy) (hrsa : i.algorithm = .rsa) :
    Answers (PrivateHandle.At key i) fun k => signPss P a k b e := by
  have hpadded := (answers_ofPss
    (Pss.addPadding a.name i.bitSize b (e.bytes (Pss.saltLength a)))).bind
      fun block => answers_decryptUnder hinfo hparameters hsize .raw block
        (e.skip (Pss.saltLength a)) hrsa
  refine hpadded.congr fun k r owned hk => ?_
  rw [signPss, hk.info]

end Private

/-! ### Sources of a key -/

/-- A certificate handle with some knowledge of its key is at the key: its certificate is there
for an owner and certifies the key, and so is the key if it was derived. -/
structure CertificateHandle.At (key : PublicKey) (i : PublicInfo) (c : CertificateHandle)
    (r : Registry) (owned : Multiset Ref) : Prop where
  info : c.info.publicKey = i
  balanced : r.Balanced owned
  object : ∃ x ∈ owned, c.ref = some x ∧
    ∃ cert, r.object x = .ok (.certificate cert) ∧ cert.key = some key
  derived : ∀ k, c.derived = some k → k.At key i r owned

/-- Outcomes whose failures are proper. -/
def Outcome.Proper (outcome : Outcome) : Prop := ∀ err, outcome = .failure err → err.Proper

theorem Outcome.proper_ofExcept {f : α → Answer} {x : Except CryptoError α}
    (h : ∀ err, x = .error err → err.Proper) : (Outcome.ofExcept f x).Proper := by
  intro err herr
  cases x with
  | ok a => cases herr
  | error err' =>
    cases herr
    exact h err rfl

namespace PublicSource

/-- A public key or certificate is at a key. -/
def At (key : PublicKey) (i : PublicInfo) : PublicSource → Registry → Multiset Ref → Prop
  | .key k => k.At key i
  | .certificate c => c.At key i

/-- A call on sources answers: on whichever source of a key, and wherever that is, it ends in the
same way.  What it ends with has a property. -/
def Answers (key : PublicKey) (i : PublicInfo) (proper : α → Prop)
    (x : PublicSource → EStateM Halt Registry (α × PublicSource)) : Prop :=
  ∃ answer : Except Halt α, (∀ a, answer = .ok a → proper a) ∧
    ∀ s r owned, s.At key i r owned → (outcomeOf (x s r)).map Prod.fst = answer

variable {key : PublicKey} {i : PublicInfo} {s : PublicSource} {proper : α → Prop}
  {proper' : β → Prop}

theorem At.algorithm (hs : s.At key i r owned) : s.algorithm = i.algorithm := by
  cases s with
  | key k => exact congrArg PublicInfo.algorithm hs.info
  | certificate c => exact congrArg PublicInfo.algorithm hs.info

/-- A source supplies a handle at the key. -/
theorem At.exists_publicKey (hs : s.At key i r owned) :
    ∃ k s' r' owned', s.publicKey r = .ok (.ok k, s') r' ∧ k.At key i r' owned' := by
  cases s with
  | key k => exact ⟨k, .key k, r, owned, rfl, hs⟩
  | certificate c =>
    cases hderived : c.derived with
    | some k =>
      refine ⟨k, .certificate c, r, owned, ?_, hs.derived k hderived⟩
      rw [publicKey, CertificateHandle.key, hderived]
      rfl
    | none =>
      obtain ⟨x, hx, href, cert, ho, hkey⟩ := hs.object
      have hordered := hs.balanced.ordered
      have hrun : (PublicSource.certificate c).publicKey r =
          .ok (.ok ⟨some (r.last + 1), c.info.publicKey⟩,
            .certificate { c with derived := some ⟨some (r.last + 1), c.info.publicKey⟩ })
          (r.insert (.key ⟨.ofPublic key, false, true⟩)) :=
        bind_run_ok (CertificateHandle.key_run href ho hkey hderived)
      refine ⟨_, _, _, (r.last + 1) ::ₘ owned, hrun, hs.info, ?_, r.last + 1,
        Multiset.mem_cons_self _ _, rfl, false, object_insert_last hordered⟩
      exact Balanced.insert (by simpa [NativeObject.retained] using hs.balanced)
        (by simp [NativeObject.retained])

theorem outcomeOf_map (x : EStateM Halt Registry (α × PublicSource)) (g : α → β) (r : Registry) :
    (outcomeOf ((do
      let (a, s) ← x
      return (g a, s) : EStateM Halt Registry (β × PublicSource)) r)).map Prod.fst =
      ((outcomeOf (x r)).map Prod.fst).map g := by
  show (outcomeOf (EStateM.bind x _ r)).map Prod.fst = _
  rw [EStateM.bind]
  cases x r <;> rfl

theorem Answers.map {x : PublicSource → EStateM Halt Registry (α × PublicSource)} {g : α → β}
    (hx : Answers key i proper x) (hg : ∀ a, proper a → proper' (g a)) :
    Answers key i proper' fun s => do
      let (a, s) ← x s
      return (g a, s) := by
  obtain ⟨answer, hproper, hanswers⟩ := hx
  refine ⟨answer.map g, fun b hb => ?_, fun s r owned hs => ?_⟩
  · obtain ⟨a, ha, rfl⟩ := map_eq_ok_iff.mp hb
    exact hg a (hproper a ha)
  · rw [outcomeOf_map, hanswers s r owned hs]

section Use

variable {required : KeyAlgorithm} {check : Except CryptoError α}
  {f : α → PublicHandle → Action β}

theorem outcomeOf_use_ne (h : s.algorithm ≠ required) :
    (outcomeOf (s.use required check f r)).map Prod.fst =
      .ok (.error (.algorithmMismatch required s.algorithm)) := by
  unfold use requireAlgorithm
  rw [if_neg h]
  rfl

theorem outcomeOf_use_error {err : CryptoError} (h : s.algorithm = required) :
    (outcomeOf (s.use required (.error err) f r)).map Prod.fst = .ok (.error err) := by
  unfold use requireAlgorithm
  rw [if_pos h]
  rfl

/-- A call on the public key of a source, once both checks have passed and the key is there. -/
theorem outcomeOf_use_ok {s' : PublicSource} {a : α} {k : PublicHandle} (h : s.algorithm = required)
    (hkey : s.publicKey r = .ok (.ok k, s') r') :
    (outcomeOf (s.use required (.ok a) f r)).map Prod.fst = outcomeOf ((f a k).run r') := by
  unfold use requireAlgorithm
  rw [if_pos h]
  refine (congrArg (fun x => (outcomeOf x).map Prod.fst) (bind_run_ok hkey)).trans ?_
  show (outcomeOf (EStateM.bind (f a k).run _ r')).map Prod.fst = _
  rw [EStateM.bind]
  cases (f a k).run r' <;> rfl

/-- **A certificate answers as its public key does**, whether it has derived the key before or
derives it now. -/
theorem answers_use (hcheck : ∀ err, check = .error err → err.Proper)
    (hf : ∀ a, i.algorithm = required → Action.Answers (PublicHandle.At key i) (f a)) :
    Answers key i (fun x => ∀ err, x = .error err → err.Proper)
      fun s => s.use required check f := by
  by_cases halgorithm : i.algorithm = required
  · cases check with
    | error err =>
      refine ⟨.ok (.error err), fun x hx err' herr => ?_,
        fun s r owned hs => outcomeOf_use_error (hs.algorithm.trans halgorithm)⟩
      cases hx
      cases herr
      exact hcheck err rfl
    | ok a =>
      obtain ⟨answer, hproper, hanswers⟩ := hf a halgorithm
      refine ⟨answer, fun x hx err herr => hproper err (hx.trans (congrArg _ herr)),
        fun s r owned hs => ?_⟩
      -- deriving the key changes what is owned, and the call on the key answers the same for that
      obtain ⟨k, s', r', owned', hkey, hk⟩ := hs.exists_publicKey
      refine (outcomeOf_use_ok (hs.algorithm.trans halgorithm) hkey).trans ?_
      exact (hanswers k r' owned' hk).1
  · refine ⟨.ok (.error (.algorithmMismatch required i.algorithm)), fun x hx err herr => ?_,
      fun s r owned hs => ?_⟩
    · cases hx
      cases herr
      nofun
    · rw [← hs.algorithm] at halgorithm ⊢
      exact outcomeOf_use_ne halgorithm

end Use

end PublicSource

/-! ### Requests -/

theorem proper_of_hashAlgorithm {hash : String} {err : CryptoError}
    (h : hashAlgorithm hash = .error err) : err.Proper := by
  unfold hashAlgorithm at h
  split at h <;> cases h
  nofun

/-- What a request on a public key or certificate answers depends on the key alone, unless it
asks for a handle. -/
theorem PublicRequest.answers_run {key : PublicKey} {i : PublicInfo}
    (hinfo : publicInfo P key = .ok i) {q : PublicRequest} (hq : q ≠ .key) (e : Entropy) :
    PublicSource.Answers key i Outcome.Proper fun s => q.run P s e := by
  cases q with
  | key => exact absurd rfl hq
  | modulus =>
    refine ⟨.ok (.ofExcept .bytes (i.modulus.elim (.error .malformedPublicKey) .ok)),
      fun outcome houtcome => ?_, fun s r owned hs => ?_⟩
    · cases houtcome
      refine Outcome.proper_ofExcept fun err herr => ?_
      cases hmodulus : i.modulus <;> rw [hmodulus] at herr <;> cases herr
      rintro _ ⟨⟩
    · obtain ⟨k, s', r', owned', hkey, hk⟩ := hs.exists_publicKey
      refine (congrArg (fun x => (outcomeOf x).map Prod.fst) (bind_run_ok hkey)).trans ?_
      rw [← hk.info]
      refine congrArg (fun x => Except.ok (Outcome.ofExcept .bytes x)) ?_
      rw [ok_bind]
      cases k.info.modulus <;> rfl
  | encrypt padding input =>
    have huse : PublicSource.Answers key i (fun x => ∀ err, x = .error err → err.Proper) fun s =>
        Keyring.encrypt P padding s input e :=
      PublicSource.answers_use (by rintro _ ⟨⟩)
        fun _ hrsa => answers_encryptUnder hinfo padding input e hrsa
    exact huse.map fun _ => Outcome.proper_ofExcept
  | verify scheme hash signature message =>
    have huse : PublicSource.Answers key i (fun x => ∀ err, x = .error err → err.Proper) fun s =>
        Keyring.verify P scheme hash s signature message e :=
      PublicSource.answers_use (fun _ => proper_of_hashAlgorithm) fun a halgorithm =>
        answers_verify hinfo scheme a signature message e halgorithm
    exact huse.map fun _ => Outcome.proper_ofExcept

/-- What a request on a private key answers depends on the key alone. -/
theorem PrivateRequest.answers_run {key : PrivateKey} {i : PrivateInfo} {j : PublicInfo}
    (hinfo : publicInfo P key.publicKey = .ok j) (hparameters : j.parameters = i.parameters)
    (hsize : j.bitSize = i.bitSize) (q : PrivateRequest) (e : Entropy) :
    Action.Answers (PrivateHandle.At key i) fun k => q.run P k e := by
  -- the algorithm is looked at first, and it is the same for all handles on the key
  have hrequired : ∀ (required : KeyAlgorithm) (f : PrivateHandle → Action Bytes),
      (i.algorithm = required → Action.Answers (PrivateHandle.At key i) f) →
      Action.Answers (PrivateHandle.At key i) fun k =>
        Action.ofExcept (requireAlgorithm k.info.algorithm required) >>= fun _ => f k := by
    intro required f hf
    by_cases halgorithm : i.algorithm = required
    · refine (hf halgorithm).congr fun k r owned hk => ?_
      rw [hk.info, requireAlgorithm, if_pos halgorithm]
      exact run_bind_ok rfl
    · have hmismatch : Action.Answers (PrivateHandle.At key i) fun _ =>
          (throw (.algorithmMismatch required i.algorithm) : Action Bytes) := answers_throw nofun
      refine hmismatch.congr fun k r owned hk => ?_
      rw [hk.info, requireAlgorithm, if_neg halgorithm]
      exact run_bind_error rfl
  cases q with
  | decrypt padding input =>
    exact hrequired .rsa _ fun hrsa =>
      answers_decryptUnder hinfo hparameters hsize padding input e hrsa
  | sign scheme hash message =>
    refine hrequired scheme.algorithm _ fun halgorithm => ?_
    refine (answers_ofExcept _ fun _ => proper_of_hashAlgorithm).bind fun a => ?_
    have hstaged := answers_signStaged (P := P) hinfo hparameters a message e
    cases scheme with
    | pss => exact answers_signPss hinfo hparameters hsize a message e halgorithm
    | pkcs1 => exact hstaged
    | dsa => exact hstaged
    | ecdsa => exact hstaged

/-! ### Handles of a session -/

/-- What is known of the key of a source. -/
def PublicSource.info : PublicSource → PublicInfo
  | key k => k.info
  | certificate c => c.info.publicKey

section Session

variable {s : Session} {name : String}

theorem Session.mem_ownedBy {h : Handle} {x : Ref} (hmem : (name, h) ∈ s.handles)
    (hx : x ∈ h.owns) : x ∈ ownedBy s.all :=
  Multiset.mem_of_le (owns_le_ownedBy (Multiset.mem_coe.mpr (List.mem_map_of_mem hmem))) hx

theorem PublicHandle.StandsFor.at {key : PublicKey} {k : PublicHandle} (hk : k.StandsFor P r key)
    (hr : r.Balanced owned) (howned : ∀ x, k.ref = some x → x ∈ owned) :
    k.At key k.info r owned := by
  obtain ⟨x, hx, hobject⟩ := hk.object
  exact ⟨rfl, hr, x, howned x hx, hx, hobject⟩

variable (hP : P.Rereads) (hs : s.Runs P)

include hP hs

/-- **An unreleased public key or certificate of a session is at a key**, and what it tells is
known of the key. -/
theorem Session.Runs.exists_at {k : PublicSource} (hmem : (name, k.handle) ∈ s.handles)
    (hlive : k.handle.isReleased = false) :
    ∃ key, P.DecodesPublic key ∧ publicInfo P key = .ok k.info ∧
      k.At key k.info s.registry (ownedBy s.all) := by
  have hr := hs.reaches.owned.carries.balanced
  have hbacked := hs.backed hP _ hmem
  cases k with
  | key k =>
    obtain ⟨key, hk⟩ := hbacked (Option.isNone_eq_false_iff.mp hlive)
    refine ⟨key, hk.decoded, hk.info, hk.at hr fun x hx => Session.mem_ownedBy hmem ?_⟩
    simp [PublicSource.handle, Handle.owns, hx]
  | certificate c =>
    obtain ⟨cert, hc⟩ := hbacked (Option.isNone_eq_false_iff.mp hlive)
    obtain ⟨key, hkey, hdecoded, hinfo⟩ := hc.exists_key
    obtain ⟨x, hx, ho⟩ := hc.object
    refine ⟨key, hdecoded, hinfo, rfl, hr, ⟨x, Session.mem_ownedBy hmem ?_, hx, cert, ho, hkey⟩,
      fun k hk => ?_⟩
    · simp [PublicSource.handle, Handle.owns, hx]
    · -- the derived key stands for the same key as the certificate, and tells the same of it
      obtain ⟨key', hkey', hstands⟩ := hc.derived k hk
      cases hkey.symm.trans hkey'
      have hsame : k.info = c.info.publicKey := Except.ok.inj (hstands.info.symm.trans hinfo)
      have hat := hstands.at hr fun x hx => Session.mem_ownedBy hmem (by
        simp [PublicSource.handle, Handle.owns, hk, hx])
      rw [hsame] at hat
      exact hat

/-- An unreleased private key of a session is at a key, and what it tells is known of the public
part of the key. -/
theorem Session.Runs.exists_at_private {k : PrivateHandle}
    (hmem : (name, .privateKey k) ∈ s.handles) (hlive : k.ref.isSome = true) :
    ∃ key i, publicInfo P key.publicKey = .ok i ∧ i.parameters = k.info.parameters ∧
      i.bitSize = k.info.bitSize ∧ k.At key k.info s.registry (ownedBy s.all) := by
  obtain ⟨key, hk⟩ := hs.backed hP _ hmem hlive
  obtain ⟨i, hi, hparameters, hsize⟩ := hk.info
  obtain ⟨x, hx, hobject⟩ := hk.object
  refine ⟨key, i, hi, hparameters, hsize, rfl, hs.reaches.owned.carries.balanced, x,
    Session.mem_ownedBy hmem ?_, hx, hobject⟩
  simp [Handle.owns, hx]

end Session

end Keyring
