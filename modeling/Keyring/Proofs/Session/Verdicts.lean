import Keyring.Proofs.Pss.Value
import Keyring.Proofs.Session.RoundTrip
import Keyring.Proofs.Session.Signatures

/-!
# Signatures get verdicts

The bytes of a signature come from anybody.  Whether they are empty, too long, malformed or out of
range, a request to verify them ends with a verdict: it succeeds, or the signature is invalid.
Where a request to verify fails for another reason, the reason is the key or the name of the hash
algorithm, and the failure is the same for all signatures.

For PSS padding, where the padding is checked here, the provider is taken to carry out the raw
operation on every number below the modulus.  What comes out of it does not matter: every block has
a verdict.

The schemes of the service come down to the verifier of the provider, which says yes, no or
nothing; nothing counts as no.  All checks before it look at the key, at the scheme and at the
name of the hash algorithm, so that what they find is one value, `refusal`, in which no signature
occurs.  That a request gets a verdict or fails alike for all signatures is then the two cases of
this value.

## Main definitions

* `refusal` — what is found about key and hash algorithm before there is a verdict.
* `Outcome.IsVerdict` — the two verdicts.
* `Session.Collapses` — requests on signatures get verdicts, or fail alike.

## Main results

* `Session.Runs.collapses_staged`, `Session.Runs.collapses_pss` — the schemes.
* `Session.Runs.verify_collapses` — **signatures get nothing but verdicts.**
-/

namespace Keyring

open Registry Service Bytes

variable {P : Provider} {s : Session} {name hash : String} {e : Entropy}
  {signature message : Bytes} {a : HashAlgorithm} {scheme : SignatureScheme}

/-- What is found about key and hash algorithm of a signature of the service: the key has to be of
the algorithm of the scheme, the hash algorithm one that is known, and the verifier one that can be
set up for the key. -/
def refusal (P : Provider) (key : PublicKey) (algorithm : KeyAlgorithm) (scheme : SignatureScheme)
    (hash : String) : Except CryptoError Unit := do
  requireAlgorithm algorithm scheme.algorithm
  let _ ← hashAlgorithm hash
  if P.takesDigest key then return ()
  throw (.service .operationFailed)

/-- A verdict on a signature. -/
def Outcome.IsVerdict (o : Outcome) : Prop := o = .answer .done ∨ o = .failure .invalidSignature

/-- The raw operation of a public key succeeds on all numbers below the modulus. -/
def Provider.TakesBlocks (P : Provider) (key : Rsa.PublicKey) : Prop :=
  ∀ e block, block.length = key.byteSize → value block < key.modulus →
    ∃ out, P.rsaEncrypt key .raw e block = some out

theorem Provider.RawPublic.takesBlocks {key : Rsa.PublicKey} {f : Nat → Nat}
    (h : P.RawPublic key f) : P.TakesBlocks key :=
  fun e block hlen hlt => ⟨_, h e block hlen hlt⟩

theorem Outcome.isVerdict_ofExcept (valid : Bool) :
    (Outcome.ofExcept (fun _ => .done) (verdict valid)).IsVerdict := by
  cases valid with
  | false => exact .inr rfl
  | true => exact .inl rfl

/-- A call on a public key that is refused does not touch the service. -/
theorem PublicSource.use_error {α β : Type} {k : PublicSource} {required : KeyAlgorithm}
    {check : Except CryptoError α} {f : α → PublicHandle → Action β} {err : CryptoError}
    {r : Registry} (h : (do requireAlgorithm k.algorithm required; check) = .error err) :
    k.use required check f r = .ok (.error err, k) r := by
  unfold use
  cases hrequired : requireAlgorithm k.algorithm required with
  | error e =>
    rw [hrequired] at h
    cases h
    rfl
  | ok _ =>
    rw [hrequired] at h
    cases check with
    | error e =>
      cases h
      rfl
    | ok c => cases h

namespace Session

/-- Requests on signatures all get verdicts, or all fail alike. -/
def Collapses (P : Provider) (s : Session) (request : Bytes → Request) :
    Except CryptoError Unit → Prop
  | .ok () => ∀ signature e, ∃ outcome s',
      (request signature).run P e s = .ok outcome s' ∧ outcome.IsVerdict
  | .error err => ∀ signature e, ∃ s', (request signature).run P e s = .ok (.failure err) s'

/-- Two signatures both get verdicts, or fail alike. -/
theorem Collapses.pair {request : Bytes → Request} {x : Except CryptoError Unit}
    (h : Collapses P s request x) (signature signature' : Bytes) (e e' : Entropy) :
    ∃ outcome outcome' s₁ s₂, (request signature).run P e s = .ok outcome s₁ ∧
      (request signature').run P e' s = .ok outcome' s₂ ∧
      (outcome.IsVerdict ∧ outcome'.IsVerdict ∨
        ∃ err, outcome = .failure err ∧ outcome' = .failure err) := by
  cases x with
  | ok _ =>
    obtain ⟨outcome, s₁, hrun, hverdict⟩ := h signature e
    obtain ⟨outcome', s₂, hrun', hverdict'⟩ := h signature' e'
    exact ⟨outcome, outcome', s₁, s₂, hrun, hrun', .inl ⟨hverdict, hverdict'⟩⟩
  | error err =>
    obtain ⟨s₁, hrun⟩ := h signature e
    obtain ⟨s₂, hrun'⟩ := h signature' e'
    exact ⟨_, _, s₁, s₂, hrun, hrun', .inr ⟨err, rfl, rfl⟩⟩

/-- A request to verify is refused for its key or its hash algorithm. -/
theorem run_verify_refused {k : PublicSource} {err : CryptoError}
    (hfind : s.find? name = some k.handle)
    (h : (do requireAlgorithm k.algorithm scheme.algorithm; hashAlgorithm hash) = .error err)
    (signature message : Bytes) (e : Entropy) :
    ∃ s', (Request.ofPublic name (.verify scheme hash signature message)).run P e s =
      .ok (.failure err) s' := by
  have hrequest : (PublicRequest.verify scheme hash signature message).run P k e s.registry =
      .ok (.failure err, k) s.registry := by
    rw [PublicRequest.run, verify]
    exact bind_run_ok (PublicSource.use_error h)
  exact ⟨_, (SessionM.ofPublic_eq P _ e hfind).trans
    (bind_run_ok (SessionM.ofRegistry_eq_ok hrequest))⟩

section Runs

variable (hP : P.Rereads) (hs : s.Runs P)

include hP hs

/-! ### Signatures of the service -/

/-- Once key and hash algorithm are found right, the provider's verifier decides. -/
theorem Runs.verify_isVerdict {key : PublicKey} (hkey : s.PublicAt name key)
    (halgorithm : key.algorithm? = some scheme.algorithm) (hscheme : scheme ≠ .pss)
    (hhash : HashAlgorithm.ofName? hash = some a) (htakes : P.takesDigest key = true)
    (signature message : Bytes) (e : Entropy) :
    ∃ outcome s', (Request.ofPublic name (.verify scheme hash signature message)).run P e s =
      .ok outcome s' ∧ outcome.IsVerdict := by
  obtain ⟨s', hrun⟩ := hs.run_verify hP hkey halgorithm hscheme hhash signature message e
  -- the verifier may be set up, so it has the last word
  rw [verifyWith_eq halgorithm, if_pos htakes] at hrun
  exact ⟨_, s', hrun, Outcome.isVerdict_ofExcept _⟩

/-- Without a verifier for the key, the service fails. -/
theorem Runs.verify_unusable {key : PublicKey} (hkey : s.PublicAt name key)
    (halgorithm : key.algorithm? = some scheme.algorithm) (hscheme : scheme ≠ .pss)
    (hhash : HashAlgorithm.ofName? hash = some a) (htakes : P.takesDigest key = false)
    (signature message : Bytes) (e : Entropy) :
    ∃ s', (Request.ofPublic name (.verify scheme hash signature message)).run P e s =
      .ok (.failure (.service .operationFailed)) s' := by
  obtain ⟨s', hrun⟩ := hs.run_verify hP hkey halgorithm hscheme hhash signature message e
  rw [verifyWith_eq halgorithm, htakes, if_neg Bool.false_ne_true] at hrun
  exact ⟨s', hrun⟩

/-- **Signatures of the service get verdicts**, or fail for key or hash algorithm. -/
theorem Runs.collapses_staged {key : PublicKey} {algorithm : KeyAlgorithm}
    (hkey : s.PublicAt name key) (halgorithm : key.algorithm? = some algorithm)
    (hscheme : scheme ≠ .pss) (hash : String) (message : Bytes) :
    Collapses P s (fun signature => .ofPublic name (.verify scheme hash signature message))
      (refusal P key algorithm scheme hash) := by
  obtain ⟨k, hfind, hinfo, hk⟩ := hs.exists_handle_public hP hkey
  have hsame : k.algorithm = algorithm :=
    hk.algorithm.trans (Option.some.inj ((publicInfo_eq_ok hinfo).1.symm.trans halgorithm))
  unfold refusal
  -- the checks in order: algorithm, hash algorithm, verifier
  by_cases hrequired : algorithm = scheme.algorithm
  · have hpass : requireAlgorithm algorithm scheme.algorithm = .ok () := if_pos hrequired
    rw [hpass, ok_bind]
    cases hhash : hashAlgorithm hash with
    | error err =>
      refine fun signature e => run_verify_refused hfind ?_ signature message e
      rw [hsame, hpass, ok_bind, hhash]
    | ok a =>
      have hname : HashAlgorithm.ofName? hash = some a := by
        unfold hashAlgorithm at hhash
        split at hhash <;> cases hhash
        assumption
      rw [hrequired] at halgorithm
      cases htakes : P.takesDigest key with
      | false =>
        exact fun signature e =>
          hs.verify_unusable hP hkey halgorithm hscheme hname htakes signature message e
      | true =>
        exact fun signature e =>
          hs.verify_isVerdict hP hkey halgorithm hscheme hname htakes signature message e
  · have hfail : requireAlgorithm algorithm scheme.algorithm =
        .error (.algorithmMismatch scheme.algorithm algorithm) := if_neg hrequired
    rw [hfail, error_bind]
    refine fun signature e => run_verify_refused hfind ?_ signature message e
    rw [hsame, hfail, error_bind]

/-! ### PSS padding -/

section Padded

variable {key : Rsa.PublicKey} (hkey : s.PublicAt name (.rsa key)) (hencodes : P.EncodesRsa key)

include hkey hencodes

omit hencodes in
/-- A request to verify a PSS signature gets the verdict that the check gives through every handle
on the key. -/
theorem Runs.run_verify_pss {valid : Bool}
    (hcheck : ∀ i k r owned, publicInfo P (.rsa key) = .ok i → i.algorithm = .rsa →
      PublicHandle.At (.rsa key) i k r owned →
      ∃ r', (verifyPss P a k signature message e).run r = .ok (.ok valid) r') :
    ∃ s', (Request.ofPublic name (.verify .pss a.name signature message)).run P e s =
      .ok (.ofExcept (fun _ => .done) (verdict valid)) s' := by
  have hname : hashAlgorithm a.name = .ok a := by rw [hashAlgorithm, HashAlgorithm.ofName?_name]
  refine hs.exists_use hP (fun k => rfl) hkey rfl hname fun i k r owned hinfo halgorithm hk => ?_
  obtain ⟨r', hrun⟩ := hcheck i k r owned hinfo halgorithm hk
  exact ⟨r', Action.run_bind_ok hrun⟩

/-- Out of range, the signature is invalid, and nothing is asked of the service. -/
theorem Runs.verify_pss_out_of_range
    (hrange : ¬(signature.length = key.byteSize ∧ value signature < key.modulus)) :
    ∃ s', (Request.ofPublic name (.verify .pss a.name signature message)).run P e s =
      .ok (.ofExcept (fun _ => .done) (verdict false)) s' := by
  refine hs.run_verify_pss hP hkey fun i k r owned hinfo halgorithm hk => ?_
  obtain ⟨x, -, hx, -⟩ := hk.object
  obtain ⟨hmodulus, -⟩ := modulus_of_publicInfo hencodes hinfo
  refine ⟨r, (verifyPss_run hx (hk.info ▸ hmodulus)).trans ?_⟩
  rw [if_neg (signatureInRange_minimal.not.mpr hrange)]
  rfl

/-- In range, the raw operation gives a block, and every block has a verdict. -/
theorem Runs.verify_pss_in_range (hraw : P.TakesBlocks key) (hbits : 512 ≤ key.bitSize)
    (ha : a ≠ .md5) (hlen : signature.length = key.byteSize) (hlt : value signature < key.modulus)
    (message : Bytes) (e : Entropy) :
    ∃ valid s', (Request.ofPublic name (.verify .pss a.name signature message)).run P e s =
      .ok (.ofExcept (fun _ => .done) (verdict valid)) s' := by
  obtain ⟨source, -, hinfo, -⟩ := hs.exists_handle_public hP hkey
  obtain ⟨-, hmax⟩ := modulus_of_publicInfo hencodes hinfo
  -- the block is known before the request, as no registry is asked for it
  obtain ⟨block, hblock⟩ := hraw e signature hlen hlt
  have hsum : a.digestLength + Pss.saltLength a + 2 < twoTo 64 := by cases a <;> decide
  obtain ⟨valid, hverdict⟩ := Pss.exists_verdict ha hbits hmax hsum message block
  refine ⟨valid, hs.run_verify_pss hP hkey fun i k r owned hinfo halgorithm hk => ?_⟩
  obtain ⟨x, -, hx, -⟩ := hk.object
  obtain ⟨hmodulus, -⟩ := modulus_of_publicInfo hencodes hinfo
  obtain ⟨-, hsize, -⟩ := publicInfo_eq_ok hinfo
  obtain ⟨_, hrsa, hbytes⟩ := byteSize_of_publicInfo hinfo halgorithm
  cases hrsa
  obtain ⟨r', hrun, -⟩ := hk.exists_encryptUnder (P := P) hbytes .raw signature e
  -- a signature in range is not filled up
  have hfit : fitInput .raw key.byteSize signature = .ok signature := by
    rw [fitInput_raw (Nat.le_of_eq hlen), padLeft_of_length hlen]
  rw [encryptWith_eq hfit, hblock] at hrun
  refine ⟨r', (verifyPss_run hx (hk.info ▸ hmodulus)).trans ?_⟩
  rw [if_pos (signatureInRange_minimal.mpr ⟨hlen, hlt⟩), hk.info, hsize]
  refine (Action.run_bind_ok hrun).trans ?_
  show (ofPss (Pss.verifyPadding a.name (Pss.saltLength a) key.bitSize message block)).run r' = _
  rw [hverdict]
  rfl

/-- **PSS signatures get verdicts.** -/
theorem Runs.collapses_pss (hraw : P.TakesBlocks key) (hbits : 512 ≤ key.bitSize)
    (ha : a ≠ .md5) (message : Bytes) :
    Collapses P s (fun signature => .ofPublic name (.verify .pss a.name signature message))
      (.ok ()) := by
  intro signature e
  -- out of range the service is not asked, in range there is a block
  by_cases hrange : signature.length = key.byteSize ∧ value signature < key.modulus
  · obtain ⟨valid, s', hrun⟩ := hs.verify_pss_in_range hP hkey hencodes hraw hbits ha hrange.1
      hrange.2 message e
    exact ⟨_, s', hrun, Outcome.isVerdict_ofExcept valid⟩
  · obtain ⟨s', hrun⟩ := hs.verify_pss_out_of_range hP hkey hencodes hrange
    exact ⟨_, s', hrun, Outcome.isVerdict_ofExcept false⟩

end Padded

/-- **Signatures get nothing but verdicts.**  Every unreleased public key or certificate of a
session stands for a key.  Under a scheme of the service, a hash algorithm given by any name and
any message, requests to verify signatures end well or with an invalid signature, all of them, or
fail all for the same reason, which is found about key and hash algorithm alone; so any two
signatures, whatever their bytes and lengths, get verdicts both or the same failure.  Under PSS
padding, with an RSA key of at least 512 bits on which the raw operation succeeds for all numbers
below the modulus, and a hash algorithm other than MD5, they all get verdicts. -/
theorem Runs.verify_collapses :
    (∀ name (k : PublicSource), s.find? name = some k.handle → k.handle.isReleased = false →
      ∃ key, s.PublicAt name key ∧ key.algorithm? = some k.algorithm) ∧
    (∀ name key algorithm scheme hash message, s.PublicAt name key →
      key.algorithm? = some algorithm → scheme ≠ .pss →
      Collapses P s (fun signature => .ofPublic name (.verify scheme hash signature message))
        (refusal P key algorithm scheme hash) ∧
      ∀ signature signature' e e', ∃ outcome outcome' s₁ s₂,
        (Request.ofPublic name (.verify scheme hash signature message)).run P e s =
          .ok outcome s₁ ∧
        (Request.ofPublic name (.verify scheme hash signature' message)).run P e' s =
          .ok outcome' s₂ ∧
        (outcome.IsVerdict ∧ outcome'.IsVerdict ∨
          ∃ err, outcome = .failure err ∧ outcome' = .failure err)) ∧
    ∀ name key (a : HashAlgorithm) message, s.PublicAt name (.rsa key) →
      P.EncodesRsa key → P.TakesBlocks key → 512 ≤ key.bitSize → a ≠ .md5 →
      Collapses P s (fun signature => .ofPublic name (.verify .pss a.name signature message))
        (.ok ()) := by
  refine ⟨fun name k => hs.exists_publicAt hP,
    fun name key algorithm scheme hash message hkey halgorithm hscheme => ?_,
    fun name key a message hkey hencodes hraw hbits ha =>
      hs.collapses_pss hP hkey hencodes hraw hbits ha message⟩
  have hcollapses := hs.collapses_staged hP hkey halgorithm hscheme hash message
  exact ⟨hcollapses, hcollapses.pair⟩

end Runs

/-- Nothing, and too many bytes, get verdicts through a certificate of a key of 609 bits, with PSS
padding and without; under a hash algorithm that is not known both fail alike. -/
theorem verify_collapses_mersenne : ∃ s : Session, s.Runs .narrow ∧
    (∃ outcome s', (Request.ofPublic "c" (.verify .pss "sha256" [] [1, 2, 3])).run .narrow
      (fun _ => 0) s = .ok outcome s' ∧ outcome.IsVerdict) ∧
    (∃ outcome s', (Request.ofPublic "c" (.verify .pkcs1 "sha1" (List.replicate 78 1)
      [1, 2, 3])).run .narrow (fun _ => 0) s = .ok outcome s' ∧ outcome.IsVerdict) ∧
    ∃ s', (Request.ofPublic "c" (.verify .pkcs1 "sha3" [] [1, 2, 3])).run .narrow
      (fun _ => 0) s = .ok (.failure (.unsupportedHash "sha3")) s' := by
  have hraw : Provider.narrow.TakesBlocks Rsa.mersenneKey.publicKey :=
    (Provider.standard_rawPublic (by decide +kernel)).takesBlocks
  have hbits : 512 ≤ Rsa.mersenneKey.publicKey.bitSize := by rw [Rsa.mersenneKey_bitSize]; decide
  obtain ⟨s, hs, -, -, hc⟩ := exists_at_mersenne
  obtain ⟨-, hservice, hpss⟩ := Runs.verify_collapses Provider.narrow_rereads hs
  obtain ⟨hknown, -⟩ := hservice "c" _ .rsa .pkcs1 "sha1" [1, 2, 3] hc rfl (by decide)
  obtain ⟨hunknown, -⟩ := hservice "c" _ .rsa .pkcs1 "sha3" [1, 2, 3] hc rfl (by decide)
  exact ⟨s, hs, hpss "c" _ .sha256 [1, 2, 3] hc Provider.standard_encodesRsa_mersenneKey hraw hbits
    (by decide) [] _, hknown _ _, hunknown _ _⟩

end Session

end Keyring
