import Keyring.Proofs.Key.Failures
import Keyring.Proofs.Provider.Narrow
import Keyring.Proofs.Session.Answers
import Keyring.Proofs.Session.Released

/-!
# The service is never misused

The service refuses what makes no sense to it: a reference that it does not know, an object of
another kind than a call is for, a transform with something missing, a buffer that is too small.
None of this can be brought about from outside, by whatever requests: when the service fails, it
fails for the input of an operation.

The reason is that handles and objects agree.  A handle that was not released has an object of
the class and algorithm that the handle tells, of exactly the size that it tells.

## Main definitions

* `ServiceError.isMisuse` — failures that only misuse can cause.
* `Handle.Agrees` — a handle tells the truth of its object.

## Main results

* `Handle.Backed.agrees` — a handle that stands for something agrees with its object.
* `Request.proper_run` — every request ends properly.
* `Session.Runs.never_misused` — **over any session, the service is never misused.**
-/

namespace Keyring

open Registry

variable {α β : Type} {P : Provider} {r r' : Registry} {s s' : Session} {h : Handle}
  {name : String} {e : Entropy} {err : CryptoError}

/-- Whether a failure of the service is a misuse of it.  The failures that are none are those of
decoders, of inputs and of operations. -/
def ServiceError.isMisuse : ServiceError → Bool
  | undecodable | inputTooLong | operationFailed => false
  | status code => code = invalidKeyReference || code = unimplemented || code = smallBuffer
  | _ => true

/-! ### Handles and their objects -/

/-- An object is a key of a class and an algorithm; if it is an RSA key, it has a size in
bytes. -/
def Registry.HasKey (r : Registry) (x : Ref) (isPrivate : Bool) (a : KeyAlgorithm) (bytes : Nat) :
    Prop :=
  ∃ o, r.object x = .ok (.key o) ∧ o.material.isPrivate = isPrivate ∧
    o.material.algorithm? = some a ∧ ∀ k, o.material.publicKey.rsa? = some k → k.byteSize = bytes

/-- What a handle tells is true of its object: unless it was released, there is a key of the
class, of the algorithm and of the size in bytes, or a certificate of such a key.  So it is with
the key that a certificate has derived. -/
def Handle.Agrees (r : Registry) : Handle → Prop
  | privateKey k => ∀ x, k.ref = some x → r.HasKey x true k.info.algorithm k.info.byteSize
  | publicKey k => ∀ x, k.ref = some x → r.HasKey x false k.info.algorithm k.info.byteSize
  | certificate c => ∀ x, c.ref = some x →
    (∃ o key, r.object x = .ok (.certificate o) ∧ o.key = some key ∧
      key.algorithm? = some c.info.algorithm ∧
      ∀ k, key.rsa? = some k → k.byteSize = c.info.byteSize) ∧
    ∀ k, c.derived = some k → ∃ y, k.ref = some y ∧
      r.HasKey y false c.info.algorithm c.info.byteSize

/-- What is known of the size of an RSA key is its size. -/
theorem byteSize_of_rsa? {key : PublicKey} {i : PublicInfo} {k : Rsa.PublicKey}
    (hinfo : publicInfo P key = .ok i) (hk : key.rsa? = some k) : k.byteSize = i.byteSize := by
  obtain ⟨halgorithm, hsize, -⟩ := publicInfo_eq_ok hinfo
  rw [PublicInfo.byteSize, hsize]
  cases key <;> cases hk
  · rfl
  · cases halgorithm

theorem PublicHandle.StandsFor.hasKey {k : PublicHandle} {key : PublicKey} {x : Ref}
    (hk : k.StandsFor P r key) (hx : k.ref = some x) :
    r.HasKey x false k.info.algorithm k.info.byteSize := by
  obtain ⟨y, hy, canSign, ho⟩ := hk.object
  cases hx.symm.trans hy
  exact ⟨_, ho, rfl, (publicInfo_eq_ok hk.info).1, fun _ hrsa => byteSize_of_rsa? hk.info hrsa⟩

theorem PrivateHandle.StandsFor.hasKey {k : PrivateHandle} {key : PrivateKey} {x : Ref}
    (hk : k.StandsFor P r key) (hx : k.ref = some x) :
    r.HasKey x true k.info.algorithm k.info.byteSize := by
  obtain ⟨y, hy, ho⟩ := hk.object
  cases hx.symm.trans hy
  obtain ⟨i, hi, hparameters, hsize⟩ := hk.info
  refine ⟨_, ho, rfl, algorithm_of_publicInfo hi hparameters, fun rsa hrsa => ?_⟩
  rw [PrivateInfo.byteSize, ← hsize]
  exact byteSize_of_rsa? hi hrsa

/-- **A handle that stands for something agrees with its object.** -/
theorem Handle.Backed.agrees (hh : h.Backed P r) : h.Agrees r := by
  cases h with
  | privateKey k =>
    intro x hx
    obtain ⟨key, hk⟩ := hh (by rw [hx]; rfl)
    exact hk.hasKey hx
  | publicKey k =>
    intro x hx
    obtain ⟨key, hk⟩ := hh (by rw [hx]; rfl)
    exact hk.hasKey hx
  | certificate c =>
    intro x hx
    obtain ⟨cert, hc⟩ := hh (by rw [hx]; rfl)
    obtain ⟨y, hy, ho⟩ := hc.object
    cases hx.symm.trans hy
    obtain ⟨key, hkey, -, hinfo⟩ := hc.exists_key
    refine ⟨⟨cert, key, ho, hkey, (publicInfo_eq_ok hinfo).1,
      fun _ hrsa => byteSize_of_rsa? hinfo hrsa⟩, fun k hk => ?_⟩
    obtain ⟨key', hkey', hstands⟩ := hc.derived k hk
    obtain ⟨z, hz, -⟩ := hstands.object
    -- what is known of the derived key is what is known of the certificate
    have hsame : k.info = c.info.publicKey := by
      cases hkey.symm.trans hkey'
      exact Except.ok.inj (hstands.info.symm.trans hinfo)
    have hhas := hstands.hasKey hz
    rw [hsame] at hhas
    exact ⟨z, hz, hhas⟩

/-! ### Parsing and importing -/

section Parse

/-- What is wrong with an input is not the service. -/
theorem CryptoError.proper_of_isOfInput (h : err.isOfInput = true) : err.Proper := by
  rintro e rfl
  cases h

variable {b : Bytes} {password : Option Bytes}

theorem proper_of_parsePublic (h : parsePublic P b = .error err) : err.Proper :=
  CryptoError.proper_of_isOfInput (isOfInput_of_parsePublic h)

theorem proper_of_parseCertificate (h : parseCertificate P b = .error err) : err.Proper :=
  CryptoError.proper_of_isOfInput (isOfInput_of_parseCertificate h)

theorem proper_of_parsePrivate (h : parsePrivate P b password = .error (.error err)) :
    err.Proper :=
  CryptoError.proper_of_isOfInput (isOfInput_of_parsePrivate h)

theorem proper_of_parseContainer (h : parseContainer P b password = .error (.error err)) :
    err.Proper := by
  rcases parseContainer_eq_error h with ⟨-, rfl⟩ | ⟨-, hinput⟩
  · nofun
  · exact CryptoError.proper_of_isOfInput hinput

/-- Reading a source fails as parsing does, or because the source cannot be read. -/
theorem Source.proper_of_resolve {source : Source α} {parse : Bytes → Except Failure α}
    (hparse : ∀ b, parse b = .error (.error err) → err.Proper)
    (h : source.resolve parse = .error (.error err)) : err.Proper := by
  rcases source with b | (_ | b) | a
  · exact hparse b h
  · cases h
    nofun
  · exact hparse b h
  · cases h

end Parse

namespace Action

/-- A call ends properly, wherever it is made. -/
def EndsProperly (x : Action α) : Prop :=
  ∀ r err r', x.run r = .ok (.error err) r' → err.Proper

variable {x : Action α} {f : α → Action β}

theorem endsProperly_pure (a : α) : EndsProperly (pure a) := by
  intro r err r' hrun
  cases hrun

theorem EndsProperly.bind (hx : x.EndsProperly)
    (hf : ∀ a r r', x.run r = .ok (.ok a) r' → (f a).EndsProperly) : (x >>= f).EndsProperly :=
  FailsWith.bind hx hf

theorem EndsProperly.onError (hx : x.EndsProperly) (cleanup : EStateM Halt Registry Unit) :
    (x.onError cleanup).EndsProperly :=
  FailsWith.onError hx cleanup

theorem endsProperly_ofParsed {parsed : Except Failure α}
    (h : ∀ err, parsed = .error (.error err) → err.Proper) : (ofParsed parsed).EndsProperly := by
  intro r err r' hrun
  rcases parsed with (err' | halt) | a <;> cases hrun
  exact h err rfl

theorem endsProperly_mapM {ι : Type} {g : ι → Action α} {i : Option ι}
    (hg : ∀ j, i = some j → (g j).EndsProperly) : (i.mapM g).EndsProperly := by
  cases i with
  | none => exact endsProperly_pure none
  | some j => exact (hg j rfl).bind fun a _ _ _ => endsProperly_pure (some a)

end Action

section Import

open Keyring.Action

/-- The import policy has errors of its own. -/
theorem proper_of_checkParameters {p : KeyParameters} {bits : Nat}
    (h : checkParameters p bits = .error err) : err.Proper := by
  unfold checkParameters at h
  split at h
  · cases h
  · cases h
  · cases h
    nofun
  · split at h
    · split at h <;> cases h
      nofun
    · cases h
      nofun

variable (hP : P.Rereads)

include hP

theorem endsProperly_importPrivate {i : PrivateInfo} (hi : i.Known P) :
    (importPrivate P i).EndsProperly := by
  intro r err r' hrun
  cases hcheck : checkParameters i.parameters i.bitSize with
  | error err' =>
    rw [importPrivate, hcheck] at hrun
    cases hrun
    exact proper_of_checkParameters hcheck
  | ok u =>
    obtain ⟨key, j, -, -, -, -, heq⟩ := importPrivate_eq hP hi hcheck
    cases (heq r).symm.trans hrun

theorem endsProperly_importPublic {i : PublicInfo} (hi : i.Known P) :
    (importPublic P i).EndsProperly := by
  intro r err r' hrun
  obtain ⟨key, hdecodes, hinfo⟩ := hi
  cases hcheck : checkParameters i.parameters i.bitSize with
  | error err' =>
    rw [importPublic, hcheck] at hrun
    cases hrun
    exact proper_of_checkParameters hcheck
  | ok u => cases (importPublic_eq hP hdecodes hinfo hcheck).symm.trans hrun

theorem endsProperly_importCertificate {i : CertificateInfo} (hi : i.Known P) :
    (importCertificate P i).EndsProperly := by
  intro r err r' hrun
  obtain ⟨cert, hdecodes, hinfo⟩ := hi
  cases (importCertificate_eq hP hdecodes hinfo).symm.trans hrun

theorem endsProperly_importCertificates (done : List CertificateHandle)
    {rest : List CertificateInfo} (hrest : ∀ i ∈ rest, i.Known P) :
    (importCertificates P done rest).EndsProperly := by
  induction rest generalizing done with
  | nil => exact endsProperly_pure done
  | cons i rest ih =>
    obtain ⟨hi, hrest⟩ := List.forall_mem_cons.mp hrest
    exact ((endsProperly_importCertificate hP hi).onError _).bind fun c _ _ _ =>
      ih (done ++ [c]) hrest

theorem endsProperly_importContainer {i : ContainerInfo} (hi : i.Known P) :
    (importContainer P i).EndsProperly := by
  refine (endsProperly_mapM fun j hj =>
    endsProperly_importPrivate hP (hi.privateKey j hj)).bind fun key _ _ _ => ?_
  refine ((endsProperly_mapM fun j hj =>
    endsProperly_importCertificate hP (hi.certificate j hj)).onError _).bind
      fun certificate _ _ _ => ?_
  exact ((endsProperly_importCertificates hP [] hi.others).onError _).bind
    fun others _ _ _ => endsProperly_pure _

end Import

/-! ### Requests -/

/-- What is loaded ends properly if the loader does. -/
theorem SessionM.proper_of_load {call : Action α} {answer : α → Answer}
    {handles : α → List (String × Handle)} {outcome : Outcome} (hcall : call.EndsProperly)
    (hrun : load call answer handles s = .ok outcome s') : outcome.Proper := by
  rintro err rfl
  exact hcall _ _ _ (run_of_load_failure hrun)

theorem Operation.Refuses.proper {o : Operation} {a : KeyAlgorithm} (h : o.Refuses a err) :
    err.Proper := by
  rcases h.cases with rfl | ⟨-, rfl⟩ | ⟨-, scheme, hash, -, rfl⟩ <;> nofun

section Handles

variable {k : PublicSource} {outcome : Outcome}

/-- Whoever asks a released public key or certificate is told so. -/
theorem PublicRequest.proper_released (hcoherent : k.handle.Coherent)
    (hreleased : k.handle.isReleased = true) {q : PublicRequest} {k' : PublicSource}
    (hrun : q.run P k e r = .ok (outcome, k') r') : outcome.Proper := by
  cases ho : q.operation? with
  | some o =>
    obtain ⟨err, hrefused, hrefuses⟩ := q.exists_run_released P hcoherent hreleased ho e
    cases hrefused.symm.trans hrun
    rintro _ ⟨⟩
    exact hrefuses.proper
  | none =>
    -- the key itself or its modulus is asked for
    have hkey : ∀ x s', k.publicKey r = .ok (x, s') r' → ∀ err, x = .error err → err.Proper := by
      rintro x s' hkey err rfl
      rcases PublicSource.publicKey_cases hkey with ⟨_, ⟨⟩, -⟩ | ⟨c, rfl, hderive⟩
      have hnone : c.ref = none := Option.isNone_iff_eq_none.mp hreleased
      cases (run_owned_none (r := r) hnone).symm.trans hderive
      nofun
    cases q with
    | encrypt padding input => cases ho
    | verify scheme hash signature message => cases ho
    | key =>
      obtain ⟨⟨x, s'⟩, r₁, hpublic, hrest⟩ := exists_of_bind_run hrun
      cases hrest
      exact Outcome.proper_ofExcept (hkey _ _ hpublic)
    | modulus =>
      obtain ⟨⟨x, s'⟩, r₁, hpublic, hrest⟩ := exists_of_bind_run hrun
      cases hrest
      refine Outcome.proper_ofExcept fun err herr => ?_
      rcases bind_eq_error_iff.mp herr with hx | ⟨key, -, herr⟩
      · exact hkey _ _ hpublic err hx
      · split at herr <;> cases herr
        nofun

end Handles

/-- A released private key is refused, or there is no room for the signature. -/
theorem PrivateRequest.proper_released {k : PrivateHandle} {q : PrivateRequest}
    {result : Except CryptoError Bytes} (hnone : k.ref = none)
    (hrun : (q.run P k e).run r = .ok result r') : (Outcome.ofExcept .bytes result).Proper := by
  by_cases hcrowded : q.Crowded k.info
  · cases (q.run_crowded P hcrowded e (r := r)).symm.trans hrun
    nofun
  · rcases q.exists_run_released P e hnone hcrowded (r := r) with ⟨err, hrefused, hrefuses⟩ |
      ⟨-, -, hlong⟩
    · cases hrefused.symm.trans hrun
      rintro _ ⟨⟩
      exact hrefuses.proper
    · cases hlong.symm.trans hrun

section Request

variable (hP : P.Rereads) {outcome : Outcome}

include hP

theorem Session.Runs.proper_ofPublic {q : PublicRequest} (hs : s.Runs P)
    (hrun : (Request.ofPublic name q).run P e s = .ok outcome s') : outcome.Proper := by
  rcases SessionM.ofPublic_cases hrun with ⟨rfl, -⟩ | ⟨k, k', r', hfind, hcall, -⟩
  · nofun
  cases hreleased : k.handle.isReleased with
  | true => exact q.proper_released (hs.reaches.owned.coherent hfind) hreleased hcall
  | false =>
    obtain ⟨key, -, hinfo, hk⟩ := hs.exists_at hP (mem_of_find? hfind) hreleased
    by_cases hkey : q = .key
    · -- the key is there
      subst hkey
      obtain ⟨k₁, s₁, r₁, owned', hpublic, -⟩ := hk.exists_publicKey
      cases (bind_run_ok hpublic).symm.trans hcall
      nofun
    · obtain ⟨answer, hproper, hanswers⟩ := q.answers_run hinfo hkey e
      have hanswer : (outcomeOf (q.run P k e s.registry)).map Prod.fst = answer :=
        hanswers k _ _ hk
      rw [hcall] at hanswer
      exact hproper _ hanswer.symm

theorem Session.Runs.proper_ofPrivate {q : PrivateRequest} (hs : s.Runs P)
    (hrun : (Request.ofPrivate name q).run P e s = .ok outcome s') : outcome.Proper := by
  rcases SessionM.ofPrivate_cases hrun with ⟨rfl, -⟩ | ⟨k, result, r', hfind, hcall, rfl, -⟩
  · nofun
  cases hreleased : k.ref with
  | none => exact q.proper_released hreleased hcall
  | some x =>
    obtain ⟨key, j, hj, hparameters, hsize, hk⟩ :=
      hs.exists_at_private hP (mem_of_find? hfind) (by rw [hreleased]; rfl)
    obtain ⟨answer, hproper, hanswers⟩ := q.answers_run hj hparameters hsize e
    have hanswer : outcomeOf ((q.run P k e).run s.registry) = answer := (hanswers k _ _ hk).1
    rw [hcall] at hanswer
    refine Outcome.proper_ofExcept fun err herr => ?_
    subst herr
    exact hproper err hanswer.symm

/-- **Every request ends properly.** -/
theorem Request.proper_run {q : Request} (hs : s.Runs P) (hq : q.Honest P)
    (hrun : q.run P e s = .ok outcome s') : outcome.Proper := by
  cases q with
  | loadPrivate name source password =>
    refine SessionM.proper_of_load ((Action.endsProperly_ofParsed fun err herr => ?_).bind
      fun i _ _ hi => endsProperly_importPrivate hP ?_) hrun
    · exact Source.proper_of_resolve (fun _ => proper_of_parsePrivate) herr
    · exact Source.known_of_resolve hq (fun _ _ => known_of_parsePrivate) (Action.ofParsed_eq_ok hi)
  | loadPublic name source =>
    refine SessionM.proper_of_load ((Action.endsProperly_ofParsed fun err herr => ?_).bind
      fun i _ _ hi => endsProperly_importPublic hP ?_) hrun
    · exact Source.proper_of_resolve (fun _ h => proper_of_parsePublic (failing_eq_error h)) herr
    · exact Source.known_of_resolve hq (fun _ _ h => known_of_parsePublic (failing_eq_ok h))
        (Action.ofParsed_eq_ok hi)
  | loadCertificate name source =>
    refine SessionM.proper_of_load ((Action.endsProperly_ofParsed fun err herr => ?_).bind
      fun i _ _ hi => endsProperly_importCertificate hP ?_) hrun
    · exact Source.proper_of_resolve (fun _ h => proper_of_parseCertificate (failing_eq_error h))
        herr
    · exact Source.known_of_resolve hq (fun _ _ h => known_of_parseCertificate (failing_eq_ok h))
        (Action.ofParsed_eq_ok hi)
  | loadContainer name source password =>
    refine SessionM.proper_of_load ((Action.endsProperly_ofParsed fun err herr => ?_).bind
      fun i _ _ hi => endsProperly_importContainer hP ?_) hrun
    · exact Source.proper_of_resolve (fun _ => proper_of_parseContainer) herr
    · exact Source.known_of_resolve hq (fun _ _ => known_of_parseContainer)
        (Action.ofParsed_eq_ok hi)
  | look name =>
    rintro err rfl
    obtain ⟨h, -, hrun⟩ := SessionM.exists_of_withHandle hrun
    cases hrun
  | release name | drop name =>
    rintro err rfl
    obtain ⟨h, -, hrun⟩ := SessionM.exists_of_withHandle hrun
    obtain ⟨h', s₁, -, hrest⟩ := exists_of_bind_run hrun
    cases hrest
  | ofPublic name q => exact hs.proper_ofPublic hP hrun
  | ofPrivate name q => exact hs.proper_ofPrivate hP hrun

end Request

/-! ### Over a session -/

namespace Session

/-- **Over any session, the service is never misused.**  Whatever request fails for a failure of
the service, it fails because an input is too long for a key or because the operation of the key
fails; no reference is wrong, no object of the wrong kind, no transform incomplete, no buffer too
small.  Every handle that was not released has an object of the class and algorithm that it tells,
and of the size in bytes. -/
theorem Runs.never_misused (hP : P.Rereads) (hs : s.Runs P) :
    (∀ (q : Request) (e : Entropy) (err : ServiceError) (s' : Session), q.Honest P →
      q.run P e s = .ok (.failure (.service err)) s' →
        (err = .inputTooLong ∨ err = .operationFailed) ∧ err.isMisuse = false) ∧
    ∀ p ∈ s.handles, p.2.Agrees s.registry := by
  refine ⟨fun q e err s' hq hrun => ?_, fun p hp => (hs.backed hP p hp).agrees⟩
  have hproper := Request.proper_run hP hs hq hrun _ rfl err rfl
  refine ⟨hproper, ?_⟩
  rcases hproper with rfl | rfl <;> rfl

/-- So it is in a session in which a certificate, its key and the private key were loaded. -/
theorem never_misused_loaded : ∃ s : Session, s.Runs .narrow ∧ s.handles.length = 3 ∧
    (∀ p ∈ s.handles, p.2.isReleased = false ∧ p.2.Agrees s.registry) ∧
    ∀ (q : Request) (e : Entropy) (err : ServiceError) (s' : Session), q.Honest .narrow →
      q.run .narrow e s = .ok (.failure (.service err)) s' →
        err = .inputTooLong ∨ err = .operationFailed := by
  obtain ⟨s, c, p, k, -, -, hs, hhandles, hc, hp, hk, -⟩ := exists_runs_narrow
  obtain ⟨hfails, hagrees⟩ := hs.never_misused Provider.narrow_rereads
  refine ⟨s, hs, by rw [hhandles]; rfl, fun q hq => ⟨?_, hagrees q hq⟩,
    fun q e err s' hq hrun => (hfails q e err s' hq hrun).1⟩
  rw [hhandles] at hq
  simp only [List.mem_cons, List.not_mem_nil, or_false] at hq
  rcases hq with rfl | rfl | rfl
  · simp [Handle.isReleased, Handle.ref, hk]
  · simp [Handle.isReleased, Handle.ref, hp]
  · simp [Handle.isReleased, Handle.ref, hc]

end Session

end Keyring
