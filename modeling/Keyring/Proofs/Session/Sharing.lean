import Keyring.Proofs.Service.Clients
import Keyring.Proofs.Session.Answers
import Keyring.Proofs.Session.Released
import Mathlib.Logic.Relation

/-!
# Certificates that threads share

Any number of threads may ask one certificate for its public key at a time.  Each looks into the
cache of the certificate; if there is no key it takes a lock, looks again, has the key copied out
of the certificate, puts it into the cache, and lets go of the lock.  Between two steps of a
thread other threads make theirs, and other clients use the service.  A certificate is released
when nobody asks.

A step is what no other thread can come between: one look into the cache, one call of the service.
The relation leaves open which thread goes next, and whether the service refuses.  It is more than
the certificate of a session does, whose requests come one after the other, and so it is tied to
that one: a thread that is alone computes, step by step, what `CertificateHandle.key` does at once.

## Main definitions

* `Stage` — how far a thread has come.
* `SharedCertificate` — a certificate with the threads that ask for its key.
* `SharedCertificate.Step` — one step, of a thread, of a release or of another client.

## Main results

* `CertificateHandle.derive_cases` — how deriving a key ends.
* `SharedCertificate.exists_served` — a thread that has the lock, running alone, does what
  `CertificateHandle.key` does.
-/

namespace Keyring

open Registry Service

/-! ### The model -/

/-- A thread, by number. -/
abbrev Thread := Nat

/-- How far a thread has come that asks a certificate for its public key. -/
inductive Stage where
  /-- It does not ask. -/
  | idle
  /-- It looks into the cache. -/
  | looking
  /-- It waits for the lock. -/
  | waiting
  /-- It has the lock and looks again. -/
  | lookingAgain
  /-- It has the key copied out of the certificate. -/
  | copying
  /-- It puts a key into the cache. -/
  | storing (k : PublicHandle)
  /-- It lets go of the lock; this is its answer. -/
  | leaving (answer : Except CryptoError PublicHandle)

/-- Whether a thread has the lock. -/
def Stage.inside : Stage → Bool
  | idle | looking | waiting => false
  | lookingAgain | copying | storing _ | leaving _ => true

/-- A certificate with the threads that ask for its key and the service under it. -/
structure SharedCertificate where
  registry : Registry
  certificate : CertificateHandle
  /-- What other clients of the service own. -/
  others : Multiset Ref
  /-- The thread that has the lock. -/
  lock : Option Thread := none
  stage : Thread → Stage := fun _ => .idle
  /-- What a release has yet to give back. -/
  owed : List Ref := []
  /-- The keys that the service has copied out of the certificate, in order. -/
  copied : List Ref := []
  /-- What was given back, in order. -/
  freed : List Ref := []
  /-- What threads were answered, in order. -/
  answers : List (Thread × Except CryptoError PublicHandle) := []

namespace SharedCertificate

/-- A thread goes on. -/
def goTo (s : SharedCertificate) (t : Thread) (p : Stage) : SharedCertificate :=
  { s with stage := fun t' => if t' = t then p else s.stage t' }

/-- A thread is answered. -/
def answer (s : SharedCertificate) (t : Thread) (a : Except CryptoError PublicHandle) :
    SharedCertificate :=
  { s.goTo t .idle with answers := s.answers ++ [(t, a)] }

/-- One step.  The service may refuse at any time to copy a key out, for reasons of its own.  A
release has the certificate for itself: it begins when no thread asks, and none asks before it has
come to its end. -/
inductive Step (P : Provider) (s : SharedCertificate) : SharedCertificate → Prop
  | ask {t : Thread} : s.stage t = .idle → s.owed = [] → Step P s (s.goTo t .looking)
  | found {t : Thread} {k : PublicHandle} :
    s.stage t = .looking → s.certificate.derived = some k → Step P s (s.answer t (.ok k))
  | missed {t : Thread} :
    s.stage t = .looking → s.certificate.derived = none → Step P s (s.goTo t .waiting)
  | locked {t : Thread} :
    s.stage t = .waiting → s.lock = none → Step P s ({ s with lock := some t }.goTo t .lookingAgain)
  | foundAgain {t : Thread} {k : PublicHandle} :
    s.stage t = .lookingAgain → s.certificate.derived = some k →
      Step P s (s.goTo t (.leaving (.ok k)))
  | missedAgain {t : Thread} :
    s.stage t = .lookingAgain → s.certificate.derived = none → Step P s (s.goTo t .copying)
  | copied {t : Thread} {k : PublicHandle} {r : Registry} :
    s.stage t = .copying → s.certificate.derive.run s.registry = .ok (.ok k) r →
      Step P s ({ s with registry := r, copied := s.copied ++ k.ref.toList }.goTo t (.storing k))
  | failed {t : Thread} {err : CryptoError} {r : Registry} :
    s.stage t = .copying → s.certificate.derive.run s.registry = .ok (.error err) r →
      Step P s ({ s with registry := r }.goTo t (.leaving (.error err)))
  | refused {t : Thread} {err : ServiceError} :
    s.stage t = .copying → s.certificate.ref ≠ none →
      Step P s (s.goTo t (.leaving (.error (.service err))))
  | stored {t : Thread} {k : PublicHandle} :
    s.stage t = .storing k → s.certificate.derived = none →
      Step P s ({ s with certificate := { s.certificate with derived := some k } }.goTo t
        (.leaving (.ok k)))
  /-- The cache keeps what it has, and a key that comes late is given back. -/
  | dropped {t : Thread} {k k' : PublicHandle} {h : Handle} {r : Registry} :
    s.stage t = .storing k → s.certificate.derived = some k' →
      (Handle.publicKey k).release s.registry = .ok h r →
      Step P s ({ s with registry := r, freed := s.freed ++ k.ref.toList }.goTo t
        (.leaving (.ok k')))
  | unlocked {t : Thread} {a : Except CryptoError PublicHandle} :
    s.stage t = .leaving a → Step P s ({ s with lock := none }.answer t a)
  | released :
    (∀ t, s.stage t = .idle) → s.owed = [] →
      Step P s { s with
        certificate := { s.certificate with ref := none, derived := none }
        owed := (Handle.certificate s.certificate).owns }
  | gaveBack {x : Ref} {rest : List Ref} {r : Registry} :
    s.owed = x :: rest → Service.release x s.registry = .ok () r →
      Step P s { s with registry := r, owed := rest, freed := s.freed ++ [x] }
  /-- Another client makes a call. -/
  | call {c : Call} {e : Entropy} {reply : Except ServiceError Reply} {r : Registry} :
    c.gives ≤ s.others → c.make P e s.registry = .ok reply r →
      Step P s { s with registry := r, others := s.others - c.gives + Reply.owns reply }
  /-- What another client has computed comes back. -/
  | finish {x : Activity} {e : Entropy} {reply : Except ServiceError Reply} {r : Registry} :
    x.finish P e s.registry = .ok reply r →
      Step P s { s with registry := r, others := s.others + Reply.owns reply }

/-- Any number of steps. -/
abbrev Steps (P : Provider) : SharedCertificate → SharedCertificate → Prop :=
  Relation.ReflTransGen (Step P)

/-- A certificate that nobody has asked for its key yet. -/
structure Fresh (x : Ref) (cert : X509) (s : SharedCertificate) : Prop where
  ref : s.certificate.ref = some x
  derived : s.certificate.derived = none
  object : s.registry.object x = .ok (.certificate cert)
  balanced : s.registry.Balanced (x ::ₘ s.others)
  unlocked : s.lock = none
  idle : ∀ t, s.stage t = .idle
  empty : s.owed = [] ∧ s.copied = [] ∧ s.freed = [] ∧ s.answers = []

end SharedCertificate

/-! ### Deriving a key -/

variable {P : Provider} {r r' : Registry}

/-- **How deriving a key ends**: with a new key, which is that of the certificate, or with an error
and nothing changed. -/
theorem CertificateHandle.derive_cases (c : CertificateHandle) (r : Registry) :
    (∃ x cert key, c.ref = some x ∧ r.object x = .ok (.certificate cert) ∧ cert.key = some key ∧
      c.derive.run r = .ok (.ok ⟨some (r.last + 1), c.info.publicKey⟩)
        (r.insert (.key ⟨.ofPublic key, false, true⟩))) ∨
    ∃ err, c.derive.run r = .ok (.error err) r ∧ (c.ref = none → err = .released) := by
  cases href : c.ref with
  | none => exact .inr ⟨.released, run_owned_none href, fun _ => rfl⟩
  | some x =>
    -- whatever the service says against it, nothing is changed
    have herror : ∀ err, Service.certificateCopyPublicKey x r = .ok (.error err) r →
        ∃ err, c.derive.run r = .ok (.error err) r ∧ (some x = none → err = .released) := by
      intro err hcopy
      refine ⟨.service err, ?_, nofun⟩
      rw [derive, href]
      exact (Action.run_bind_ok rfl).trans (Action.run_bind_error (Action.run_ofService hcopy))
    cases hcert : r.certificate x with
    | error err => exact .inr (herror err (create_error (by rw [hcert]; rfl)))
    | ok cert =>
      -- a certificate may have a key that cannot be decoded
      cases hkey : cert.key with
      | none =>
        refine .inr (herror .undecodable (create_error ?_))
        rw [hcert, ok_bind, hkey]
        rfl
      | some key =>
        have hobject := certificate_eq_ok_iff.mp hcert
        exact .inl ⟨x, cert, key, rfl, hobject, hkey, derive_run href hobject hkey⟩

theorem CertificateHandle.derive_eq_ok {c : CertificateHandle} {k : PublicHandle}
    (h : c.derive.run r = .ok (.ok k) r') : ∃ x cert key,
      c.ref = some x ∧ r.object x = .ok (.certificate cert) ∧ cert.key = some key ∧
      k = ⟨some (r.last + 1), c.info.publicKey⟩ ∧
      r' = r.insert (.key ⟨.ofPublic key, false, true⟩) := by
  rcases c.derive_cases r with ⟨x, cert, key, href, hobject, hkey, hrun⟩ | ⟨err, hrun, -⟩
  · cases h.symm.trans hrun
    exact ⟨x, cert, key, href, hobject, hkey, rfl, rfl⟩
  · cases h.symm.trans hrun

theorem CertificateHandle.derive_eq_error {c : CertificateHandle} {err : CryptoError}
    (h : c.derive.run r = .ok (.error err) r') : r' = r ∧ (c.ref = none → err = .released) := by
  rcases c.derive_cases r with ⟨_, _, _, -, -, -, hrun⟩ | ⟨_, hrun, herr⟩
  · cases h.symm.trans hrun
  · cases h.symm.trans hrun
    exact ⟨rfl, herr⟩

namespace SharedCertificate

variable {s s' : SharedCertificate} {t : Thread} {p : Stage}

/-! ### A thread that runs alone -/

theorem stage_goTo (s : SharedCertificate) (t : Thread) (p : Stage) (t' : Thread) :
    (s.goTo t p).stage t' = if t' = t then p else s.stage t' := rfl

@[simp] theorem stage_goTo_self (s : SharedCertificate) (t : Thread) (p : Stage) :
    (s.goTo t p).stage t = p := if_pos rfl

theorem stage_goTo_of_ne {t' : Thread} (h : t' ≠ t) : (s.goTo t p).stage t' = s.stage t' :=
  if_neg h

/-- A thread has got an answer, and the certificate and the service are left as given; all other
threads are where they were. -/
structure Served (s : SharedCertificate) (t : Thread) (a : Except CryptoError PublicHandle)
    (c : CertificateHandle) (r : Registry) (s' : SharedCertificate) : Prop where
  certificate : s'.certificate = c
  registry : s'.registry = r
  unlocked : s'.lock = none
  stage : ∀ t', s'.stage t' = if t' = t then .idle else s.stage t'
  answers : s'.answers = s.answers ++ [(t, a)]
  owed : s'.owed = s.owed

theorem Served.of_goTo {q : SharedCertificate} {a : Except CryptoError PublicHandle}
    {c : CertificateHandle} (h : Served q t a c r s')
    (hstage : ∀ t', t' ≠ t → q.stage t' = s.stage t')
    (hanswers : q.answers = s.answers) (howed : q.owed = s.owed) : Served s t a c r s' where
  certificate := h.certificate
  registry := h.registry
  unlocked := h.unlocked
  stage := by
    intro t'
    rw [h.stage]
    split
    · rfl
    · next hne => exact hstage t' hne
  answers := by rw [h.answers, hanswers]
  owed := by rw [h.owed, howed]

variable (P)

/-- A thread lets go of the lock. -/
theorem exists_served_of_leaving {a : Except CryptoError PublicHandle}
    (ht : s.stage t = .leaving a) :
    ∃ s', Steps P s s' ∧ Served s t a s.certificate s.registry s' :=
  ⟨_, .single (.unlocked ht), rfl, rfl, rfl, fun _ => rfl, rfl, rfl⟩

/-- A key that was copied out is stored. -/
theorem exists_served_of_storing {k : PublicHandle} (ht : s.stage t = .storing k)
    (hnone : s.certificate.derived = none) :
    ∃ s', Steps P s s' ∧
      Served s t (.ok k) { s.certificate with derived := some k } s.registry s' := by
  obtain ⟨s', hs', hserved⟩ := exists_served_of_leaving P (stage_goTo_self
    { s with certificate := { s.certificate with derived := some k } } t (.leaving (.ok k)))
  exact ⟨s', .head (.stored ht hnone) hs', hserved.of_goTo (fun _ => stage_goTo_of_ne) rfl rfl⟩

/-- A key is copied out and stored, or that fails and nothing is. -/
theorem exists_served_of_copying (ht : s.stage t = .copying)
    (hnone : s.certificate.derived = none) : ∃ a c r s',
      s.certificate.key s.registry = .ok (a, c) r ∧ Steps P s s' ∧ Served s t a c r s' := by
  rw [CertificateHandle.key, hnone]
  -- the step is the call that `CertificateHandle.key` makes
  rcases s.certificate.derive_cases s.registry with ⟨x, cert, key, -, -, -, hderive⟩ |
    ⟨err, hderive, -⟩
  · obtain ⟨s', hs', hserved⟩ := exists_served_of_storing P (stage_goTo_self
      { s with registry := _, copied := s.copied ++ [s.registry.last + 1] } t (.storing _)) hnone
    exact ⟨_, _, _, s', bind_run_ok hderive, .head (.copied ht hderive) hs',
      hserved.of_goTo (fun _ => stage_goTo_of_ne) rfl rfl⟩
  · obtain ⟨s', hs', hserved⟩ := exists_served_of_leaving P (stage_goTo_self
      { s with registry := _ } t (.leaving (.error err)))
    exact ⟨_, _, _, s', bind_run_ok hderive, .head (.failed ht hderive) hs',
      hserved.of_goTo (fun _ => stage_goTo_of_ne) rfl rfl⟩

/-- **A thread that has the lock, running alone, does what `CertificateHandle.key` does.** -/
theorem exists_served (ht : s.stage t = .lookingAgain) : ∃ a c r s',
    s.certificate.key s.registry = .ok (a, c) r ∧ Steps P s s' ∧ Served s t a c r s' := by
  -- the second look finds a key, or the thread goes on to copy one
  cases hderived : s.certificate.derived with
  | some k =>
    obtain ⟨s', hs', hserved⟩ := exists_served_of_leaving P
      (stage_goTo_self s t (.leaving (.ok k)))
    refine ⟨.ok k, s.certificate, s.registry, s', ?_, .head (.foundAgain ht hderived) hs',
      hserved.of_goTo (fun _ => stage_goTo_of_ne) rfl rfl⟩
    rw [CertificateHandle.key, hderived]
    rfl
  | none =>
    obtain ⟨a, c, r, s', hkey, hs', hserved⟩ :=
      exists_served_of_copying P (stage_goTo_self s t .copying) hderived
    exact ⟨a, c, r, s', hkey, .head (.missedAgain ht hderived) hs',
      hserved.of_goTo (fun _ => stage_goTo_of_ne) rfl rfl⟩

/-- So does a thread that finds the lock free. -/
theorem exists_served_of_idle (ht : s.stage t = .idle) (howed : s.owed = [])
    (hlock : s.lock = none) : ∃ a c r s',
      s.certificate.key s.registry = .ok (a, c) r ∧ Steps P s s' ∧ Served s t a c r s' := by
  have hask : Step P s (s.goTo t .looking) := .ask ht howed
  cases hderived : s.certificate.derived with
  | some k =>
    have hfound := Step.found (P := P) (stage_goTo_self s t .looking) hderived
    refine ⟨.ok k, s.certificate, s.registry, _, ?_, .head hask (.single hfound), rfl, rfl, hlock,
      fun t' => ?_, rfl, rfl⟩
    · rw [CertificateHandle.key, hderived]
      rfl
    · show (if t' = t then Stage.idle else (s.goTo t .looking).stage t') = _
      rw [stage_goTo]
      split <;> rfl
  | none =>
    -- it looks in vain, waits, and gets the lock at once
    have hmissed := Step.missed (P := P) (stage_goTo_self s t .looking) hderived
    have hlocked := Step.locked (P := P) (stage_goTo_self (s.goTo t .looking) t .waiting) hlock
    obtain ⟨a, c, r, s', hkey, hs', hserved⟩ := exists_served P (stage_goTo_self
      { (s.goTo t .looking).goTo t .waiting with lock := some t } t .lookingAgain)
    refine ⟨a, c, r, s', hkey, .head hask (.head hmissed (.head hlocked hs')),
      hserved.of_goTo (fun t' hne => ?_) rfl rfl⟩
    rw [stage_goTo_of_ne hne]
    show ((s.goTo t .looking).goTo t .waiting).stage t' = _
    rw [stage_goTo_of_ne hne, stage_goTo_of_ne hne]

end SharedCertificate

end Keyring
