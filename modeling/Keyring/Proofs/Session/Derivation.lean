import Keyring.Proofs.Provider.Narrow
import Keyring.Proofs.Session.Sharing

/-!
# A certificate derives its key at most once

However many threads ask a certificate for its public key, and in whatever order they make their
steps, the key is copied out of the certificate once at most, all threads that get a key get the
same, and the certificate keeps it until it is released.

That a thread has looked again under the lock carries all of this: from then on no other thread
can come to a key, so what it has seen stays true until it lets go.

## Main definitions

* `Relies`, `Guarded` — what a thread that has the lock relies on, and that it is so.
* `Phase` — what has become of the key of a certificate.
* `SharedCertificate.Inv` — what every step keeps.
* `SharedCertificate.After` — what later steps leave.
* `SharedCertificate.DerivesOnce` — what holds of a certificate in all that threads do.

## Main results

* `SharedCertificate.Inv.step` — **every step keeps the invariant.**
* `SharedCertificate.Inv.after_step` — what one step leaves.
* `SharedCertificate.Fresh.derives_once` — **a certificate derives its key at most once.**
-/

namespace Keyring

open Registry Service

variable {P : Provider} {x : Ref} {cert : X509} {i : CertificateInfo}

/-! ### The invariant -/

/-- What a thread that has the lock relies on: what it has seen or done goes on to hold. -/
def Relies (x : Ref) (i : CertificateInfo) (c : CertificateHandle) (copied : List Ref) :
    Stage → Prop
  | .copying => c.derived = none
  | .storing k => ∃ y, c = ⟨some x, i, none⟩ ∧ copied = [y] ∧ k = ⟨some y, i.publicKey⟩
  | .leaving (.ok k) => c.derived = some k
  | .leaving (.error err) => c.ref = none → err = .released
  | .idle | .looking | .waiting | .lookingAgain => True

/-- Without the lock a thread relies on nothing. -/
theorem relies_of_outside {c : CertificateHandle} {copied : List Ref} {p : Stage}
    (h : p.inside = false) : Relies x i c copied p := by
  cases p <;> first | exact trivial | cases h

/-- Where the threads are: a thread is inside exactly if it has the lock, and what it relies on is
so. -/
structure Guarded (x : Ref) (i : CertificateInfo) (c : CertificateHandle) (copied : List Ref)
    (lock : Option Thread) (stage : Thread → Stage) : Prop where
  inside : ∀ t, (stage t).inside = true ↔ lock = some t
  relies : ∀ t, Relies x i c copied (stage t)

/-- What has become of the key of a certificate: it was not stored yet, it is in the cache, or the
certificate was released. -/
inductive Phase (x : Ref) (i : CertificateInfo) (c : CertificateHandle)
    (copied freed owed : List Ref) : Prop
  | underived :
    c = ⟨some x, i, none⟩ → copied.length ≤ 1 → freed = [] → owed = [] →
      Phase x i c copied freed owed
  | cached {y : Ref} :
    c = ⟨some x, i, some ⟨some y, i.publicKey⟩⟩ → copied = [y] → freed = [] → owed = [] →
      Phase x i c copied freed owed
  | released :
    c = ⟨none, i, none⟩ → copied.length ≤ 1 → freed ++ owed = copied ++ [x] →
      Phase x i c copied freed owed

/-- Before its key is stored nothing of a certificate is given back. -/
theorem Phase.freed_eq_nil {copied freed owed : List Ref}
    (h : Phase x i ⟨some x, i, none⟩ copied freed owed) : freed = [] ∧ owed = [] := by
  cases h with
  | underived _ _ hfreed howed => exact ⟨hfreed, howed⟩
  | cached hc | released hc => cases hc

namespace SharedCertificate

variable {s s' : SharedCertificate} {t t' : Thread} {p : Stage} {r : Registry}

/-- What a certificate and its threads own: the certificate with the key that was copied out of
it, and after a release what is still to be given back. -/
def kept (s : SharedCertificate) : List Ref :=
  match s.certificate.ref with
  | some x => s.copied ++ [x]
  | none => s.owed

/-- The objects of a certificate: itself, and the key in it where that was copied. -/
def Holds (x : Ref) (cert : X509) (s : SharedCertificate) : Prop :=
  s.registry.object x = .ok (.certificate cert) ∧ ∀ y ∈ s.copied, ∃ key, cert.key = some key ∧
    s.registry.object y = .ok (.key ⟨.ofPublic key, false, true⟩)

/-- What every step keeps. -/
structure Inv (x : Ref) (cert : X509) (i : CertificateInfo) (s : SharedCertificate) : Prop where
  guarded : Guarded x i s.certificate s.copied s.lock s.stage
  phase : Phase x i s.certificate s.copied s.freed s.owed
  /-- A key that was copied and is not in the cache is in the hands of a thread. -/
  pending : s.certificate = ⟨some x, i, none⟩ → s.copied ≠ [] → ∃ t k, s.stage t = .storing k
  answered : ∀ t k, (t, .ok k) ∈ s.answers → ∃ y, s.copied = [y] ∧ k = ⟨some y, i.publicKey⟩
  nodup : (s.copied ++ [x]).Nodup
  balanced : s.registry.Balanced ((s.kept : Multiset Ref) + s.others)
  holds : s.certificate.ref = some x → s.Holds x cert

end SharedCertificate

/-! ### Moves of threads -/

namespace Guarded

variable {c c' : CertificateHandle} {copied copied' : List Ref} {lock lock' : Option Thread}
  {stage : Thread → Stage} {t t' : Thread} {p : Stage}

theorem lock_eq (h : Guarded x i c copied lock stage) (ht : stage t = p) (hp : p.inside = true) :
    lock = some t := (h.inside t).mp (ht ▸ hp)

theorem relies_of_stage (h : Guarded x i c copied lock stage) (ht : stage t = p) :
    Relies x i c copied p := ht ▸ h.relies t

/-- A thread goes on, and takes the lock or lets go of it as it should.  What it changes, no other
thread relies on. -/
theorem goTo (h : Guarded x i c copied lock stage) (hp : p.inside = true ↔ lock' = some t)
    (hrelies : Relies x i c' copied' p) (hlock : ∀ t', t' ≠ t → (lock = some t' ↔ lock' = some t'))
    (hothers : (stage t).inside = true ∨ c' = c ∧ copied' = copied) :
    Guarded x i c' copied' lock' fun t' => if t' = t then p else stage t' where
  inside := by
    intro t'
    by_cases ht' : t' = t
    · rw [if_pos ht', ht']
      exact hp
    · rw [if_neg ht', h.inside]
      exact hlock t' ht'
  relies := by
    intro t'
    by_cases ht' : t' = t
    · rw [if_pos ht']
      exact hrelies
    · rw [if_neg ht']
      -- a thread that has the lock may change what others rely on: none of them is inside
      rcases hothers with ht | ⟨rfl, rfl⟩
      · refine relies_of_outside (Bool.eq_false_iff.mpr fun hinside => ht' ?_)
        exact Option.some.inj (((h.inside t').mp hinside).symm.trans ((h.inside t).mp ht))
      · exact h.relies t'

end Guarded

namespace SharedCertificate.Inv

open SharedCertificate

variable {s s' : SharedCertificate} {t t' : Thread} {p : Stage} {r : Registry}

/-- The state of a certificate that nobody has asked yet. -/
theorem of_fresh (h : s.Fresh x cert) : s.Inv x cert s.certificate.info := by
  obtain ⟨howed, hcopied, hfreed, hanswers⟩ := h.empty
  have hcertificate : s.certificate = ⟨some x, s.certificate.info, none⟩ := by
    rw [← h.ref, ← h.derived]
  refine ⟨⟨fun t => ?_, fun t => ?_⟩, .underived hcertificate ?_ hfreed howed, fun _ hne => ?_,
    ?_, ?_, ?_, fun _ => ⟨h.object, ?_⟩⟩
  · rw [h.idle, h.unlocked]
    exact iff_of_false Bool.false_ne_true nofun
  · rw [h.idle]
    trivial
  · rw [hcopied]
    exact Nat.zero_le 1
  · exact absurd hcopied hne
  · rw [hanswers]
    nofun
  · rw [hcopied]
    exact List.nodup_singleton x
  · rw [kept, h.ref, hcopied]
    exact h.balanced
  · rw [hcopied]
    nofun

/-- A thread that is not storing a key goes on, and takes the lock or lets go of it as it should;
nothing else changes. -/
theorem goTo (hs : s.Inv x cert i) {lock : Option Thread} (hp : p.inside = true ↔ lock = some t)
    (hlock : ∀ t', t' ≠ t → (s.lock = some t' ↔ lock = some t'))
    (hrelies : Relies x i s.certificate s.copied p) (hstage : ∀ k, s.stage t ≠ .storing k) :
    ({ s with lock := lock }.goTo t p).Inv x cert i where
  guarded := hs.guarded.goTo hp hrelies hlock (.inr ⟨rfl, rfl⟩)
  phase := hs.phase
  pending := by
    intro hcertificate hne
    obtain ⟨t', k, ht'⟩ := hs.pending hcertificate hne
    have hother : t' ≠ t := by
      rintro rfl
      exact hstage k ht'
    exact ⟨t', k, (stage_goTo_of_ne hother).trans ht'⟩
  answered := hs.answered
  nodup := hs.nodup
  balanced := hs.balanced
  holds := hs.holds

/-- A thread goes on and the lock stays where it is. -/
theorem goOn (hs : s.Inv x cert i) {q : Stage} (ht : s.stage t = q) (hp : p.inside = q.inside)
    (hq : ∀ k, q ≠ .storing k) (hrelies : Relies x i s.certificate s.copied p) :
    (s.goTo t p).Inv x cert i :=
  hs.goTo (by rw [hp, ← ht, hs.guarded.inside]) (fun _ _ => Iff.rfl) hrelies (ht ▸ hq)

/-- What is in the cache was copied. -/
theorem exists_copied (hs : s.Inv x cert i) {k : PublicHandle}
    (h : s.certificate.derived = some k) :
    s.certificate.ref = some x ∧ ∃ y, s.copied = [y] ∧ k = ⟨some y, i.publicKey⟩ := by
  cases hs.phase with
  | underived hc | released hc =>
    rw [hc] at h
    cases h
  | cached hc hcopied =>
    rw [hc] at h ⊢
    cases h
    exact ⟨rfl, _, hcopied, rfl⟩

/-- A thread is answered, with a key only if it is in the cache. -/
theorem answer (hs : s.Inv x cert i) {lock : Option Thread} {a : Except CryptoError PublicHandle}
    (ht : lock ≠ some t) (hlock : ∀ t', t' ≠ t → (s.lock = some t' ↔ lock = some t'))
    (hstage : ∀ k, s.stage t ≠ .storing k)
    (ha : ∀ k, a = .ok k → s.certificate.derived = some k) :
    ({ s with lock := lock }.answer t a).Inv x cert i := by
  have hidle := hs.goTo (p := .idle) (iff_of_false Bool.false_ne_true ht) hlock trivial hstage
  refine { hidle with answered := fun t' k hmem => ?_ }
  rcases List.mem_append.mp hmem with hmem | hmem
  · exact hs.answered t' k hmem
  · obtain ⟨-, rfl⟩ := Prod.mk.inj (List.mem_singleton.mp hmem)
    exact (hs.exists_copied (ha k rfl)).2

/-- A thread that has looked again finds nothing copied. -/
theorem copied_eq_nil (hs : s.Inv x cert i) (ht : s.stage t = .copying)
    (href : s.certificate.ref ≠ none) : s.certificate = ⟨some x, i, none⟩ ∧ s.copied = [] := by
  have hnone : s.certificate.derived = none := hs.guarded.relies_of_stage ht
  cases hs.phase with
  | underived hc =>
    refine ⟨hc, by_contra fun hne => ?_⟩
    -- the key would be in the hands of another thread, and that would have the lock
    obtain ⟨t', k, ht'⟩ := hs.pending hc hne
    obtain rfl : t = t' := Option.some.inj
      ((hs.guarded.lock_eq ht rfl).symm.trans (hs.guarded.lock_eq ht' rfl))
    rw [ht] at ht'
    cases ht'
  | cached hc =>
    rw [hc] at hnone
    cases hnone
  | released hc =>
    rw [hc] at href
    exact absurd rfl href

/-- A key is copied out. -/
theorem copied (hs : s.Inv x cert i) {k : PublicHandle} (ht : s.stage t = .copying)
    (hderive : s.certificate.derive.run s.registry = .ok (.ok k) r) :
    ({ s with registry := r, copied := s.copied ++ k.ref.toList }.goTo t (.storing k)).Inv
      x cert i := by
  obtain ⟨x', cert', key, href, hobject, hkey, rfl, rfl⟩ := CertificateHandle.derive_eq_ok hderive
  obtain ⟨hc, hnil⟩ := hs.copied_eq_nil ht (by rw [href]; exact Option.some_ne_none x')
  obtain rfl : x = x' := by
    rw [hc] at href
    exact Option.some.inj href
  obtain ⟨hcert, -⟩ := hs.holds href
  rw [hobject] at hcert
  cases hcert
  have hordered := hs.balanced.ordered
  have hcopied : s.copied ++ (some (s.registry.last + 1)).toList = [s.registry.last + 1] := by
    rw [hnil]
    rfl
  refine ⟨hs.guarded.goTo (iff_of_true rfl (hs.guarded.lock_eq ht rfl))
    ⟨_, hc, hcopied, by rw [hc]⟩ (fun _ _ => Iff.rfl) (.inl (by rw [ht]; rfl)), ?_,
    fun _ _ => ⟨t, _, stage_goTo_self _ t _⟩, fun t' k hmem => ?_, ?_, ?_, fun _ => ⟨?_, ?_⟩⟩
  · obtain ⟨hfreed, howed⟩ := (hc ▸ hs.phase).freed_eq_nil
    exact .underived hc (by rw [hcopied]; rfl) hfreed howed
  · obtain ⟨y, hy, -⟩ := hs.answered t' k hmem
    rw [hnil] at hy
    cases hy
  · -- the new object is not the certificate
    have hle := hordered.le_last_of_object hobject
    show (s.copied ++ _ ++ [x]).Nodup
    rw [hcopied]
    refine List.nodup_cons.mpr ⟨fun hmem => ?_, List.nodup_singleton x⟩
    rw [← List.mem_singleton.mp hmem] at hle
    exact Nat.not_succ_le_self _ hle
  · have hbalanced := hs.balanced
    simp only [kept, href, hnil] at hbalanced
    have hinsert : (s.registry.insert (.key ⟨.ofPublic key, false, true⟩)).Balanced
        ((s.registry.last + 1) ::ₘ x ::ₘ s.others) :=
      Balanced.insert (by simpa [NativeObject.retained] using hbalanced) nofun
    simp only [kept, SharedCertificate.goTo, href, hcopied]
    rw [List.singleton_append, ← Multiset.cons_coe, Multiset.cons_add]
    simpa using hinsert
  · exact object_insert_of_ok hordered hobject
  · intro y hy
    have hy' : y ∈ s.copied ++ (some (s.registry.last + 1)).toList := hy
    rw [hcopied] at hy'
    rw [List.mem_singleton.mp hy']
    exact ⟨key, hkey, object_insert_last hordered⟩

/-- A key is stored. -/
theorem stored (hs : s.Inv x cert i) {k : PublicHandle} (ht : s.stage t = .storing k) :
    s.certificate.derived = none ∧
    ({ s with certificate := { s.certificate with derived := some k } }.goTo t
      (.leaving (.ok k))).Inv x cert i := by
  obtain ⟨y, hc, hcopied, rfl⟩ := hs.guarded.relies_of_stage ht
  refine ⟨by rw [hc], ?_⟩
  refine { hs with
    guarded := hs.guarded.goTo (iff_of_true rfl (hs.guarded.lock_eq ht rfl)) rfl
      (fun _ _ => Iff.rfl) (.inl (by rw [ht]; rfl))
    phase := ?_
    pending := fun h => ?_ }
  · obtain ⟨hfreed, howed⟩ := (hc ▸ hs.phase).freed_eq_nil
    refine .cached ?_ hcopied hfreed howed
    show ({ s.certificate with derived := some ⟨some y, i.publicKey⟩ } : CertificateHandle) = _
    rw [hc]
  · cases congrArg CertificateHandle.derived h

/-- What a certificate owns, and what is still to be given back, is all that is kept, when no
thread has a key in its hands. -/
theorem kept_eq (hs : s.Inv x cert i) (hstage : ∀ t k, s.stage t ≠ .storing k) :
    s.kept = (Handle.certificate s.certificate).owns ++ s.owed := by
  cases hs.phase with
  | underived hc _ _ howed =>
    have hnil : s.copied = [] := by
      by_contra hne
      obtain ⟨t, k, ht⟩ := hs.pending hc hne
      exact hstage t k ht
    simp [kept, hc, hnil, howed, Handle.owns]
  | cached hc hcopied _ howed => simp [kept, hc, hcopied, howed, Handle.owns]
  | released hc => simp [kept, hc, Handle.owns]

/-- A certificate is released. -/
theorem released (hs : s.Inv x cert i) (hidle : ∀ t, s.stage t = .idle) (howed : s.owed = []) :
    Inv x cert i { s with
      certificate := { s.certificate with ref := none, derived := none }
      owed := (Handle.certificate s.certificate).owns } := by
  -- all threads are idle, so no key is in anybody's hands
  have hkept := hs.kept_eq fun t k h => by rw [hidle t] at h; cases h
  rw [howed, List.append_nil] at hkept
  refine ⟨⟨hs.guarded.inside, fun t => ?_⟩, ?_, fun h => ?_, hs.answered, hs.nodup, ?_, nofun⟩
  · show Relies _ _ _ _ (s.stage t)
    rw [hidle]
    trivial
  · cases hs.phase with
    | underived hc hlength hfreed =>
      refine .released (by rw [hc]) hlength ?_
      rw [← hkept, hfreed, kept, hc, List.nil_append]
    | cached hc hcopied hfreed =>
      refine .released (by rw [hc]) (by rw [hcopied]; rfl) ?_
      rw [← hkept, hfreed, kept, hc, List.nil_append]
    | released hc hlength hfreed =>
      refine .released (by rw [hc]) hlength ?_
      rw [← hkept, kept, hc, hfreed]
  · cases congrArg CertificateHandle.ref h
  · have hbalanced := hs.balanced
    rwa [hkept] at hbalanced

/-- Something is given back after a release. -/
theorem gaveBack (hs : s.Inv x cert i) {y : Ref} {rest : List Ref} (howed : s.owed = y :: rest) :
    ∃ r, Service.release y s.registry = .ok () r ∧
      Inv x cert i { s with registry := r, owed := rest, freed := s.freed ++ [y] } := by
  cases hs.phase with
  | underived _ _ _ hnil | cached _ _ _ hnil =>
    rw [howed] at hnil
    cases hnil
  | released hc hlength hfreed =>
    have hbalanced := hs.balanced
    rw [kept, hc, howed, ← List.singleton_append, ← Multiset.coe_add, Multiset.add_assoc]
      at hbalanced
    obtain ⟨r, hrelease, hr⟩ := hbalanced.releaseAll
    refine ⟨r, hrelease, { hs with phase := ?_, balanced := ?_, holds := fun h => ?_ }⟩
    · rw [howed] at hfreed
      exact .released hc hlength (by rw [List.append_assoc, List.singleton_append, hfreed])
    · simp only [kept, hc]
      exact hr
    · rw [hc] at h
      cases h

/-- Whatever other clients do, the certificate keeps its objects. -/
theorem disturb (hs : s.Inv x cert i) {others : Multiset Ref} (hfollows : s.registry.Follows r)
    (hr : r.Balanced ((s.kept : Multiset Ref) + others)) :
    Inv x cert i { s with registry := r, others := others } := by
  refine { hs with balanced := hr, holds := fun h => ?_ }
  -- what is kept has an owner, and only transforms change
  have hkeep : ∀ y ∈ s.kept, ∀ o, s.registry.object y = .ok o → o.kind ≠ .transform →
      r.object y = .ok o := by
    intro y hy o ho hkind
    obtain ⟨e, he⟩ := hr.exists_find?_of_mem (Multiset.mem_add.mpr (.inl (Multiset.mem_coe.mpr hy)))
    exact hfollows.object_eq hs.balanced.sound ho hkind ⟨_, object_of_find? he⟩
  have hkept : s.kept = s.copied ++ [x] := by
    have href : s.certificate.ref = some x := h
    rw [kept, href]
  obtain ⟨hcert, hkeys⟩ := hs.holds h
  refine ⟨hkeep x (by rw [hkept]; simp) _ hcert nofun, fun y hy => ?_⟩
  obtain ⟨key, hkey, hobject⟩ := hkeys y hy
  exact ⟨key, hkey, hkeep y (by rw [hkept]; exact List.mem_append_left _ hy) _ hobject nofun⟩

/-- **Every step keeps the invariant.** -/
theorem step (hs : s.Inv x cert i) (h : Step P s s') : s'.Inv x cert i := by
  cases h with
  | ask ht | missed ht => exact hs.goOn ht rfl nofun trivial
  | missedAgain ht hnone => exact hs.goOn ht rfl nofun hnone
  | foundAgain ht hsome => exact hs.goOn ht rfl nofun hsome
  | refused ht href => exact hs.goOn ht rfl nofun fun hnone => absurd hnone href
  | failed ht hderive =>
    obtain ⟨rfl, herr⟩ := CertificateHandle.derive_eq_error hderive
    exact hs.goOn ht rfl nofun herr
  | @found t k ht hsome =>
    have hlock : s.lock ≠ some t := by
      rw [Ne, ← hs.guarded.inside, ht]
      exact Bool.false_ne_true
    refine hs.answer hlock (fun _ _ => Iff.rfl) (by rw [ht]; nofun) fun k' hk' => ?_
    rw [hsome, Except.ok.inj hk']
  | @locked t ht hlock =>
    refine hs.goTo (iff_of_true rfl rfl) (fun t' hne => ?_) trivial (by rw [ht]; nofun)
    rw [hlock]
    exact iff_of_false nofun fun h => hne (Option.some.inj h).symm
  | copied ht hderive => exact hs.copied ht hderive
  | stored ht => exact (hs.stored ht).2
  | dropped ht hsome =>
    rw [(hs.stored ht).1] at hsome
    cases hsome
  | @unlocked t a ht =>
    have hlock := hs.guarded.lock_eq ht rfl
    have hrelies := hs.guarded.relies_of_stage ht
    refine hs.answer nofun (fun t' hne => ?_) (by rw [ht]; nofun) fun k hk => ?_
    · rw [hlock]
      exact iff_of_false (fun h => hne (Option.some.inj h).symm) nofun
    · rw [hk] at hrelies
      exact hrelies
  | released hidle howed => exact hs.released hidle howed
  | gaveBack howed hrelease =>
    obtain ⟨r, hrelease', hs'⟩ := hs.gaveBack howed
    cases hrelease.symm.trans hrelease'
    exact hs'
  | @call c e reply r hgives hmake =>
    obtain ⟨_, _, hmake', hr⟩ := Balanced.make (P := P) hs.balanced c e
      (hgives.trans (Multiset.le_add_left _ _))
    cases hmake.symm.trans hmake'
    rw [add_tsub_assoc_of_le hgives, Multiset.add_assoc] at hr
    exact hs.disturb (Call.follows_of_make hs.balanced.loose hmake) hr
  | @finish a e reply r hfinish =>
    obtain ⟨_, _, hfinish', hr⟩ := a.keeps (P := P) e s.registry _
      (by rw [Multiset.zero_add]; exact hs.balanced)
    cases hfinish.symm.trans hfinish'
    obtain ⟨hlast, hobject⟩ := Activity.object_of_finish hs.balanced.ordered hfinish
    rw [Multiset.add_assoc] at hr
    exact hs.disturb ⟨hlast, fun y o hy ho => .inl (hobject y o hy ho)⟩ hr

theorem steps (hs : s.Inv x cert i) (h : Steps P s s') : s'.Inv x cert i := by
  induction h with
  | refl => exact hs
  | tail _ hstep ih => exact ih.step hstep

/-! ### What steps leave -/

/-- A derivation that fails has stored nothing. -/
theorem unchanged_of_failed {err : CryptoError} (h : Step P s s') (ht : s.stage t = .copying)
    (ht' : s'.stage t = .leaving (.error err)) :
    s'.certificate = s.certificate ∧ s'.registry = s.registry ∧ s'.copied = s.copied := by
  -- a step that another thread makes leaves this one copying
  have hother : ∀ {q : SharedCertificate} {t' : Thread} {p : Stage}, q.stage = s.stage →
      (q.goTo t' p).stage t = .leaving (.error err) → t' = t := by
    intro q t' p hq hgo
    by_contra hne
    rw [stage_goTo_of_ne (Ne.symm hne), hq, ht] at hgo
    cases hgo
  cases h with
  | ask | found | missed | locked | foundAgain | missedAgain | refused | unlocked =>
    exact ⟨rfl, rfl, rfl⟩
  | failed _ hderive =>
    obtain ⟨rfl, -⟩ := CertificateHandle.derive_eq_error hderive
    exact ⟨rfl, rfl, rfl⟩
  | copied =>
    obtain rfl := hother rfl ht'
    rw [stage_goTo_self] at ht'
    cases ht'
  | stored hp | dropped hp =>
    obtain rfl := hother rfl ht'
    rw [ht] at hp
    cases hp
  | released hidle =>
    rw [hidle] at ht
    cases ht
  | gaveBack | call | finish =>
    cases ht.symm.trans ht'

end SharedCertificate.Inv

namespace SharedCertificate

variable {s s' s'' : SharedCertificate} {t : Thread} {r : Registry}

/-- What later steps leave: a key in the cache until the certificate is released, and after that
everything; then all threads are told that it was released. -/
structure After (s s' : SharedCertificate) : Prop where
  kept : ∀ k, s.certificate.derived = some k →
    s'.certificate.derived = some k ∨ s'.certificate.ref = none
  released : s.certificate.ref = none →
    s'.certificate = s.certificate ∧ s'.copied = s.copied ∧
      ∃ l, s'.answers = s.answers ++ l ∧ ∀ a ∈ l, a.2 = .error .released

namespace After

theorem of_eq (hcertificate : s'.certificate = s.certificate) (hcopied : s'.copied = s.copied)
    (hanswers : s'.answers = s.answers) : After s s' where
  kept := fun k hk => .inl (by rw [hcertificate, hk])
  released := fun _ => ⟨hcertificate, hcopied, [], by rw [hanswers, List.append_nil], nofun⟩

theorem refl (s : SharedCertificate) : After s s := of_eq rfl rfl rfl

theorem trans (h : After s s') (h' : After s' s'') : After s s'' where
  kept := by
    intro k hk
    rcases h.kept k hk with hk' | hnone
    · exact h'.kept k hk'
    · exact .inr (by rw [(h'.released hnone).1, hnone])
  released := by
    intro hnone
    obtain ⟨hcertificate, hcopied, l, hl, hreleased⟩ := h.released hnone
    obtain ⟨hcertificate', hcopied', l', hl', hreleased'⟩ :=
      h'.released (by rw [hcertificate, hnone])
    exact ⟨hcertificate'.trans hcertificate, hcopied'.trans hcopied, l ++ l',
      by rw [hl', hl, List.append_assoc], List.forall_mem_append.mpr ⟨hreleased, hreleased'⟩⟩

end After

namespace Inv

/-- A thread is answered; if the certificate was released, it is told so. -/
theorem after_answer {lock : Option Thread} {a : Except CryptoError PublicHandle}
    (ha : s.certificate.ref = none → a = .error .released) :
    After s ({ s with lock := lock }.answer t a) where
  kept := fun _ hk => .inl hk
  released := fun hnone =>
    ⟨rfl, rfl, [(t, a)], rfl, fun _ hmem => by rw [List.mem_singleton.mp hmem, ha hnone]⟩

/-- **What one step leaves.** -/
theorem after_step (hs : s.Inv x cert i) (h : Step P s s') : After s s' := by
  cases h with
  | ask | missed | locked | foundAgain | missedAgain | failed | refused | dropped | gaveBack | call
  | finish => exact .of_eq rfl rfl rfl
  | found _ hsome =>
    refine after_answer fun hnone => ?_
    rw [(hs.exists_copied hsome).1] at hnone
    cases hnone
  | @unlocked t a ht =>
    have hrelies := hs.guarded.relies_of_stage ht
    refine after_answer fun hnone => ?_
    cases a with
    | ok k =>
      rw [(hs.exists_copied hrelies).1] at hnone
      cases hnone
    | error err => rw [hrelies hnone]
  | copied ht hderive =>
    obtain ⟨y, _, _, hsome, -⟩ := CertificateHandle.derive_eq_ok hderive
    have hne : s.certificate.ref ≠ none := by rw [hsome]; exact Option.some_ne_none y
    exact ⟨fun _ hk => .inl hk, fun hnone => absurd hnone hne⟩
  | @stored t k ht hnone =>
    obtain ⟨y, hc, -⟩ := hs.guarded.relies_of_stage ht
    refine ⟨fun k' hk' => ?_, fun href => ?_⟩
    · rw [hnone] at hk'
      cases hk'
    · rw [hc] at href
      cases href
  | released =>
    refine ⟨fun _ _ => .inr rfl, fun hnone => ⟨?_, rfl, [], (List.append_nil _).symm, nofun⟩⟩
    cases hs.phase with
    | underived hc | cached hc =>
      rw [hc] at hnone
      cases hnone
    | released hc =>
      show ({ s.certificate with ref := none, derived := none } : CertificateHandle) = _
      rw [hc]

theorem after_steps (hs : s.Inv x cert i) (h : Steps P s s') : After s s' := by
  induction h with
  | refl => exact .refl s
  | tail hsteps hstep ih => exact ih.trans ((hs.steps hsteps).after_step hstep)

variable (P)

/-- A thread that has the lock can go on until it lets go of it. -/
theorem exists_served_of_lock (hs : s.Inv x cert i) (h : s.lock = some t) :
    ∃ a c r s', Steps P s s' ∧ Served s t a c r s' := by
  have hinside := (hs.guarded.inside t).mpr h
  cases ht : s.stage t with
  | idle | looking | waiting =>
    rw [ht] at hinside
    cases hinside
  | lookingAgain =>
    obtain ⟨a, c, r, s', -, hs', hserved⟩ := exists_served P ht
    exact ⟨a, c, r, s', hs', hserved⟩
  | copying =>
    obtain ⟨a, c, r, s', -, hs', hserved⟩ :=
      exists_served_of_copying P ht (hs.guarded.relies_of_stage ht)
    exact ⟨a, c, r, s', hs', hserved⟩
  | storing k =>
    obtain ⟨s', hs', hserved⟩ := exists_served_of_storing P ht (hs.stored ht).1
    exact ⟨_, _, _, s', hs', hserved⟩
  | leaving a =>
    obtain ⟨s', hs', hserved⟩ := exists_served_of_leaving P ht
    exact ⟨_, _, _, s', hs', hserved⟩

/-- All that a release has yet to give back can be given back, one after the other. -/
theorem exists_settled (hs : s.Inv x cert i) : ∃ s',
    s.registry.releaseAll s.owed = .ok () s'.registry ∧ Steps P s s' ∧
    s'.certificate = s.certificate ∧ s'.freed = s.freed ++ s.owed ∧ s'.owed = [] := by
  induction howed : s.owed generalizing s with
  | nil => exact ⟨s, releaseAll_nil, .refl, rfl, (List.append_nil _).symm, howed⟩
  | cons y rest ih =>
    obtain ⟨r, hrelease, hs₁⟩ := hs.gaveBack howed
    obtain ⟨s', hrest, hsteps, hcertificate, hfreed, hnil⟩ := ih hs₁ rfl
    refine ⟨s', ?_, .head (.gaveBack howed hrelease) hsteps, hcertificate, ?_, hnil⟩
    · have happend := releaseAll_append (r := s.registry) [y] rest
      have hfirst : s.registry.releaseAll [y] = .ok () r := hrelease
      rw [hfirst] at happend
      exact happend.trans hrest
    · rw [hfreed, List.append_assoc, List.singleton_append]

/-- A certificate that no thread asks can be released, and that is what `Handle.release` does. -/
theorem exists_released (hs : s.Inv x cert i) (hidle : ∀ t, s.stage t = .idle)
    (howed : s.owed = []) : ∃ s',
      (Handle.certificate s.certificate).release s.registry =
        .ok (.certificate s'.certificate) s'.registry ∧
      Steps P s s' ∧ s'.certificate = { s.certificate with ref := none, derived := none } ∧
      s'.freed = s.freed ++ (Handle.certificate s.certificate).owns ∧ s'.owed = [] := by
  obtain ⟨s', hrelease, hsteps, hcertificate, hfreed, hnil⟩ :=
    (hs.released hidle howed).exists_settled P
  refine ⟨s', ?_, .head (.released hidle howed) hsteps, hcertificate, hfreed, hnil⟩
  rw [hcertificate]
  have hforM := (Registry.forM_release _ _).trans hrelease
  exact bind_run_ok hforM

end Inv

/-! ### The main result -/

/-- What holds of the certificate `x`, in which the key of `cert` is, at any time. -/
structure DerivesOnce (P : Provider) (x : Ref) (cert : X509) (i : CertificateInfo)
    (s : SharedCertificate) : Prop where
  /-- A key was copied out once at most. -/
  once : s.copied.length ≤ 1
  /-- All threads that have got a key have got that one. -/
  same : ∀ t k, (t, .ok k) ∈ s.answers → ∃ y, s.copied = [y] ∧ k = ⟨some y, i.publicKey⟩
  /-- It is the key in the certificate, and it is in the cache, or the thread that has the lock is
  about to put it there. -/
  cached : s.certificate.ref = some x → ∀ y ∈ s.copied,
    (∃ key, cert.key = some key ∧ s.registry.object y = .ok (.key ⟨.ofPublic key, false, true⟩)) ∧
      (s.certificate.derived = some ⟨some y, i.publicKey⟩ ∨
        ∃ t, s.lock = some t ∧ s.stage t = .storing ⟨some y, i.publicKey⟩)
  /-- When no thread has the lock, what there is belongs to the certificate and its cache, to a
  release that is under way, or to other clients. -/
  balanced : s.lock = none → s.registry.Balanced
    (((Handle.certificate s.certificate).owns ++ s.owed : List Ref) + s.others)
  /-- A derivation that fails stores nothing, and its thread lets go of the lock. -/
  failed : ∀ t err s', Step P s s' → s.stage t = .copying → s'.stage t = .leaving (.error err) →
    (s'.certificate = s.certificate ∧ s'.registry = s.registry ∧ s'.copied = s.copied) ∧
      ∃ s'', Steps P s' s'' ∧ Served s' t (.error err) s.certificate s.registry s''
  /-- A thread that has the lock can let go of it. -/
  unlocks : ∀ t, s.lock = some t → ∃ a c r s', Steps P s s' ∧ Served s t a c r s'
  /-- A thread that finds the lock free can get the answer that the certificate has for it, whatever
  others were answered before. -/
  retries : ∀ t, s.stage t = .idle → s.owed = [] → s.lock = none → ∃ a c r s',
    s.certificate.key s.registry = .ok (a, c) r ∧ Steps P s s' ∧ Served s t a c r s'
  /-- The cache is never changed again before a release, and nothing after it. -/
  after : ∀ s', Steps P s s' → After s s'
  /-- The certificate can be released when no thread asks. -/
  releases : (∀ t, s.stage t = .idle) → s.owed = [] → ∃ s',
    (Handle.certificate s.certificate).release s.registry =
      .ok (.certificate s'.certificate) s'.registry ∧
    Steps P s s' ∧ s'.certificate = { s.certificate with ref := none, derived := none } ∧
    s'.freed = s.freed ++ (Handle.certificate s.certificate).owns ∧ s'.owed = []
  /-- Whatever a release has yet to give back is there. -/
  gives : ∀ y rest, s.owed = y :: rest → ∃ r, Service.release y s.registry = .ok () r
  /-- The key is given back by a release, before the certificate, and each of them once. -/
  freed : (s.copied ++ [x]).Nodup ∧
    (s.certificate.ref = some x ∧ s.freed = [] ∧ s.owed = [] ∨
      s.certificate.ref = none ∧ s.freed ++ s.owed = s.copied ++ [x])

theorem Inv.derivesOnce (hs : s.Inv x cert i) : DerivesOnce P x cert i s where
  once := by
    cases hs.phase with
    | underived _ hlength | released _ hlength => exact hlength
    | cached _ hcopied => rw [hcopied]; rfl
  same := hs.answered
  cached := by
    intro href y hy
    refine ⟨(hs.holds href).2 y hy, ?_⟩
    cases hs.phase with
    | underived hc =>
      obtain ⟨t, k, ht⟩ := hs.pending hc (List.ne_nil_of_mem hy)
      obtain ⟨z, -, hcopied, rfl⟩ := hs.guarded.relies_of_stage ht
      rw [hcopied] at hy
      rw [List.mem_singleton.mp hy]
      exact .inr ⟨t, hs.guarded.lock_eq ht rfl, ht⟩
    | cached hc hcopied =>
      rw [hcopied] at hy
      rw [List.mem_singleton.mp hy, hc]
      exact .inl rfl
    | released hc =>
      rw [hc] at href
      cases href
  balanced := by
    intro hlock
    have hkept := hs.kept_eq fun t k ht => by
      have hinside := hs.guarded.lock_eq ht rfl
      rw [hlock] at hinside
      cases hinside
    rw [← hkept]
    exact hs.balanced
  failed := by
    intro t err s' hstep ht ht'
    obtain ⟨hcertificate, hregistry, hcopied⟩ := Inv.unchanged_of_failed hstep ht ht'
    obtain ⟨s'', hs'', hserved⟩ := exists_served_of_leaving P ht'
    rw [hcertificate, hregistry] at hserved
    exact ⟨⟨hcertificate, hregistry, hcopied⟩, s'', hs'', hserved⟩
  unlocks := fun _ => hs.exists_served_of_lock P
  retries := fun _ => exists_served_of_idle P
  after := fun _ => hs.after_steps
  releases := hs.exists_released P
  gives := fun _ _ howed => (hs.gaveBack howed).imp fun _ h => h.1
  freed := by
    refine ⟨hs.nodup, ?_⟩
    cases hs.phase with
    | underived hc _ hfreed howed | cached hc _ hfreed howed =>
      exact .inl ⟨by rw [hc], hfreed, howed⟩
    | released hc _ hfreed => exact .inr ⟨by rw [hc], hfreed⟩

/-- **A certificate derives its key at most once.**  Let any number of threads ask a certificate for
its key, one that nobody has asked before, and let them make their steps in any order, among those
of other clients.  Then the key is copied out of the certificate once at most; all threads that get
a key get that one; it goes into the cache, and no other object is left behind; a derivation that
fails stores nothing and leaves the next thread free to try again; the key stays in the cache
until the certificate is released; a release gives back the key and then the certificate, each
once; and after it threads are told that the certificate was released, and nothing is created. -/
theorem Fresh.derives_once {start : SharedCertificate} (hstart : start.Fresh x cert)
    (hs : Steps P start s) : DerivesOnce P x cert start.certificate.info s :=
  ((Inv.of_fresh hstart).steps hs).derivesOnce

/-- A certificate that was just loaded. -/
def mersenne : SharedCertificate where
  registry := Registry.insert {} (.certificate
    ⟨Rsa.mersenneCertificate, some (.rsa Rsa.mersenneKey.publicKey)⟩)
  certificate := { ref := some 1, info := ⟨Rsa.mersenneCertificate, mersenneInfo⟩ }
  others := 0

theorem fresh_mersenne :
    mersenne.Fresh 1 ⟨Rsa.mersenneCertificate, some (.rsa Rsa.mersenneKey.publicKey)⟩ where
  ref := rfl
  derived := rfl
  object := rfl
  balanced := Balanced.insert (r := {}) Balanced.empty nofun
  unlocked := rfl
  idle := fun _ => rfl
  empty := ⟨rfl, rfl, rfl, rfl⟩

/-- Two threads ask for its key, and both find none at first: they get the same. -/
theorem derives_once_mersenne : ∃ s k, Steps .narrow mersenne s ∧
    s.answers = [(0, .ok k), (1, .ok k)] ∧ s.copied = [2] ∧
    DerivesOnce .narrow 1 ⟨Rsa.mersenneCertificate, some (.rsa Rsa.mersenneKey.publicKey)⟩
      mersenne.certificate.info s := by
  have hderive : mersenne.certificate.derive.run mersenne.registry =
      .ok (.ok ⟨some 2, mersenneInfo⟩) _ :=
    CertificateHandle.derive_run (x := 1) rfl rfl rfl
  have hlooking : Steps .narrow mersenne ((((mersenne.goTo 0 .looking).goTo 1 .looking).goTo 0
      .waiting).goTo 1 .waiting) :=
    .head (.ask rfl rfl) (.head (.ask rfl rfl)
      (.head (.missed rfl rfl) (.single (.missed rfl rfl))))
  have hfirst := hlooking.tail (.locked (t := 0) rfl rfl) |>.tail (.missedAgain (t := 0) rfl rfl)
    |>.tail (.copied (t := 0) rfl hderive) |>.tail (.stored (t := 0) rfl rfl)
    |>.tail (.unlocked (t := 0) rfl)
  have hsecond := hfirst.tail (.locked (t := 1) rfl rfl) |>.tail (.foundAgain (t := 1) rfl rfl)
    |>.tail (.unlocked (t := 1) rfl)
  exact ⟨_, _, hsecond, rfl, rfl, fresh_mersenne.derives_once hsecond⟩

end SharedCertificate

end Keyring
