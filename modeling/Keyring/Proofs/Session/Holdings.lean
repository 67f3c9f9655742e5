import Keyring.Proofs.Session.Operations
import Mathlib.Data.Multiset.Bind

/-!
# What handles hold

A handle that was not released holds one object of the service, and a certificate that has
derived its public key holds that besides.  Handles carry a registry if what they hold is all
that callers own there, every object once and of the kind that goes with the handle.

Loading a handle, deriving a key and releasing a handle go from handles to handles; all other
handles stay in the frame.  `Action.Turns` says so of a call: from any registry that carries the
handles `pre`, among others, it comes to an end, and the registry then carries the handles of its
result in their place, or what it has left over if it fails.  Calls are put together by
`Turns.bind`, with what an earlier call has handed out in the frame of the later one, and the
handler of an error has to release exactly what is left over.  Each call of the session is
followed through its parts in this way, without a look at the registry itself.

## Main definitions

* `ObjectKind`, `Handle.holdings` — what a handle holds, and of which kind.
* `Handle.Coherent` — a handle whose cached key is what was derived from it.
* `Registry.Carries` — handles own exactly what they hold.
* `Action.Turns` — a call turns handles into handles.

## Main results

* `Registry.Carries.follow` — what does not change the owners keeps the handles.
* `Registry.Carries.release` — **a handle can be released.**
* `turns_importPrivate`, `turns_importPublic`, `turns_importCertificate`,
  `turns_importContainer` — **loading hands out what it has created, or nothing.**
* `PublicSource.serves_use` — **an operation on the public key of a source.**
-/

namespace Keyring

open Registry

variable {α β : Type} {P : Provider} {r r' : Registry} {h : Handle} {hs : Multiset Handle}

/-! ### Kinds of objects -/

/-- What kind of object there is under a reference. -/
inductive ObjectKind where
  | certificate
  | publicKey
  | privateKey
  | data
  | number
  | boolean
  | transform
  deriving DecidableEq, Repr

/-- The kind of a key. -/
def KeyMaterial.kind : KeyMaterial → ObjectKind
  | ofPublic _ => .publicKey
  | ofPrivate _ => .privateKey

/-- The kind of an object. -/
def NativeObject.kind : NativeObject → ObjectKind
  | certificate _ => .certificate
  | key k => k.material.kind
  | data _ => .data
  | number _ => .number
  | boolean _ => .boolean
  | transform _ => .transform

/-- What a handle holds, in the order in which it is given back. -/
def Handle.holdings : Handle → List (Ref × ObjectKind)
  | privateKey k => k.ref.toList.map (·, .privateKey)
  | publicKey k => k.ref.toList.map (·, .publicKey)
  | certificate c =>
    (c.derived.bind (·.ref)).toList.map (·, .publicKey) ++ c.ref.toList.map (·, .certificate)

theorem Handle.map_fst_holdings (h : Handle) : h.holdings.map Prod.fst = h.owns := by
  cases h <;> simp [holdings, owns, Function.comp_def]

/-- Only a certificate that was not released caches a key; the key is live, and it is what the
certificate is known to certify. -/
def Handle.Coherent : Handle → Prop
  | certificate c => ∀ k, c.derived = some k →
    (∃ x, c.ref = some x) ∧ ∃ y, k = ⟨some y, c.info.publicKey⟩
  | _ => True

/-- What handles own together. -/
def ownedBy (hs : Multiset Handle) : Multiset Ref := hs.bind fun h => (h.owns : Multiset Ref)

@[simp] theorem ownedBy_zero : ownedBy 0 = 0 := rfl

@[simp] theorem ownedBy_cons (h : Handle) (hs : Multiset Handle) :
    ownedBy (h ::ₘ hs) = (h.owns : Multiset Ref) + ownedBy hs := Multiset.cons_bind _ _ _

@[simp] theorem ownedBy_add (hs hs' : Multiset Handle) :
    ownedBy (hs + hs') = ownedBy hs + ownedBy hs' := Multiset.add_bind _ _ _

theorem ownedBy_mono {hs' : Multiset Handle} (hle : hs' ≤ hs) : ownedBy hs' ≤ ownedBy hs := by
  obtain ⟨rest, rfl⟩ := Multiset.le_iff_exists_add.mp hle
  rw [ownedBy_add]
  exact Multiset.le_add_right _ _

theorem owns_le_ownedBy (hh : h ∈ hs) : (h.owns : Multiset Ref) ≤ ownedBy hs :=
  Multiset.le_bind hs hh

/-! ### Handles and the registry -/

namespace Registry

/-- Handles carry a registry: callers own what the handles hold and nothing else. -/
structure Carries (r : Registry) (hs : Multiset Handle) : Prop where
  /-- Every object is there as often as it has owners. -/
  balanced : r.Balanced (ownedBy hs)
  /-- No object is held twice. -/
  nodup : (ownedBy hs).Nodup
  /-- What is held is of the kind that goes with the handle. -/
  kind_eq : ∀ h ∈ hs, ∀ p ∈ h.holdings, ∃ o, r.object p.1 = .ok o ∧ o.kind = p.2
  /-- Cached keys are what was derived. -/
  coherent : ∀ h ∈ hs, h.Coherent

/-- Whoever still owns an object finds one of its kind. -/
theorem exists_kind {owned : Multiset Ref} {x : Ref} {o : NativeObject} (hr : r.Ordered)
    (hfollows : r.Follows r') (hbal : r'.Balanced owned) (hx : x ∈ owned)
    (ho : r.object x = .ok o) : ∃ o', r'.object x = .ok o' ∧ o'.kind = o.kind := by
  obtain ⟨e, he⟩ := hbal.exists_find?_of_mem hx
  have ho' := object_of_find? he
  refine ⟨_, ho', ?_⟩
  -- an object that was set is a transform before and after
  rcases hfollows.object x _ (hr.le_last_of_object ho) ho' with hsame | ⟨t, t', ht, ht'⟩
  · rw [ho] at hsame
    cases hsame
    rfl
  · rw [ho] at ht
    cases ht
    rw [ht']
    rfl

namespace Carries

theorem empty : Carries {} 0 := ⟨.empty, Multiset.nodup_zero, by simp, by simp⟩

/-- Some of the handles stay, if what they hold is all that callers own from then on. -/
theorem restrict {hs' : Multiset Handle} (hr : r.Carries hs) (hle : hs' ≤ hs)
    (hfollows : r.Follows r') (hbal : r'.Balanced (ownedBy hs')) : r'.Carries hs' where
  balanced := hbal
  nodup := Multiset.nodup_of_le (ownedBy_mono hle) hr.nodup
  kind_eq := by
    intro h hh p hp
    obtain ⟨o, ho, hkind⟩ := hr.kind_eq h (Multiset.mem_of_le hle hh) p hp
    have hx : p.1 ∈ ownedBy hs' := by
      refine Multiset.mem_of_le (owns_le_ownedBy hh) ?_
      rw [← h.map_fst_holdings]
      exact List.mem_map_of_mem hp
    obtain ⟨o', ho', hkind'⟩ := exists_kind hr.balanced.ordered hfollows hbal hx ho
    exact ⟨o', ho', hkind'.trans hkind⟩
  coherent := fun h hh => hr.coherent h (Multiset.mem_of_le hle hh)

/-- What does not change the owners keeps the handles. -/
theorem follow (hr : r.Carries hs) (hfollows : r.Follows r')
    (hbal : r'.Balanced (ownedBy hs)) : r'.Carries hs :=
  hr.restrict le_rfl hfollows hbal

/-- A new object goes to a new handle. -/
theorem insert (hr : r.Carries hs) {o : NativeObject} (ho : o.retained = [])
    (hholdings : h.holdings = [(r.last + 1, o.kind)]) (hcoherent : h.Coherent) :
    (r.insert o).Carries (h ::ₘ hs) := by
  have howns : h.owns = [r.last + 1] := by rw [← h.map_fst_holdings, hholdings]; rfl
  have hordered := hr.balanced.ordered
  have hbal : (r.insert o).Balanced (ownedBy (h ::ₘ hs)) := by
    rw [ownedBy_cons, howns, Multiset.coe_singleton, Multiset.singleton_add]
    exact Balanced.insert (by simpa [ho] using hr.balanced) (by simp [ho])
  refine ⟨hbal, ?_, Multiset.forall_mem_cons.mpr ⟨fun p hp => ?_, fun h' hh' p hp => ?_⟩,
    Multiset.forall_mem_cons.mpr ⟨hcoherent, hr.coherent⟩⟩
  · rw [ownedBy_cons, howns, Multiset.coe_singleton, Multiset.singleton_add, Multiset.nodup_cons]
    -- the new reference was not held: it was not given out
    refine ⟨fun hmem => ?_, hr.nodup⟩
    obtain ⟨e, he⟩ := hr.balanced.exists_find?_of_mem hmem
    exact Nat.not_succ_le_self _ (hordered.find?_le_last he)
  · rw [hholdings, List.mem_singleton] at hp
    rw [hp]
    exact ⟨o, object_insert_last hordered, rfl⟩
  · obtain ⟨o', ho', hkind⟩ := hr.kind_eq h' hh' p hp
    exact ⟨o', object_insert_of_ok hordered ho', hkind⟩

/-- **A handle can be released**, and all other handles keep what they hold. -/
theorem release (hr : r.Carries (h ::ₘ hs)) :
    ∃ r', h.release r = .ok h.released r' ∧ r'.Carries hs := by
  have hbal := hr.balanced
  rw [ownedBy_cons] at hbal
  obtain ⟨r', hrelease, hbal'⟩ := hbal.releaseAll
  refine ⟨r', ?_, hr.restrict (Multiset.le_cons_self hs h) (follows_of_releaseAll hrelease) hbal'⟩
  rw [← Registry.forM_release] at hrelease
  exact bind_run_ok hrelease

/-- Handles that are released in order. -/
theorem releaseHandles {l : List Handle} (hr : r.Carries (l + hs)) :
    ∃ r', Keyring.releaseHandles l r = .ok () r' ∧ r'.Carries hs := by
  induction l generalizing r with
  | nil => exact ⟨r, rfl, by simpa using hr⟩
  | cons h rest ih =>
    rw [← Multiset.cons_coe, Multiset.cons_add] at hr
    obtain ⟨r', hrelease, hr'⟩ := hr.release
    obtain ⟨r'', hrest, hr''⟩ := ih hr'
    exact ⟨r'', (bind_run_ok hrelease).trans hrest, hr''⟩

/-- A key that was derived goes over to the certificate that caches it. -/
theorem attach {c : CertificateHandle} {x y : Ref} (hx : c.ref = some x) (hnone : c.derived = none)
    (hr : r.Carries (.publicKey ⟨some y, c.info.publicKey⟩ ::ₘ .certificate c ::ₘ hs)) :
    r.Carries (.certificate { c with derived := some ⟨some y, c.info.publicKey⟩ } ::ₘ hs) := by
  -- nothing changes owners, so the registry may stay as it is
  have howned :
      ownedBy (.certificate { c with derived := some ⟨some y, c.info.publicKey⟩ } ::ₘ hs) =
        ownedBy (.publicKey ⟨some y, c.info.publicKey⟩ ::ₘ .certificate c ::ₘ hs) := by
    simp only [ownedBy_cons, Handle.owns, hx, hnone, Option.bind_some, Option.bind_none,
      Option.toList_some, Option.toList_none, List.nil_append]
    rw [← Multiset.add_assoc, Multiset.coe_add]
  obtain ⟨hkey, hrest⟩ := Multiset.forall_mem_cons.mp hr.kind_eq
  obtain ⟨hcertificate, hrest⟩ := Multiset.forall_mem_cons.mp hrest
  obtain ⟨-, hcoherent⟩ := Multiset.forall_mem_cons.mp hr.coherent
  obtain ⟨-, hcoherent⟩ := Multiset.forall_mem_cons.mp hcoherent
  refine ⟨howned ▸ hr.balanced, howned ▸ hr.nodup,
    Multiset.forall_mem_cons.mpr ⟨fun p hp => ?_, hrest⟩,
    Multiset.forall_mem_cons.mpr ⟨fun k hk => ?_, hcoherent⟩⟩
  · -- held is the key, and what the certificate held before
    simp only [Handle.holdings, Option.bind_some, List.mem_append] at hp
    rcases hp with hp | hp
    · exact hkey p (by simpa [Handle.holdings] using hp)
    · exact hcertificate p (by simpa [Handle.holdings, hnone] using hp)
  · cases hk
    exact ⟨⟨x, hx⟩, y, rfl⟩

end Carries

end Registry

/-! ### From handles to handles -/

/-- The handles after a call: `lost` if it has failed. -/
def given (post : α → Multiset Handle) (lost : Multiset Handle) :
    Except CryptoError α → Multiset Handle
  | .ok a => post a
  | .error _ => lost

namespace Action

/-- A call turns handles `pre` into those of its result, or into `lost` if it fails.  All other
handles keep what they hold. -/
def Turns (x : Action α) (pre : Multiset Handle) (post : α → Multiset Handle)
    (lost : Multiset Handle) : Prop :=
  ∀ r hs, r.Carries (pre + hs) →
    ∃ result r', x.run r = .ok result r' ∧ r'.Carries (given post lost result + hs)

variable {x : Action α} {f : α → Action β} {pre lost : Multiset Handle}
  {mid : α → Multiset Handle} {post : β → Multiset Handle}

theorem turns_pure (post : β → Multiset Handle) (b : β) : Turns (pure b) (post b) post lost :=
  fun r _ hr => ⟨.ok b, r, rfl, hr⟩

theorem turns_ofExcept (check : Except CryptoError α) :
    (ofExcept check).Turns pre (fun _ => pre) pre :=
  fun r _ hr => ⟨check, r, rfl, by cases check <;> exact hr⟩

theorem Turns.bind (hx : x.Turns pre mid lost) (hf : ∀ a, (f a).Turns (mid a) post lost) :
    (x >>= f).Turns pre post lost := by
  intro r hs hr
  obtain ⟨result, r', hrun, hr'⟩ := hx r hs hr
  cases result with
  | error err => exact ⟨.error err, r', run_bind_error hrun, hr'⟩
  | ok a =>
    obtain ⟨result, r'', hrun', hr''⟩ := hf a r' hs hr'
    exact ⟨result, r'', (run_bind_ok hrun).trans hrun', hr''⟩

theorem Turns.frame (hx : x.Turns pre mid lost) (kept : Multiset Handle) :
    x.Turns (pre + kept) (fun a => mid a + kept) (lost + kept) := by
  intro r hs hr
  obtain ⟨result, r', hrun, hr'⟩ := hx r (kept + hs) (by rwa [← Multiset.add_assoc])
  refine ⟨result, r', hrun, ?_⟩
  cases result <;> rwa [given, Multiset.add_assoc]

/-- What a call has left over when it fails is released. -/
theorem Turns.onError {l : List Handle} (hx : x.Turns pre mid l) :
    (x.onError (releaseHandles l)).Turns pre mid 0 := by
  intro r hs hr
  obtain ⟨result, r', hrun, hr'⟩ := hx r hs hr
  cases result with
  | ok a => exact ⟨.ok a, r', bind_run_ok hrun, hr'⟩
  | error err =>
    obtain ⟨r'', hrelease, hr''⟩ := Carries.releaseHandles hr'
    exact ⟨.error err, r'', (bind_run_ok hrun).trans (bind_run_ok hrelease),
      by rwa [given, Multiset.zero_add]⟩

/-- An object that is created goes to a new handle. -/
theorem turns_create {make : Registry → Except ServiceError NativeObject} {mk : Ref → α}
    {handle : α → Handle} (kind : ObjectKind)
    (hmake : ∀ r o, make r = .ok o → o.retained = [] ∧ o.kind = kind)
    (hholdings : ∀ y, (handle (mk y)).holdings = [(y, kind)])
    (hcoherent : ∀ y, (handle (mk y)).Coherent) :
    (do let y ← ofService (Service.create make); return mk y : Action α).Turns 0
      (fun a => {handle a}) 0 := by
  intro r hs hr
  rw [Multiset.zero_add] at hr
  cases ho : make r with
  | error err =>
    refine ⟨_, r, run_bind_error (run_ofService (Service.create_error ho)), ?_⟩
    rwa [given, Multiset.zero_add]
  | ok o =>
    obtain ⟨hnil, rfl⟩ := hmake r o ho
    refine ⟨_, _, run_bind_ok (run_ofService (Service.create_ok ho)), ?_⟩
    rw [given, Multiset.singleton_add]
    exact hr.insert hnil (hholdings _) (hcoherent _)

/-- A call that creates an object leaves all others as they were. -/
theorem leadsTo_of_create {make : Registry → Except ServiceError NativeObject} {mk : Ref → α}
    {result : Except CryptoError α} (hr : r.Sound)
    (h : (do let y ← ofService (Service.create make); return mk y : Action α).run r =
      .ok result r') : r.LeadsTo r' := by
  cases ho : make r with
  | error err =>
    have hfails := (run_bind_error (f := fun y => (pure (mk y) : Action α))
      (run_ofService (Service.create_error ho))).symm.trans h
    cases hfails
    exact .refl hr
  | ok o =>
    have hgives := (run_bind_ok (f := fun y => (pure (mk y) : Action α))
      (run_ofService (Service.create_ok ho))).symm.trans h
    cases hgives
    exact .insert hr o

/-- A check comes first, which may fail. -/
theorem leadsTo_of_check {check : Except CryptoError β} {f : β → Action α}
    {result : Except CryptoError α}
    (hf : ∀ b result r', (f b).run r = .ok result r' → r.LeadsTo r') (hr : r.Sound)
    (h : (ofExcept check >>= f).run r = .ok result r') : r.LeadsTo r' := by
  rcases run_bind_cases h with ⟨err, hfails, -⟩ | ⟨b, r₁, hpasses, hrest⟩
  · cases hfails
    exact .refl hr
  · cases hpasses
    exact hf b result r' hrest

end Action

open Keyring.Action

/-! ### Loading -/

section Loading

variable (P)

theorem kind_of_decodeKey {algorithm : KeyAlgorithm} {isPrivate : Bool} {b : Bytes}
    {m : KeyMaterial} (h : Service.decodeKey P algorithm isPrivate b = some m) :
    m.kind = if isPrivate then .privateKey else .publicKey := by
  unfold Service.decodeKey at h
  cases isPrivate with
  | false =>
    obtain ⟨k, -, rfl⟩ := Option.map_eq_some_iff.mp h
    rfl
  | true =>
    obtain ⟨k, -, rfl⟩ := Option.map_eq_some_iff.mp h
    rfl

/-- A key that is created is of the class that was asked for. -/
theorem kind_of_keyCreate {a : KeyAttributes} {b : Bytes} {o : NativeObject}
    (h : (do
      let m ← Service.decoded (Service.decodeKey P a.algorithm a.isPrivate b)
      if m.algorithm? = some a.algorithm then return .key ⟨m, a.canSign, a.canVerify⟩
      else throw .keyTypeMismatch : Except ServiceError NativeObject) = .ok o) :
    o.retained = [] ∧ o.kind = if a.isPrivate then .privateKey else .publicKey := by
  obtain ⟨m, hm, h⟩ := bind_eq_ok_iff.mp h
  unfold Service.decoded at hm
  split at hm <;> cases hm
  next hdecode =>
    split at h <;> cases h
    exact ⟨rfl, kind_of_decodeKey P hdecode⟩

theorem turns_importPrivate (i : PrivateInfo) :
    (importPrivate P i).Turns 0 (fun k => {.privateKey k}) 0 :=
  (turns_ofExcept _).bind fun _ => turns_create _ (fun _ _ h => kind_of_keyCreate P h)
    (fun _ => rfl) fun _ => trivial

theorem turns_importPublic (i : PublicInfo) :
    (importPublic P i).Turns 0 (fun k => {.publicKey k}) 0 :=
  (turns_ofExcept _).bind fun _ => turns_create _ (fun _ _ h => kind_of_keyCreate P h)
    (fun _ => rfl) fun _ => trivial

theorem turns_importCertificate (i : CertificateInfo) :
    (importCertificate P i).Turns 0 (fun c => {.certificate c}) 0 := by
  refine turns_create .certificate (fun r o h => ?_) (fun _ => rfl) fun y k hk => ?_
  · obtain ⟨c, -, rfl⟩ := map_eq_ok_iff.mp h
    exact ⟨rfl, rfl⟩
  · cases hk

theorem turns_importCertificates (done : List CertificateHandle) (rest : List CertificateInfo) :
    (importCertificates P done rest).Turns (done.map Handle.certificate : List Handle)
      (fun all => (all.map Handle.certificate : List Handle)) 0 := by
  induction rest generalizing done with
  | nil => exact turns_pure (fun all => (all.map Handle.certificate : List Handle)) done
  | cons i rest ih =>
    have hnext := (turns_importCertificate P i).frame (done.map Handle.certificate : List Handle)
    rw [Multiset.zero_add] at hnext
    -- if this one fails, those before it are released
    refine hnext.onError.bind fun c => ?_
    have hmore :
        ({.certificate c} : Multiset Handle) + (done.map Handle.certificate : List Handle) =
          ((done ++ [c]).map Handle.certificate : List Handle) := by
      rw [List.map_append, ← Multiset.coe_add, Multiset.add_comm]
      rfl
    rw [hmore]
    exact ih (done ++ [c])

/-- The handles of what a container held. -/
def Bundle.all (b : Bundle) : List Handle :=
  b.privateKey.toList.map .privateKey ++ b.certificate.toList.map .certificate ++
    b.others.map .certificate

/-- What may be missing is imported if it is there. -/
theorem Action.turns_mapM {ι : Type} {f : ι → Action α} {handle : α → Handle}
    (hf : ∀ i, (f i).Turns 0 (fun a => {handle a}) 0) (i : Option ι) :
    (i.mapM f).Turns 0 (fun a => (a.toList.map handle : List Handle)) 0 := by
  cases i with
  | none => exact turns_pure (fun a : Option α => (a.toList.map handle : List Handle)) none
  | some i =>
    exact (hf i).bind fun a =>
      turns_pure (fun a : Option α => (a.toList.map handle : List Handle)) (some a)

/-- **A container is imported whole or not at all.** -/
theorem turns_importContainer (i : ContainerInfo) :
    (importContainer P i).Turns 0 (fun b => (b.all : Multiset Handle)) 0 := by
  refine (turns_mapM (turns_importPrivate P) i.privateKey).bind fun key => ?_
  -- from here on the private key is in the frame, and released on failure
  have hcertificate := (turns_mapM (turns_importCertificate P) i.certificate).frame
    (key.toList.map Handle.privateKey : List Handle)
  rw [Multiset.zero_add] at hcertificate
  refine hcertificate.onError.bind fun certificate => ?_
  -- and so is the certificate with it
  have hothers := (turns_importCertificates P [] i.others).frame
    (certificate.toList.map Handle.certificate ++ key.toList.map Handle.privateKey : List Handle)
  rw [List.map_nil, Multiset.coe_nil, Multiset.zero_add, ← Multiset.coe_add] at hothers
  refine hothers.onError.bind fun others => ?_
  have hall : ((others.map Handle.certificate : List Handle) : Multiset Handle) +
      ((certificate.toList.map Handle.certificate : List Handle) +
        (key.toList.map Handle.privateKey : List Handle)) =
      (Bundle.all ⟨key, certificate, others⟩ : List Handle) := by
    rw [Bundle.all, ← Multiset.coe_add, ← Multiset.coe_add, Multiset.add_comm]
    exact congrArg (· + _) (Multiset.add_comm _ _)
  rw [hall]
  exact turns_pure (fun b : Bundle => (b.all : Multiset Handle)) _

end Loading

/-! ### The public key of a source -/

/-- A certificate that derives its key hands out the key, and fails without a trace. -/
theorem turns_derive (c : CertificateHandle) :
    c.derive.Turns 0 (fun k => {.publicKey k}) 0 := by
  refine (turns_ofExcept _).bind fun x =>
    turns_create .publicKey (fun r o h => ?_) (fun _ => rfl) fun _ => trivial
  obtain ⟨cert, -, h⟩ := bind_eq_ok_iff.mp h
  obtain ⟨k, -, h⟩ := bind_eq_ok_iff.mp h
  cases h
  exact ⟨rfl, rfl⟩

/-- Deriving a key leaves all objects as they were. -/
theorem CertificateHandle.leadsTo_of_derive {c : CertificateHandle}
    {result : Except CryptoError PublicHandle} (hr : r.Sound)
    (h : c.derive.run r = .ok result r') : r.LeadsTo r' :=
  leadsTo_of_check (fun _ _ _ hcopy => leadsTo_of_create hr hcopy) hr h

/-- A source stays as it is, or it is a certificate that derives its key; all objects stay. -/
def PublicSource.Becomes (s : PublicSource) (r : Registry) (s' : PublicSource) (r' : Registry) :
    Prop :=
  s' = s ∧ r.Follows r' ∨ ∃ c k r₁, s = .certificate c ∧ c.derived = none ∧
    c.derive.run r = .ok (.ok k) r₁ ∧ s' = .certificate { c with derived := some k } ∧
      r₁.Follows r'

theorem PublicSource.Becomes.follow {s s' : PublicSource} {r'' : Registry}
    (h : s.Becomes r s' r') (hfollows : r'.Follows r'') : s.Becomes r s' r'' := by
  rcases h with ⟨rfl, h⟩ | ⟨c, k, r₁, rfl, hnone, hderive, rfl, h⟩
  · exact .inl ⟨rfl, h.trans hfollows⟩
  · exact .inr ⟨c, k, r₁, rfl, hnone, hderive, rfl, h.trans hfollows⟩

theorem CertificateHandle.exists_key {c : CertificateHandle}
    (hr : r.Carries (.certificate c ::ₘ hs)) :
    ∃ result c' r', c.key r = .ok (result, c') r' ∧ r'.Carries (.certificate c' ::ₘ hs) ∧
      (PublicSource.certificate c).Becomes r (.certificate c') r' ∧
      ∀ k, result = .ok k → k.info = c.info.publicKey := by
  cases hderived : c.derived with
  -- a cached key is handed out as it is
  | some k =>
    obtain ⟨-, y, hk⟩ := hr.coherent (.certificate c) (Multiset.mem_cons_self _ _) k hderived
    refine ⟨.ok k, c, r, by rw [key, hderived]; rfl, hr, .inl ⟨rfl, .refl r⟩, fun k' h => ?_⟩
    cases h
    rw [hk]
  | none =>
    obtain ⟨result, r', hrun, hr'⟩ := turns_derive c r _ (by rwa [Multiset.zero_add])
    have hfollows := (leadsTo_of_derive hr.balanced.sound hrun).follows
    cases result with
    | error err =>
      rw [given, Multiset.zero_add] at hr'
      refine ⟨.error err, c, r', by rw [key, hderived]; exact bind_run_ok hrun, hr',
        .inl ⟨rfl, hfollows⟩, fun k' h => ?_⟩
      cases h
    | ok k =>
      rw [given, Multiset.singleton_add] at hr'
      -- what was derived is cached, and owned through the certificate
      obtain ⟨x, y, hx, rfl⟩ := eq_of_derive hrun
      refine ⟨_, _, r', by rw [key, hderived]; exact bind_run_ok hrun, hr'.attach hx hderived,
        .inr ⟨c, _, r', rfl, hderived, hrun, rfl, .refl r'⟩, fun k' h => ?_⟩
      cases h
      rfl

namespace PublicSource

/-- What becomes of a call on the public key of a source: it ends, with what the source has
become in its place, unless the key is excessively long. -/
def Serves (s : PublicSource) (r : Registry) (hs : Multiset Handle)
    (x : EStateM Halt Registry (α × PublicSource)) : Prop :=
  (∃ a s' r', x r = .ok (a, s') r' ∧ r'.Carries (s'.handle ::ₘ hs) ∧ s.Becomes r s' r') ∨
    2 ^ 35 ≤ s.handle.bitSize ∧ ∃ r', x r = .error .sizeOverflow r'

variable {s : PublicSource}

theorem Serves.map {x : EStateM Halt Registry (α × PublicSource)} (h : s.Serves r hs x)
    {f : α × PublicSource → EStateM Halt Registry (β × PublicSource)} {g : α → β}
    (hf : ∀ a s', f (a, s') = pure (g a, s')) : s.Serves r hs (x >>= f) := by
  rcases h with ⟨a, s', r', hrun, hafter⟩ | ⟨hlong, r', hrun⟩
  · refine .inl ⟨g a, s', r', ?_, hafter⟩
    rw [bind_run_ok hrun, hf]
    rfl
  · exact .inr ⟨hlong, r', bind_run_error hrun⟩

/-- A source supplies its public key, or an error. -/
theorem exists_key (hr : r.Carries (s.handle ::ₘ hs)) :
    ∃ result s' r', s.publicKey r = .ok (result, s') r' ∧ r'.Carries (s'.handle ::ₘ hs) ∧
      s.Becomes r s' r' ∧ ∀ k, result = .ok k → k.info.bitSize = s.handle.bitSize := by
  cases s with
  | key k =>
    refine ⟨.ok k, .key k, r, rfl, hr, .inl ⟨rfl, .refl r⟩, fun k' h => ?_⟩
    cases h
    rfl
  | certificate c =>
    obtain ⟨result, c', r', hrun, hr', hbecomes, hinfo⟩ := CertificateHandle.exists_key hr
    refine ⟨result, .certificate c', r', bind_run_ok hrun, hr', hbecomes, fun k h => ?_⟩
    rw [hinfo k h]
    rfl

/-- **An operation on the public key of a source**, which may be derived for it, leaves all other
handles what they hold. -/
theorem serves_use {required : KeyAlgorithm} {check : Except CryptoError α}
    {f : α → PublicHandle → Action β} (hf : ∀ a k, (f a k).Neutral (2 ^ 35 ≤ k.info.bitSize))
    (hr : r.Carries (s.handle ::ₘ hs)) : s.Serves r hs (s.use required check f) := by
  unfold use
  cases requireAlgorithm s.algorithm required with
  | error err => exact .inl ⟨.error err, s, r, rfl, hr, .inl ⟨rfl, .refl r⟩⟩
  | ok u =>
    cases check with
    | error err => exact .inl ⟨.error err, s, r, rfl, hr, .inl ⟨rfl, .refl r⟩⟩
    | ok a =>
      -- past the checks the key is supplied first, and then used
      obtain ⟨result, s', r', hkey, hr', hbecomes, hsize⟩ := exists_key hr
      cases result with
      | error err => exact .inl ⟨.error err, s', r', bind_run_ok hkey, hr', hbecomes⟩
      | ok k =>
        rcases hf a k r' _ hr'.balanced with ⟨result, r'', hrun, hfollows, hbal⟩ |
          ⟨hlong, r'', hrun⟩
        · exact .inl ⟨result, s', r'', (bind_run_ok hkey).trans (bind_run_ok hrun),
            hr'.follow hfollows hbal, hbecomes.follow hfollows⟩
        · exact .inr ⟨hsize k rfl ▸ hlong, r'', (bind_run_ok hkey).trans (bind_run_error hrun)⟩

end PublicSource

/-- A request on a public key or certificate. -/
theorem PublicRequest.serves_run {s : PublicSource} (q : PublicRequest) (e : Entropy)
    (hr : r.Carries (s.handle ::ₘ hs)) : s.Serves r hs (q.run P s e) := by
  have hkey : s.Serves r hs s.publicKey := by
    obtain ⟨result, s', r', hrun, hr', hbecomes, -⟩ := PublicSource.exists_key hr
    exact .inl ⟨result, s', r', hrun, hr', hbecomes⟩
  cases q with
  | key => exact hkey.map fun _ _ => rfl
  | modulus => exact hkey.map fun _ _ => rfl
  | encrypt padding input =>
    exact (PublicSource.serves_use
      (fun _ k => neutral_encryptUnder P e padding k input) hr).map fun _ _ => rfl
  | verify scheme hash signature message =>
    exact (PublicSource.serves_use
      (fun a k => neutral_verify P e scheme a k signature message) hr).map fun _ _ => rfl

end Keyring
