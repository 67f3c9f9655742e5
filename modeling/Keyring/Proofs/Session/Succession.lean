import Keyring.Proofs.Key.Provenance
import Keyring.Proofs.Session.Contract
import Keyring.Proofs.Session.Ownership

/-!
# Where the handles of a session come from

A handle of a session was imported from something that is known, and may have been released or
have derived its key since.  Between these events its object stays what it was, so what holds of
a handle when it is imported, and is kept by deriving and releasing, holds over the whole
session.

## Main definitions

* `Request.Honest` — a request that loads only what was decoded.
* `Session.Runs` — the sessions that honest requests lead to.
* `Imported`, `Fresh` — a handle that has just been imported, or was so since.
* `Succeeds`, `Session.Precedes` — where the handles come from that a session has after a request.
* `Inherited` — what handles keep.

## Main results

* `Action.brings_importContainer` — what a container gives is fresh.
* `SessionM.ofPublic_cases`, `SessionM.ofPrivate_cases` — requests on keys.
* `Request.precedes_run` — **where the handles after a request come from.**
* `Session.Runs.inherit` — **what handles keep holds of every handle in every session.**
-/

namespace Keyring

open Registry

variable {α β : Type} {P : Provider} {r r' r'' : Registry} {s s' : Session} {h : Handle}
  {h' : Handle} {name : String} {e : Entropy}

/-! ### Honest requests -/

/-- What a source was parsed to before is known. -/
def Source.Honest (known : α → Prop) : Source α → Prop
  | parsed a => known a
  | _ => True

variable (P) in
/-- A request loads only what was decoded: nothing else can be told of a key or certificate. -/
def Request.Honest : Request → Prop
  | loadPrivate _ source _ => source.Honest (PrivateInfo.Known P)
  | loadPublic _ source => source.Honest (PublicInfo.Known P)
  | loadCertificate _ source => source.Honest (CertificateInfo.Known P)
  | loadContainer _ source _ => source.Honest (ContainerInfo.Known P)
  | _ => True

/-- What a source resolves to is known, if what parsers tell is. -/
theorem Source.known_of_resolve {known : α → Prop} {source : Source α}
    {parse : Bytes → Except Failure α} {a : α} (hhonest : source.Honest known)
    (hparse : ∀ b a, parse b = .ok a → known a) (h : source.resolve parse = .ok a) : known a := by
  cases source with
  | bytes b => exact hparse b a h
  | file content =>
    cases content with
    | none => cases h
    | some b => exact hparse b a h
  | parsed a' =>
    cases h
    exact hhonest

variable (P) in
/-- The sessions that honest requests lead to. -/
inductive Session.Runs : Session → Prop
  | start : Session.Runs {}
  | step {q : Request} {e : Entropy} {outcome : Outcome} {s s' : Session} :
    Session.Runs s → q.Honest P → q.run P e s = .ok outcome s' → Session.Runs s'

theorem Session.Runs.reaches (hs : Session.Runs P s) : Session.Reaches P s := by
  induction hs with
  | start => exact .start
  | step _ _ hrun ih => exact .step ih hrun

/-! ### Imports -/

variable (P) in
/-- A handle is imported from something that is known, between two registries. -/
inductive Imported : Registry → Registry → Handle → Prop
  | privateKey {i : PrivateInfo} {k : PrivateHandle} {r r' : Registry} : i.Known P →
    (importPrivate P i).run r = .ok (.ok k) r' → Imported r r' (.privateKey k)
  | publicKey {i : PublicInfo} {k : PublicHandle} {r r' : Registry} : i.Known P →
    (importPublic P i).run r = .ok (.ok k) r' → Imported r r' (.publicKey k)
  | certificate {i : CertificateInfo} {c : CertificateHandle} {r r' : Registry} : i.Known P →
    (importCertificate P i).run r = .ok (.ok c) r' → Imported r r' (.certificate c)

variable (P) in
/-- A handle was imported at some time between two registries. -/
def Fresh (r r' : Registry) (h : Handle) : Prop :=
  ∃ r₁ r₂, r.LeadsTo r₁ ∧ Imported P r₁ r₂ h ∧ r₁.LeadsTo r₂ ∧ r₂.Follows r'

theorem Fresh.before (hfresh : Fresh P r' r'' h) (hleads : r.LeadsTo r') : Fresh P r r'' h := by
  obtain ⟨r₁, r₂, hbefore, himport, hsound, hafter⟩ := hfresh
  exact ⟨r₁, r₂, hleads.trans hbefore, himport, hsound, hafter⟩

theorem Fresh.after (hfresh : Fresh P r r' h) (hfollows : r'.Follows r'') : Fresh P r r'' h := by
  obtain ⟨r₁, r₂, hbefore, himport, hsound, hafter⟩ := hfresh
  exact ⟨r₁, r₂, hbefore, himport, hsound, hafter.trans hfollows⟩

/-- Releasing a handle gives its objects back. -/
theorem Handle.release_eq_ok (hrelease : h.release r = .ok h' r') :
    h' = h.released ∧ r.releaseAll h.owns = .ok () r' := by
  obtain ⟨u, r₁, hforM, hrest⟩ := exists_of_bind_run hrelease
  cases hrest
  rw [Registry.forM_release] at hforM
  exact ⟨rfl, hforM⟩

theorem Registry.LeadsTo.of_releaseHandles {l : List Handle} (hr : r.Sound)
    (hrelease : releaseHandles l r = .ok () r') : r.LeadsTo r' := by
  induction l generalizing r with
  | nil =>
    cases hrelease
    exact .refl hr
  | cons h rest ih =>
    obtain ⟨h', r₁, hfirst, hrest⟩ := exists_of_bind_run hrelease
    have hleads := LeadsTo.of_releaseAll hr (Handle.release_eq_ok hfirst).2
    exact hleads.trans (ih hleads.sound hrest)

namespace Action

variable (P) in
/-- A call brings handles: what it gives was there before or is fresh. -/
def Brings (x : Action α) (pre : List Handle) (post : α → List Handle) : Prop :=
  ∀ r, r.Sound → ∀ result r', x.run r = .ok result r' →
    r.LeadsTo r' ∧ ∀ a, result = .ok a → ∀ h ∈ post a, h ∈ pre ∨ Fresh P r r' h

section Brings

variable {x : Action α} {f : α → Action β} {pre pre' : List Handle} {mid : α → List Handle}
  {post : β → List Handle}

theorem brings_pure (post : β → List Handle) (b : β) : Brings P (pure b) (post b) post := by
  intro r hr result r' hrun
  cases hrun
  refine ⟨.refl hr, fun a ha h hh => ?_⟩
  cases ha
  exact .inl hh

theorem brings_ofParsed (parsed : Except Failure α) :
    (ofParsed parsed).Brings P pre (fun _ => pre) := by
  intro r hr result r' hrun
  rcases parsed with (err | halt) | a <;> cases hrun
  · exact ⟨.refl hr, nofun⟩
  · exact ⟨.refl hr, fun _ _ h hh => .inl hh⟩

theorem ofParsed_eq_ok {parsed : Except Failure α} {a : α}
    (hrun : (ofParsed parsed).run r = .ok (.ok a) r') : parsed = .ok a := by
  rcases parsed with (err | halt) | a' <;> cases hrun
  rfl

theorem Brings.of_subset (hx : x.Brings P pre mid) (hsub : ∀ h ∈ pre, h ∈ pre') :
    x.Brings P pre' mid := by
  intro r hr result r' hrun
  obtain ⟨hleads, hmid⟩ := hx r hr result r' hrun
  exact ⟨hleads, fun a ha h hh => (hmid a ha h hh).imp_left (hsub h)⟩

theorem Brings.bind (hx : x.Brings P pre mid)
    (hf : ∀ a r r', x.run r = .ok (.ok a) r' → (f a).Brings P (mid a) post) :
    (x >>= f).Brings P pre post := by
  intro r hr result r'' hrun
  rcases run_bind_cases hrun with ⟨err, herror, rfl⟩ | ⟨a, r', hok, hrest⟩
  · obtain ⟨hleads, -⟩ := hx r hr _ r'' herror
    exact ⟨hleads, nofun⟩
  · obtain ⟨hleads, hmid⟩ := hx r hr _ r' hok
    obtain ⟨hleads', hpost⟩ := hf a r r' hok r' hleads.sound _ r'' hrest
    refine ⟨hleads.trans hleads', fun b hb h hh => ?_⟩
    -- a handle of the first step is fresh up to there, one of the second from there on
    rcases hpost b hb h hh with hh | hfresh
    · exact (hmid a rfl h hh).imp_right fun hfresh => hfresh.after hleads'.follows
    · exact .inr (hfresh.before hleads)

theorem Brings.frame (hx : x.Brings P pre mid) (kept : List Handle) :
    x.Brings P (pre ++ kept) (fun a => mid a ++ kept) := by
  intro r hr result r' hrun
  obtain ⟨hleads, hmid⟩ := hx r hr result r' hrun
  refine ⟨hleads, fun a ha h hh => ?_⟩
  rcases List.mem_append.mp hh with hh | hh
  · exact (hmid a ha h hh).imp_left fun hh => List.mem_append_left _ hh
  · exact .inl (List.mem_append_right _ hh)

/-- A call that fails may be followed by releases. -/
theorem Brings.onError (hx : x.Brings P pre mid) (l : List Handle) :
    (x.onError (releaseHandles l)).Brings P pre mid := by
  intro r hr result r'' hrun
  obtain ⟨answer, r', hanswer, hrest⟩ := exists_of_bind_run hrun
  obtain ⟨hleads, hmid⟩ := hx r hr _ r' hanswer
  cases answer with
  | ok a =>
    cases hrest
    exact ⟨hleads, hmid⟩
  | error err =>
    obtain ⟨u, r₁, hrelease, hrest⟩ := exists_of_bind_run hrest
    cases hrest
    exact ⟨hleads.trans (.of_releaseHandles hleads.sound hrelease), nofun⟩

/-- An import brings the handle that it imports. -/
theorem brings_import {handle : α → Handle}
    (hleads : ∀ r, r.Sound → ∀ result r', x.run r = .ok result r' → r.LeadsTo r')
    (himport : ∀ r a r', x.run r = .ok (.ok a) r' → Imported P r r' (handle a)) :
    x.Brings P [] fun a => [handle a] := by
  intro r hr result r' hrun
  have hafter := hleads r hr result r' hrun
  refine ⟨hafter, ?_⟩
  rintro a rfl h hh
  rw [List.mem_singleton.mp hh]
  exact .inr ⟨r, r', .refl hr, himport r a r' hrun, hafter, .refl r'⟩

/-- What may be missing is imported if it is there. -/
theorem brings_mapM {ι : Type} {f : ι → Action α} {handle : α → Handle} {i : Option ι}
    (hf : ∀ j, i = some j → (f j).Brings P [] fun a => [handle a]) :
    (i.mapM f).Brings P [] fun a => a.toList.map handle := by
  cases i with
  | none => exact brings_pure (fun a : Option α => a.toList.map handle) none
  | some j =>
    exact (hf j rfl).bind fun a _ _ _ =>
      brings_pure (fun a : Option α => a.toList.map handle) (some a)

end Brings

theorem brings_importPrivate {i : PrivateInfo} (hi : i.Known P) :
    (importPrivate P i).Brings P [] fun k => [.privateKey k] :=
  brings_import
    (fun _ hr _ _ hrun => leadsTo_of_check (fun _ _ _ h => leadsTo_of_create hr h) hr hrun)
    fun _ _ _ hrun => .privateKey hi hrun

theorem brings_importPublic {i : PublicInfo} (hi : i.Known P) :
    (importPublic P i).Brings P [] fun k => [.publicKey k] :=
  brings_import
    (fun _ hr _ _ hrun => leadsTo_of_check (fun _ _ _ h => leadsTo_of_create hr h) hr hrun)
    fun _ _ _ hrun => .publicKey hi hrun

theorem brings_importCertificate {i : CertificateInfo} (hi : i.Known P) :
    (importCertificate P i).Brings P [] fun c => [.certificate c] :=
  brings_import (fun _ hr _ _ hrun => leadsTo_of_create hr hrun)
    fun _ _ _ hrun => .certificate hi hrun

theorem brings_importCertificates (done : List CertificateHandle) {rest : List CertificateInfo}
    (hrest : ∀ i ∈ rest, i.Known P) :
    (importCertificates P done rest).Brings P (done.map .certificate)
      fun all => all.map .certificate := by
  induction rest generalizing done with
  | nil => exact brings_pure (fun all => all.map .certificate) done
  | cons i rest ih =>
    obtain ⟨hi, hrest⟩ := List.forall_mem_cons.mp hrest
    refine (((brings_importCertificate hi).frame (done.map .certificate)).onError _).bind
      fun c _ _ _ => (ih (done ++ [c]) hrest).of_subset fun h hh => ?_
    rw [List.map_append] at hh
    exact List.mem_append.mpr (List.mem_append.mp hh).symm

/-- **What a container gives is fresh.** -/
theorem brings_importContainer {i : ContainerInfo} (hi : i.Known P) :
    (importContainer P i).Brings P [] fun b => b.all := by
  refine (brings_mapM fun j hj =>
    brings_importPrivate (hi.privateKey j hj)).bind fun key _ _ _ => ?_
  refine (((brings_mapM fun j hj => brings_importCertificate (hi.certificate j hj)).frame
    (key.toList.map .privateKey)).onError _).bind fun certificate _ _ _ => ?_
  refine (((brings_importCertificates [] hi.others).frame
    (certificate.toList.map .certificate ++ key.toList.map .privateKey)).onError _).bind
      fun others _ _ _ => ?_
  refine (brings_pure Bundle.all ⟨key, certificate, others⟩).of_subset fun h hh => ?_
  simp only [Bundle.all, List.mem_append] at hh ⊢
  tauto

end Action

/-! ### Requests -/

namespace SessionM

open Session

theorem exists_registry {x : EStateM Halt Registry α} {a : α} (hrun : ofRegistry x s = .ok a s') :
    ∃ r', x s.registry = .ok a r' ∧ s' = { s with registry := r' } := by
  unfold ofRegistry at hrun
  split at hrun
  · next hx =>
    cases hrun
    exact ⟨_, hx, rfl⟩
  · cases hrun

theorem mem_set {p : String × Handle} (hp : p ∈ (s.set name h).handles) :
    p = (name, h) ∨ p ∈ s.handles :=
  (List.mem_cons.mp hp).imp_right List.mem_of_mem_filter

theorem leadsTo_of_assign (hr : s.registry.Sound) (hrun : assign name h s = .ok () s') :
    s.registry.LeadsTo s'.registry ∧ ∀ p ∈ s'.handles, p = (name, h) ∨ p ∈ s.handles := by
  obtain ⟨r', hrelease, rfl⟩ := exists_registry (s := s.set name h) hrun
  exact ⟨.of_releaseHandles hr hrelease, fun p hp => mem_set hp⟩

theorem leadsTo_of_assignAll {l : List (String × Handle)} (hr : s.registry.Sound)
    (hrun : assignAll l s = .ok () s') :
    s.registry.LeadsTo s'.registry ∧ ∀ p ∈ s'.handles, p ∈ l ∨ p ∈ s.handles := by
  induction l generalizing s with
  | nil =>
    cases hrun
    exact ⟨.refl hr, fun p hp => .inr hp⟩
  | cons q rest ih =>
    obtain ⟨u, s₁, hfirst, hrest⟩ := exists_of_bind_run hrun
    obtain ⟨hleads, hfrom⟩ := leadsTo_of_assign hr hfirst
    obtain ⟨hleads', hfrom'⟩ := ih hleads.sound hrest
    refine ⟨hleads.trans hleads', fun p hp => ?_⟩
    rcases hfrom' p hp with hp | hp
    · exact .inl (List.mem_cons_of_mem _ hp)
    · exact (hfrom p hp).imp_left fun hq => List.mem_cons.mpr (.inl hq)

/-- Something is loaded under a new name. -/
theorem load_new {call : Action α} {answer : α → Answer} {handle : α → Handle} {a : α}
    (hnew : ∀ p ∈ s.handles, p.1 ≠ name) (hrun : call.run s.registry = .ok (.ok a) r') :
    load call answer (fun a => [(name, handle a)]) s =
      .ok (.answer (answer a)) ⟨r', (name, handle a) :: s.handles⟩ := by
  have hnone : Session.find? { s with registry := r' } name = none :=
    List.lookup_eq_none_iff.mpr fun p hp => by simpa using (hnew p hp).symm
  -- nothing has the name, so nothing is taken out for it and nothing is released
  have hkeep : s.handles.filter (fun p => p.1 != name) = s.handles :=
    List.filter_eq_self.mpr fun p hp => bne_iff_ne.mpr (hnew p hp)
  have hassign : assign name (handle a) { s with registry := r' } =
      .ok () ⟨r', (name, handle a) :: s.handles⟩ := by
    refine (bind_run_ok rfl).trans ?_
    rw [hnone]
    refine (bind_run_ok rfl).trans ?_
    rw [← hkeep]
    simp only [Session.set, List.filter_filter, Bool.and_self]
    rfl
  exact (bind_run_ok (ofRegistry_eq_ok hrun)).trans (bind_run_ok ((bind_run_ok hassign).trans rfl))

/-- A request on a public key or certificate, if there is one of the name, is a call on it; what
has become of it is put back. -/
theorem ofPublic_cases {q : PublicRequest} {outcome : Outcome}
    (hrun : (Request.ofPublic name q).run P e s = .ok outcome s') :
    outcome = .unbound ∧ s' = s ∨ ∃ k k' r', s.find? name = some k.handle ∧
      q.run P k e s.registry = .ok (outcome, k') r' ∧
      s' = Session.set { s with registry := r' } name k'.handle := by
  rcases withHandle_cases hrun with hunbound | ⟨h, hfind, hrun⟩
  · exact .inl hunbound
  cases hsource : h.source? with
  | none =>
    rw [hsource] at hrun
    cases hrun
    exact .inl ⟨rfl, rfl⟩
  | some k =>
    rw [hsource] at hrun
    have hhandle : k.handle = h := by cases h <;> cases hsource <;> rfl
    obtain ⟨⟨outcome', k'⟩, s₁, hserved, hrest⟩ := exists_of_bind_run hrun
    obtain ⟨r', hcall, rfl⟩ := exists_registry hserved
    cases hrest
    exact .inr ⟨k, k', r', hhandle ▸ hfind, hcall, rfl⟩

/-- A request on a private key, if there is one of the name, is a call on it. -/
theorem ofPrivate_cases {q : PrivateRequest} {outcome : Outcome}
    (hrun : (Request.ofPrivate name q).run P e s = .ok outcome s') :
    outcome = .unbound ∧ s' = s ∨ ∃ k result r', s.find? name = some (.privateKey k) ∧
      (q.run P k e).run s.registry = .ok result r' ∧ outcome = .ofExcept .bytes result ∧
      s' = { s with registry := r' } := by
  rcases withHandle_cases hrun with hunbound | ⟨h, hfind, hrun⟩
  · exact .inl hunbound
  cases h with
  | publicKey k | certificate c =>
    cases hrun
    exact .inl ⟨rfl, rfl⟩
  | privateKey k =>
    obtain ⟨result, s₁, hserved, hrest⟩ := exists_of_bind_run hrun
    obtain ⟨r', hcall, rfl⟩ := exists_registry hserved
    cases hrest
    exact .inr ⟨k, result, r', hfind, hcall, rfl, rfl⟩

end SessionM

variable (P) in
/-- Where a handle comes from that a session has after a request: the session had it before, it
was released or has derived its key, or it is fresh. -/
inductive Succeeds (s : Session) (r' : Registry) : Handle → Prop
  | kept {p : String × Handle} : p ∈ s.handles → Succeeds s r' p.2
  | released {p : String × Handle} : p ∈ s.handles → Succeeds s r' p.2.released
  | derived {name : String} {c : CertificateHandle} {k : PublicHandle} {r₁ : Registry} :
    (name, .certificate c) ∈ s.handles → c.derive.run s.registry = .ok (.ok k) r₁ →
      r₁.Follows r' → Succeeds s r' (.certificate { c with derived := some k })
  | fresh {h : Handle} : Fresh P s.registry r' h → Succeeds s r' h

variable (P) in
/-- The handles of a session after a request, and its objects. -/
structure Session.Precedes (s s' : Session) : Prop where
  follows : s.registry.Follows s'.registry
  succeeds : ∀ p ∈ s'.handles, Succeeds P s s'.registry p.2

namespace Session.Precedes

open SessionM

theorem refl (s : Session) : s.Precedes P s := ⟨.refl _, fun _ hp => .kept hp⟩

/-- A handle is put back into a session, or another in its place. -/
theorem set {r' : Registry} (hfollows : s.registry.Follows r') (hh : Succeeds P s r' h) :
    s.Precedes P (Session.set { s with registry := r' } name h) := by
  refine ⟨hfollows, fun p hp => ?_⟩
  rcases mem_set hp with rfl | hp
  · exact hh
  · exact .kept hp

theorem of_load {call : Action α} {answer : α → Answer} {handles : α → List (String × Handle)}
    {outcome : Outcome} (hs : s.Owned) (hcall : call.Brings P [] fun a => (handles a).map Prod.snd)
    (hrun : load call answer handles s = .ok outcome s') : s.Precedes P s' := by
  obtain ⟨result, s₁, hload, hrest⟩ := exists_of_bind_run hrun
  obtain ⟨r₁, hcalled, rfl⟩ := exists_registry hload
  obtain ⟨hleads, hfresh⟩ := hcall _ hs.carries.balanced.sound _ _ hcalled
  cases result with
  | error err =>
    cases hrest
    exact ⟨hleads.follows, fun p hp => .kept hp⟩
  | ok a =>
    obtain ⟨u, s₂, hassign, hrest⟩ := exists_of_bind_run hrest
    cases hrest
    obtain ⟨hleads', hfrom⟩ := leadsTo_of_assignAll hleads.sound hassign
    refine ⟨hleads.follows.trans hleads'.follows, fun p hp => ?_⟩
    -- what has a name now got it from the call, or had it before
    rcases hfrom p hp with hp | hp
    · rcases hfresh a rfl p.2 (List.mem_map_of_mem hp) with hnil | hfresh
      · cases hnil
      · exact .fresh (hfresh.after hleads'.follows)
    · exact .kept hp

theorem of_release {e : Entropy} {outcome : Outcome}
    (hrun : (Request.release name).run P e s = .ok outcome s') : s.Precedes P s' := by
  rcases withHandle_cases hrun with ⟨-, rfl⟩ | ⟨h, hfind, hrun⟩
  · exact .refl _
  obtain ⟨h', s₁, hrelease, hrest⟩ := exists_of_bind_run hrun
  obtain ⟨r', hreleased, rfl⟩ := exists_registry hrelease
  obtain ⟨rfl, hgiven⟩ := Handle.release_eq_ok hreleased
  cases hrest
  exact set (follows_of_releaseAll hgiven) (.released (mem_of_find? hfind))

theorem of_drop {e : Entropy} {outcome : Outcome}
    (hrun : (Request.drop name).run P e s = .ok outcome s') : s.Precedes P s' := by
  rcases withHandle_cases hrun with ⟨-, rfl⟩ | ⟨h, hfind, hrun⟩
  · exact .refl _
  obtain ⟨h', s₁, hrelease, hrest⟩ := exists_of_bind_run hrun
  obtain ⟨r', hreleased, rfl⟩ := exists_registry hrelease
  obtain ⟨-, hgiven⟩ := Handle.release_eq_ok hreleased
  have hafter : s' = Session.erase { s with registry := r' } name := by
    cases hrest
    rfl
  subst hafter
  exact ⟨follows_of_releaseAll hgiven, fun p hp => .kept (List.mem_of_mem_filter hp)⟩

theorem of_ofPublic {q : PublicRequest} {e : Entropy} {outcome : Outcome} (hs : s.Owned)
    (hrun : (Request.ofPublic name q).run P e s = .ok outcome s') : s.Precedes P s' := by
  rcases ofPublic_cases hrun with ⟨-, rfl⟩ | ⟨k, k', r', hfind, hcall, rfl⟩
  · exact .refl _
  have hmem := mem_of_find? hfind
  rcases q.serves_run (P := P) e (hs.carries_erase hfind) with
    ⟨_, _, _, hcall', -, hbecomes⟩ | ⟨-, _, hcall'⟩
  · rw [hcall] at hcall'
    cases hcall'
    -- a certificate may have derived its key on the way; nothing else becomes of a handle
    rcases hbecomes with ⟨rfl, hfollows⟩ | ⟨c, key, r₁, rfl, -, hderive, rfl, hfollows⟩
    · exact set hfollows (.kept hmem)
    · have hbefore := CertificateHandle.leadsTo_of_derive hs.carries.balanced.sound hderive
      exact set (hbefore.follows.trans hfollows) (.derived hmem hderive hfollows)
  · rw [hcall] at hcall'
    cases hcall'

theorem of_ofPrivate {q : PrivateRequest} {e : Entropy} {outcome : Outcome} (hs : s.Owned)
    (hrun : (Request.ofPrivate name q).run P e s = .ok outcome s') : s.Precedes P s' := by
  rcases ofPrivate_cases hrun with ⟨-, rfl⟩ | ⟨k, result, r', -, hcall, -, rfl⟩
  · exact .refl _
  rcases q.neutral_run P e k _ _ hs.carries.balanced with ⟨_, _, hcall', hfollows, -⟩ |
    ⟨-, _, hcall'⟩
  · cases hcall.symm.trans hcall'
    exact ⟨hfollows, fun p hp => .kept hp⟩
  · cases hcall.symm.trans hcall'

end Session.Precedes

/-- **Where the handles after a request come from.** -/
theorem Request.precedes_run {q : Request} {outcome : Outcome} (hs : s.Owned)
    (hhonest : q.Honest P) (hrun : q.run P e s = .ok outcome s') : s.Precedes P s' := by
  cases q with
  | loadPrivate name source password =>
    refine .of_load hs ((Action.brings_ofParsed _).bind fun i _ _ hi =>
      Action.brings_importPrivate ?_) hrun
    exact Source.known_of_resolve hhonest (fun _ _ => known_of_parsePrivate)
      (Action.ofParsed_eq_ok hi)
  | loadPublic name source =>
    refine .of_load hs ((Action.brings_ofParsed _).bind fun i _ _ hi =>
      Action.brings_importPublic ?_) hrun
    exact Source.known_of_resolve hhonest (fun _ _ h => known_of_parsePublic (failing_eq_ok h))
      (Action.ofParsed_eq_ok hi)
  | loadCertificate name source =>
    refine .of_load hs ((Action.brings_ofParsed _).bind fun i _ _ hi =>
      Action.brings_importCertificate ?_) hrun
    exact Source.known_of_resolve hhonest (fun _ _ h => known_of_parseCertificate (failing_eq_ok h))
      (Action.ofParsed_eq_ok hi)
  | loadContainer name source password =>
    have hcontainer : ∀ i : ContainerInfo, i.Known P → (importContainer P i).Brings P []
        fun b => (b.handles name).map Prod.snd := by
      simpa only [Bundle.map_snd_handles] using fun i hi => Action.brings_importContainer hi
    refine .of_load hs ((Action.brings_ofParsed _).bind fun i _ _ hi => hcontainer i ?_) hrun
    exact Source.known_of_resolve hhonest (fun _ _ => known_of_parseContainer)
      (Action.ofParsed_eq_ok hi)
  | look name =>
    rcases SessionM.withHandle_cases hrun with ⟨-, rfl⟩ | ⟨h, -, hrun⟩
    · exact .refl _
    · cases hrun
      exact .refl _
  | release name => exact .of_release hrun
  | drop name => exact .of_drop hrun
  | ofPublic name q => exact .of_ofPublic hs hrun
  | ofPrivate name q => exact .of_ofPrivate hs hrun

/-! ### What handles keep -/

variable (P) in
/-- Something holds of a handle when it is imported, goes on to hold as long as the objects of
the handle are there, and is kept by deriving and releasing. -/
structure Inherited (I : Registry → Handle → Prop) : Prop where
  imported : ∀ r r' h, r.Sound → Imported P r r' h → I r' h
  follow : ∀ r r' h, r.Sound → r.Follows r' → (∀ x ∈ h.owns, ∃ o, r'.object x = .ok o) →
    I r h → I r' h
  released : ∀ r h, I r h → I r h.released
  derived : ∀ r r' c k, r.Sound → c.derive.run r = .ok (.ok k) r' → I r (.certificate c) →
    I r' (.certificate { c with derived := some k })

/-- **What handles keep holds of every handle in every session.** -/
theorem Session.Runs.inherit {I : Registry → Handle → Prop} (hI : Inherited P I)
    (hs : s.Runs P) : ∀ p ∈ s.handles, I s.registry p.2 := by
  induction hs with
  | start => nofun
  | @step q e outcome s s' hs hhonest hrun ih =>
    have hbefore := hs.reaches.owned.carries.balanced
    have hafter := (Session.Reaches.step hs.reaches hrun).owned.carries
    obtain ⟨hfollows, hsucceeds⟩ := Request.precedes_run hs.reaches.owned hhonest hrun
    -- whatever a handle owns is there
    have hthere : ∀ p ∈ s'.handles, ∀ x ∈ p.2.owns, ∃ o, s'.registry.object x = .ok o := by
      intro p hp x hx
      have howned : x ∈ ownedBy s'.all := Multiset.mem_of_le
        (owns_le_ownedBy (Multiset.mem_coe.mpr (List.mem_map_of_mem hp))) hx
      obtain ⟨e, he⟩ := hafter.balanced.exists_find?_of_mem howned
      exact ⟨_, object_of_find? he⟩
    intro p hp
    have hlive := hthere p hp
    have hfrom := hsucceeds p hp
    generalize p.2 = h at hlive hfrom
    cases hfrom with
    | kept hkept => exact hI.follow _ _ _ hbefore.sound hfollows hlive (ih _ hkept)
    | released hkept =>
      exact hI.follow _ _ _ hbefore.sound hfollows hlive (hI.released _ _ (ih _ hkept))
    | derived hkept hderive hfollows =>
      have hsound := (CertificateHandle.leadsTo_of_derive hbefore.sound hderive).sound
      exact hI.follow _ _ _ hsound hfollows hlive
        (hI.derived _ _ _ _ hbefore.sound hderive (ih _ hkept))
    | fresh hfresh =>
      obtain ⟨r₁, r₂, hleads, himport, hleads', hfollows⟩ := hfresh
      exact hI.follow _ _ _ hleads'.sound hfollows hlive (hI.imported _ _ _ hleads.sound himport)

end Keyring
