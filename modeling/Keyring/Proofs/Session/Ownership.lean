import Keyring.Proofs.Key.Failures
import Keyring.Proofs.Provider.Standard
import Keyring.Proofs.Session.Holdings

/-!
# Who owns what over a session

A session starts without handles and goes on request by request.  Between requests the objects
of the service are exactly what the handles of the session hold: one for every key and every
certificate that was not released, and one for every key that such a certificate has derived.
No request gives back what is not there, whatever it is asked and however it ends.

## Main definitions

* `Registry.inventory` — the objects there are, of which kind and with how many owners.
* `Session.holdings` — what the handles of a session hold.
* `Session.Reaches` — the sessions that requests lead to.
* `Session.Owned` — handles have names of their own, and hold exactly the objects there are.

## Main results

* `Session.Owned.run` — **a request keeps handles and objects in step.**
* `Session.Reaches.objects_exact` — **over any session, no object is lost or given back
  twice.**
-/

namespace Keyring

open Registry

variable {α : Type} {P : Provider} {r r' : Registry} {s s' : Session} {h : Handle}
  {hs hs' : Multiset Handle} {name : String} {e : Entropy}

/-! ### The objects there are -/

/-- The objects of a registry: under which reference, of which kind and with how many owners. -/
def Registry.inventory (r : Registry) : List (Ref × ObjectKind × Nat) :=
  r.entries.map fun p => (p.1, p.2.object.kind, p.2.count)

theorem mem_ownedBy {x : Ref} (hx : x ∈ ownedBy hs) :
    ∃ h ∈ hs, ∃ k, (x, k) ∈ h.holdings := by
  obtain ⟨h, hh, hx⟩ := Multiset.mem_bind.mp hx
  rw [Multiset.mem_coe, ← h.map_fst_holdings, List.mem_map] at hx
  obtain ⟨⟨x, k⟩, hp, rfl⟩ := hx
  exact ⟨h, hh, k, hp⟩

/-- No handle holds a transform. -/
theorem Handle.kind_ne_transform {p : Ref × ObjectKind} (hp : p ∈ h.holdings) :
    p.2 ≠ .transform := by
  cases h <;> simp only [holdings, List.mem_append, List.mem_map] at hp <;> grind

theorem NativeObject.retained_of_kind {o : NativeObject} (ho : o.kind ≠ .transform) :
    o.retained = [] := by
  cases o with
  | transform t => exact absurd rfl ho
  | _ => rfl

namespace Registry.Carries

/-- Between requests there are no transforms: nobody holds one, and nothing else could. -/
theorem retained_eq_nil (hr : r.Carries hs) {x : Ref} {o : NativeObject}
    (ho : r.object x = .ok o) : o.retained = [] := by
  by_contra hne
  obtain ⟨e, he, -⟩ := object_eq_ok_iff.mp ho
  have hzero := hr.balanced.shallow.holders_eq_zero hr.balanced.ordered ho hne
  rcases hr.balanced.exists_find?_iff.mp ⟨e, he⟩ with hx | hslot
  · obtain ⟨h, hh, k, hp⟩ := mem_ownedBy hx
    obtain ⟨o', ho', hkind⟩ := hr.kind_eq h hh _ hp
    rw [ho] at ho'
    cases ho'
    exact hne (NativeObject.retained_of_kind (hkind ▸ Handle.kind_ne_transform hp))
  · exact absurd hzero (Nat.ne_of_gt ((holders_pos_iff hr.balanced.ordered).mpr hslot))

theorem mem_ownedBy_of_find? (hr : r.Carries hs) {x : Ref} {e : Entry}
    (he : r.find? x = some e) : x ∈ ownedBy hs := by
  rcases hr.balanced.exists_find?_iff.mp ⟨e, he⟩ with hx | ⟨y, o, ho, hx⟩
  · exact hx
  · rw [hr.retained_eq_nil ho] at hx
    cases hx

/-- Every object has one owner. -/
theorem count_eq_one (hr : r.Carries hs) {x : Ref} {e : Entry} (he : r.find? x = some e) :
    e.count = 1 := by
  have hholders : r.holders x = 0 := by
    refine Nat.eq_zero_of_not_pos fun hpos => ?_
    obtain ⟨y, o, ho, hx⟩ := (holders_pos_iff hr.balanced.ordered).mp hpos
    rw [hr.retained_eq_nil ho] at hx
    cases hx
  rw [hr.balanced.count_of_find? he, hholders,
    Multiset.count_eq_one_of_mem hr.nodup (hr.mem_ownedBy_of_find? he)]

/-- A handle holds exactly what is there, of its kind. -/
theorem exists_holdings_iff (hr : r.Carries hs) {x : Ref} {k : ObjectKind} :
    (∃ h ∈ hs, (x, k) ∈ h.holdings) ↔ ∃ e, r.find? x = some e ∧ e.object.kind = k := by
  constructor
  · rintro ⟨h, hh, hp⟩
    obtain ⟨o, ho, hkind⟩ := hr.kind_eq h hh _ hp
    obtain ⟨e, he, rfl⟩ := object_eq_ok_iff.mp ho
    exact ⟨e, he, hkind⟩
  · rintro ⟨e, he, rfl⟩
    obtain ⟨h, hh, k, hp⟩ := mem_ownedBy (hr.mem_ownedBy_of_find? he)
    obtain ⟨o, ho, hkind⟩ := hr.kind_eq h hh _ hp
    rw [object_of_find? he] at ho
    cases ho
    exact ⟨h, hh, hkind ▸ hp⟩

/-- What handles hold is under references of its own. -/
theorem nodup_holdings {l : List Handle} (hr : r.Carries l) :
    ((l.flatMap Handle.holdings).map Prod.fst).Nodup := by
  have hrefs : (l.flatMap Handle.holdings).map Prod.fst = l.flatMap Handle.owns := by
    rw [List.map_flatMap]
    exact List.flatMap_congr fun h _ => h.map_fst_holdings
  have hheld := hr.nodup
  rwa [ownedBy, Multiset.coe_bind, Multiset.coe_nodup, ← hrefs] at hheld

/-- **The objects are what the handles hold**, each with one owner and of its kind. -/
theorem inventory_perm {l : List Handle} (hr : r.Carries l) :
    r.inventory.Perm ((l.flatMap Handle.holdings).map fun p => (p.1, p.2, 1)) := by
  have hthere : (r.entries.map Prod.fst).Nodup :=
    List.pairwise_map.mpr (hr.balanced.ordered.ascending.imp Nat.ne_of_lt)
  refine (List.perm_ext_iff_of_nodup ?_ ?_).mpr ?_
  · refine List.Nodup.of_map Prod.fst ?_
    rwa [inventory, List.map_map]
  · refine List.Nodup.of_map Prod.fst ?_
    rw [List.map_map]
    exact hr.nodup_holdings
  · rintro ⟨x, k, n⟩
    -- no entry is there twice on either side, so it is enough that both have the same ones
    have hiff := hr.exists_holdings_iff (x := x) (k := k)
    constructor
    · intro hmem
      obtain ⟨⟨x, e⟩, he, hp⟩ := List.mem_map.mp hmem
      cases hp
      have hfind := hr.balanced.ordered.find?_eq_some_iff.mpr he
      obtain ⟨h, hh, hp⟩ := hiff.mpr ⟨e, hfind, rfl⟩
      rw [hr.count_eq_one hfind]
      exact List.mem_map_of_mem (List.mem_flatMap.mpr ⟨h, hh, hp⟩)
    · intro hmem
      obtain ⟨⟨x, k⟩, hp, heq⟩ := List.mem_map.mp hmem
      cases heq
      obtain ⟨h, hh, hp⟩ := List.mem_flatMap.mp hp
      obtain ⟨e, hfind, rfl⟩ := hiff.mp ⟨h, hh, hp⟩
      rw [← hr.count_eq_one hfind]
      exact List.mem_map_of_mem (mem_of_find? hfind)

end Registry.Carries

/-- A handle that was released holds nothing. -/
theorem Registry.Carries.released (hr : r.Carries hs) (h : Handle) :
    r.Carries (h.released ::ₘ hs) := by
  have howns : h.released.owns = [] := by cases h <;> rfl
  have hholds : h.released.holdings = [] := by cases h <;> rfl
  have hcoherent : h.released.Coherent := by
    cases h with
    | certificate c => nofun
    | _ => trivial
  have howned : ownedBy (h.released ::ₘ hs) = ownedBy hs := by
    rw [ownedBy_cons, howns, Multiset.coe_nil, Multiset.zero_add]
  refine ⟨howned ▸ hr.balanced, howned ▸ hr.nodup,
    Multiset.forall_mem_cons.mpr ⟨fun p hp => ?_, hr.kind_eq⟩,
    Multiset.forall_mem_cons.mpr ⟨hcoherent, hr.coherent⟩⟩
  rw [hholds] at hp
  cases hp

/-- Without the certificate there is no key that was derived from it. -/
theorem Handle.Coherent.derived_eq_none {c : CertificateHandle}
    (hcoherent : (Handle.certificate c).Coherent) (hnone : c.ref = none) : c.derived = none := by
  refine Option.eq_none_iff_forall_ne_some.mpr fun k hk => ?_
  obtain ⟨⟨x, hx⟩, -⟩ := hcoherent k hk
  rw [hnone] at hx
  cases hx

/-- Nor does any other handle that is known to be released. -/
theorem Handle.Coherent.holdings_eq_nil (hcoherent : h.Coherent) (hreleased : h.isReleased = true) :
    h.holdings = [] := by
  cases h with
  | privateKey k | publicKey k =>
    have hnone : k.ref = none := Option.isNone_iff_eq_none.mp hreleased
    rw [holdings, hnone]
    rfl
  | certificate c =>
    have hnone : c.ref = none := Option.isNone_iff_eq_none.mp hreleased
    rw [holdings, hnone, hcoherent.derived_eq_none hnone]
    rfl

/-! ### The handles of a session -/

namespace Session

/-- The handles of a session, whatever they are called. -/
def all (s : Session) : Multiset Handle := (s.handles.map Prod.snd : List Handle)

/-- Handles have names of their own. -/
def Named (s : Session) : Prop := (s.handles.map Prod.fst).Nodup

/-- What the handles of a session hold. -/
def holdings (s : Session) : List (Ref × ObjectKind) := s.handles.flatMap fun p => p.2.holdings

theorem mem_of_find? (hfind : s.find? name = some h) : (name, h) ∈ s.handles := by
  obtain ⟨before, after, hhandles, -⟩ := List.lookup_eq_some_iff.mp hfind
  rw [hhandles]
  exact List.mem_append_right _ List.mem_cons_self

/-- A name is taken out of a session with its handle. -/
theorem Named.all_eq (hs : s.Named) (name : String) :
    s.all = ((s.find? name).toList : Multiset Handle) + (s.erase name).all := by
  have hkeep : ∀ l : List (String × Handle), (∀ p ∈ l, p.1 ≠ name) →
      l.filter (fun p => p.1 != name) = l := fun l hl =>
    List.filter_eq_self.mpr fun p hp => bne_iff_ne.mpr (hl p hp)
  cases hfind : s.find? name with
  | none =>
    have hnone := List.lookup_eq_none_iff.mp hfind
    rw [all, all, Session.erase, hkeep s.handles fun p hp => Ne.symm (by simpa using hnone p hp)]
    rfl
  | some h =>
    obtain ⟨before, after, hhandles, hbefore⟩ := List.lookup_eq_some_iff.mp hfind
    -- the name stands nowhere else
    have hafter : ∀ p ∈ after, p.1 ≠ name := by
      have hnamed := hs
      rw [Named, hhandles, List.map_append, List.map_cons] at hnamed
      have hnotin := (List.nodup_cons.mp hnamed.of_append_right).1
      exact fun p hp hname => hnotin (List.mem_map.mpr ⟨p, hp, hname⟩)
    have herase : (s.erase name).handles = before ++ after := by
      rw [Session.erase, hhandles, List.filter_append, List.filter_cons_of_neg (by simp),
        hkeep before fun p hp => Ne.symm (by simpa using hbefore p hp), hkeep after hafter]
    rw [all, all, herase, hhandles, List.map_append, List.map_append, List.map_cons]
    exact Multiset.coe_eq_coe.mpr List.perm_middle

theorem Named.erase (hs : s.Named) (name : String) : (s.erase name).Named :=
  hs.sublist (List.filter_sublist.map Prod.fst)

theorem Named.set (hs : s.Named) (name : String) (h : Handle) : (s.set name h).Named := by
  refine List.nodup_cons.mpr ⟨fun hmem => ?_, hs.erase name⟩
  obtain ⟨p, hp, hname⟩ := List.mem_map.mp hmem
  exact bne_iff_ne.mp (List.mem_filter.mp hp).2 hname

theorem all_set (s : Session) (name : String) (h : Handle) :
    (s.set name h).all = h ::ₘ (s.erase name).all := rfl

/-- Handles have names of their own, and hold exactly what is there. -/
structure Owned (s : Session) : Prop where
  named : s.Named
  carries : s.registry.Carries s.all

end Session

/-! ### Giving names -/

namespace SessionM

open Session

theorem ofRegistry_eq_ok {x : EStateM Halt Registry α} {a : α} (h : x s.registry = .ok a r') :
    ofRegistry x s = .ok a { s with registry := r' } := by
  rw [ofRegistry, h]

theorem ofRegistry_eq_error {x : EStateM Halt Registry α} {halt : Halt}
    (h : x s.registry = .error halt r') :
    ofRegistry x s = .error halt { s with registry := r' } := by
  rw [ofRegistry, h]

theorem withHandle_eq {f : Handle → SessionM Outcome} (hfind : s.find? name = some h) :
    withHandle name f s = f h s := by
  refine (bind_run_ok rfl).trans ?_
  rw [hfind]

variable (P) in
/-- A request on a public key or certificate is a call on it, and it is put back. -/
theorem ofPublic_eq {k : PublicSource} (q : PublicRequest) (e : Entropy)
    (hfind : s.find? name = some k.handle) : (Request.ofPublic name q).run P e s = (do
      let (outcome, k) ← ofRegistry (q.run P k e)
      modify (·.set name k.handle)
      return outcome : SessionM Outcome) s := by
  have hsource : k.handle.source? = some k := by cases k <;> rfl
  refine (withHandle_eq hfind).trans ?_
  rw [hsource]

/-- A handle gets a name, and the one that had it is released. -/
theorem exists_assign (name : String) (hs : s.Named)
    (hr : s.registry.Carries (h ::ₘ (hs' + s.all))) :
    ∃ s', assign name h s = .ok () s' ∧ s'.Named ∧ s'.registry.Carries (hs' + s'.all) := by
  have hall : h ::ₘ (hs' + s.all) =
      ((s.find? name).toList : Multiset Handle) + (hs' + (s.set name h).all) := by
    rw [hs.all_eq name, all_set, Multiset.add_cons, Multiset.add_cons, add_left_comm]
  -- the handle that had the name goes to the front, from where it is released
  rw [hall] at hr
  obtain ⟨r', hrelease, hr'⟩ := hr.releaseHandles
  exact ⟨{ s.set name h with registry := r' }, ofRegistry_eq_ok (s := s.set name h) hrelease,
    hs.set name h, hr'⟩

/-- Handles get names one after the other. -/
theorem exists_assignAll {l : List (String × Handle)} (hs : s.Named)
    (hr : s.registry.Carries ((l.map Prod.snd : List Handle) + s.all)) :
    ∃ s', assignAll l s = .ok () s' ∧ s'.Owned := by
  induction l generalizing s with
  | nil => exact ⟨s, rfl, hs, by simpa using hr⟩
  | cons p rest ih =>
    rw [List.map_cons, ← Multiset.cons_coe, Multiset.cons_add] at hr
    obtain ⟨s', hassign, hs', hr'⟩ := exists_assign p.1 hs hr
    obtain ⟨s'', hrest, hs''⟩ := ih hs' hr'
    exact ⟨s'', (bind_run_ok hassign).trans hrest, hs''⟩

/-- What is loaded gets its names. -/
theorem exists_load {call : Action α} {answer : α → Answer}
    {handles : α → List (String × Handle)} (hs : s.Owned)
    (hcall : call.Turns 0 (fun a => ((handles a).map Prod.snd : List Handle)) 0) :
    ∃ outcome s', load call answer handles s = .ok outcome s' ∧ s'.Owned := by
  obtain ⟨result, r', hrun, hr'⟩ := hcall s.registry s.all (by simpa using hs.carries)
  cases result with
  | error err =>
    rw [given, Multiset.zero_add] at hr'
    exact ⟨_, _, bind_run_ok (ofRegistry_eq_ok hrun), hs.named, hr'⟩
  | ok a =>
    obtain ⟨s', hassign, hs'⟩ := exists_assignAll (s := { s with registry := r' }) hs.named hr'
    exact ⟨_, s', (bind_run_ok (ofRegistry_eq_ok hrun)).trans (bind_run_ok hassign), hs'⟩

/-- Loading ends, unless the password cannot be given to the decoder; then nothing happens. -/
theorem exists_load_parsed {ι : Type} {parsed : Except Failure ι} {create : ι → Action α}
    {answer : α → Answer} {handles : α → List (String × Handle)} {password : Bytes}
    (hs : s.Owned)
    (hcreate : ∀ i, (create i).Turns 0 (fun a => ((handles a).map Prod.snd : List Handle)) 0)
    (hparse : ∀ halt, parsed = .error (.halt halt) → halt = .passwordWithZero ∧ 0 ∈ password) :
    (∃ outcome s', load (Action.ofParsed parsed >>= create) answer handles s = .ok outcome s' ∧
      s'.Owned) ∨
    0 ∈ password ∧
      load (Action.ofParsed parsed >>= create) answer handles s = .error .passwordWithZero s := by
  rcases parsed with (err | halt) | i
  · exact .inl (exists_load hs ((Action.turns_ofExcept (.error err)).bind hcreate))
  · obtain ⟨rfl, hzero⟩ := hparse halt rfl
    exact .inr ⟨hzero, bind_run_error (ofRegistry_eq_error rfl)⟩
  · exact .inl (exists_load hs ((Action.turns_pure (fun _ => 0) i).bind hcreate))

end SessionM

/-! ### Requests -/

/-- Only parsing is abandoned. -/
theorem Source.exists_of_resolve_halt {source : Source α} {parse : Bytes → Except Failure α}
    {halt : Halt} (h : source.resolve parse = .error (.halt halt)) :
    ∃ b, parse b = .error (.halt halt) := by
  rcases source with b | (_ | b) | a
  · exact ⟨b, h⟩
  · cases h
  · exact ⟨b, h⟩
  · cases h

/-- What becomes of a call on the handles of a session: it comes to its end, and the handles hold
what is there, unless a modulus is excessively long. -/
def SessionM.Settles (x : SessionM Outcome) (s : Session) : Prop :=
  (∃ outcome s', x s = .ok outcome s' ∧ s'.Owned) ∨
    (∃ p ∈ s.handles, 2 ^ 35 ≤ p.2.bitSize) ∧ ∃ s', x s = .error .sizeOverflow s'

namespace Session.Owned

open SessionM

/-- A handle is put back into a session, or another in its place. -/
theorem set (hs : s.Owned) (hr : r.Carries (h ::ₘ (s.erase name).all)) :
    Owned (Session.set { s with registry := r } name h) := ⟨hs.named.set name h, hr⟩

/-- A handle is taken out of a session, with the objects that are its own. -/
theorem carries_erase (hs : s.Owned) (hfind : s.find? name = some h) :
    s.registry.Carries (h ::ₘ (s.erase name).all) := by
  have hall := hs.carries
  rwa [hs.named.all_eq name, hfind] at hall

/-- For a call on a handle it is taken out of the session. -/
theorem settles_withHandle {f : Handle → SessionM Outcome} (hs : s.Owned)
    (hf : ∀ h, (name, h) ∈ s.handles → s.registry.Carries (h ::ₘ (s.erase name).all) →
      (f h).Settles s) : (withHandle name f).Settles s := by
  cases hfind : s.find? name with
  | none =>
    refine .inl ⟨.unbound, s, ?_, hs⟩
    refine (bind_run_ok rfl).trans ?_
    rw [hfind]
    rfl
  | some h =>
    rw [SessionM.Settles, withHandle_eq hfind]
    exact hf h (mem_of_find? hfind) (hs.carries_erase hfind)

theorem settles_look (hs : s.Owned) (e : Entropy) : ((Request.look name).run P e).Settles s :=
  hs.settles_withHandle fun _ _ _ => .inl ⟨_, s, rfl, hs⟩

theorem settles_release (hs : s.Owned) (e : Entropy) :
    ((Request.release name).run P e).Settles s := by
  refine hs.settles_withHandle fun h _ hr => ?_
  obtain ⟨r', hrelease, hr'⟩ := hr.release
  exact .inl ⟨.answer .done, _, bind_run_ok (ofRegistry_eq_ok hrelease), hs.set (hr'.released h)⟩

theorem settles_drop (hs : s.Owned) (e : Entropy) :
    ((Request.drop name).run P e).Settles s := by
  refine hs.settles_withHandle fun h _ hr => ?_
  obtain ⟨r', hrelease, hr'⟩ := hr.release
  exact .inl ⟨.answer .done, _, bind_run_ok (ofRegistry_eq_ok hrelease), hs.named.erase name, hr'⟩

theorem settles_ofPublic (hs : s.Owned) (q : PublicRequest) (e : Entropy) :
    ((Request.ofPublic name q).run P e).Settles s := by
  refine hs.settles_withHandle fun h hmem hr => ?_
  cases hsource : h.source? with
  | none => exact .inl ⟨.unbound, s, rfl, hs⟩
  | some k =>
    have hhandle : k.handle = h := by cases h <;> cases hsource <;> rfl
    subst hhandle
    -- the request may have derived a key, so what is put back is not what was taken out
    rcases q.serves_run (P := P) e hr with ⟨outcome, k', r', hrun, hr', -⟩ | ⟨hlong, r', hrun⟩
    · exact .inl ⟨outcome, _, bind_run_ok (ofRegistry_eq_ok hrun), hs.set hr'⟩
    · exact .inr ⟨⟨_, hmem, hlong⟩, _, bind_run_error (ofRegistry_eq_error hrun)⟩

theorem settles_ofPrivate (hs : s.Owned) (q : PrivateRequest) (e : Entropy) :
    ((Request.ofPrivate name q).run P e).Settles s := by
  refine hs.settles_withHandle fun h hmem hr => ?_
  cases h with
  | privateKey k =>
    rcases q.neutral_run P e k _ _ hs.carries.balanced with ⟨result, r', hrun, hfollows, hbal⟩ |
      ⟨hlong, r', hrun⟩
    · exact .inl ⟨.ofExcept .bytes result, _, bind_run_ok (ofRegistry_eq_ok hrun), hs.named,
        hs.carries.follow hfollows hbal⟩
    · exact .inr ⟨⟨_, hmem, hlong⟩, _, bind_run_error (ofRegistry_eq_error hrun)⟩
  | publicKey k => exact .inl ⟨.unbound, s, rfl, hs⟩
  | certificate c => exact .inl ⟨.unbound, s, rfl, hs⟩

end Session.Owned

/-- The password of a request. -/
def Request.password : Request → Bytes
  | loadPrivate _ _ password => password.getD []
  | loadContainer _ _ password => password.getD []
  | _ => []

theorem Bundle.map_snd_handles (b : Bundle) (name : String) :
    (b.handles name).map Prod.snd = b.all := by
  have hothers : (b.others.mapIdx fun i c =>
      (name ++ ".extra" ++ toString i, Handle.certificate c)).map Prod.snd =
        b.others.map Handle.certificate :=
    List.ext_getElem (by simp) fun i _ _ => by simp
  rw [handles, all, List.map_append, List.map_append, List.map_map, List.map_map, hothers]
  rfl

/-- **A request keeps handles and objects in step.**  It comes to its end, unless it is abandoned
for a password that decoders cannot be given, before anything has happened, or for an excessively
long modulus. -/
theorem Session.Owned.run (hs : s.Owned) (q : Request) (e : Entropy) :
    (q.run P e).Settles s ∨ 0 ∈ q.password ∧ q.run P e s = .error .passwordWithZero s := by
  cases q with
  | loadPrivate name source password =>
    refine (SessionM.exists_load_parsed hs (turns_importPrivate P) fun halt h => ?_).imp_left .inl
    obtain ⟨b, hb⟩ := Source.exists_of_resolve_halt h
    exact parsePrivate_eq_halt_iff.mp hb
  | loadPublic name source =>
    refine (SessionM.exists_load_parsed hs (turns_importPublic P) fun halt h => ?_).imp_left .inl
    obtain ⟨b, hb⟩ := Source.exists_of_resolve_halt h
    exact absurd hb failing_ne_halt
  | loadCertificate name source =>
    refine (SessionM.exists_load_parsed hs (turns_importCertificate P) fun halt h => ?_).imp_left
      .inl
    obtain ⟨b, hb⟩ := Source.exists_of_resolve_halt h
    exact absurd hb failing_ne_halt
  | loadContainer name source password =>
    have hcontainer : ∀ i, (importContainer P i).Turns 0
        (fun b => ((b.handles name).map Prod.snd : List Handle)) 0 := by
      simpa only [Bundle.map_snd_handles] using turns_importContainer P
    refine (SessionM.exists_load_parsed hs hcontainer fun halt h => ?_).imp_left .inl
    obtain ⟨b, hb⟩ := Source.exists_of_resolve_halt h
    exact (parseContainer_eq_halt_iff.mp hb).imp_right fun hpassword => hpassword.2.2
  | look name => exact .inl (hs.settles_look e)
  | release name => exact .inl (hs.settles_release e)
  | drop name => exact .inl (hs.settles_drop e)
  | ofPublic name q => exact .inl (hs.settles_ofPublic q e)
  | ofPrivate name q => exact .inl (hs.settles_ofPrivate q e)

/-! ### Over a session -/

namespace Session

/-- The sessions that requests lead to. -/
inductive Reaches (P : Provider) : Session → Prop
  | start : Reaches P {}
  | step {q : Request} {e : Entropy} {outcome : Outcome} {s s' : Session} :
    Reaches P s → q.run P e s = .ok outcome s' → Reaches P s'

theorem Owned.empty : Owned {} := ⟨List.nodup_nil, .empty⟩

/-- Between requests the handles hold exactly what is there. -/
theorem Reaches.owned (hs : Reaches P s) : s.Owned := by
  induction hs with
  | start => exact .empty
  | @step q e outcome s s' _ hrun ih =>
    rcases ih.run (P := P) q e with (⟨outcome', s'', hrun', hs''⟩ | ⟨-, s'', hrun'⟩) | ⟨-, hrun'⟩
    · rw [hrun] at hrun'
      cases hrun'
      exact hs''
    · rw [hrun] at hrun'
      cases hrun'
    · rw [hrun] at hrun'
      cases hrun'

/-- All handles of a session can be dropped, and nothing is left. -/
theorem Owned.close (hs : s.Owned) :
    ∃ s', Session.close s = .ok () s' ∧ s'.handles = [] ∧ s'.registry.entries = [] := by
  have hall : s.registry.Carries ((s.handles.map Prod.snd : List Handle) + 0) := by
    rw [Multiset.add_zero]
    exact hs.carries
  obtain ⟨r', hrelease, hr'⟩ := hall.releaseHandles
  exact ⟨⟨r', []⟩, (bind_run_ok rfl).trans (bind_run_ok (SessionM.ofRegistry_eq_ok hrelease)), rfl,
    hr'.balanced.entries_eq_nil⟩

/-- **Over any session, no object is lost and none is given back twice.**  Between requests the
objects of the service are exactly what the handles hold, each under a reference of its own, with
one owner and of the kind that goes with the handle; a key that was cached is held with the
certificate it was derived from, which was not released.  No request meets a reference that is not
there: it comes to its end, unless it is abandoned for a password that decoders cannot be given,
before anything has happened, or for an excessively long modulus.  Once all handles are released
there are no objects, and dropping all handles leaves none. -/
theorem Reaches.objects_exact (hs : Reaches P s) :
    s.registry.inventory.Perm (s.holdings.map fun p => (p.1, p.2, 1)) ∧
    (s.holdings.map Prod.fst).Nodup ∧
    (∀ p ∈ s.handles, p.2.Coherent) ∧
    (∀ (q : Request) (e : Entropy), (∃ outcome s', q.run P e s = .ok outcome s') ∨
      (0 ∈ q.password ∧ q.run P e s = .error .passwordWithZero s) ∨
      (∃ p ∈ s.handles, 2 ^ 35 ≤ p.2.bitSize) ∧ ∃ s', q.run P e s = .error .sizeOverflow s') ∧
    ((∀ p ∈ s.handles, p.2.isReleased = true) → s.registry.entries = []) ∧
    ∃ s', Session.close s = .ok () s' ∧ s'.handles = [] ∧ s'.registry.entries = [] := by
  have howned := hs.owned
  have hcarries : s.registry.Carries (s.handles.map Prod.snd : List Handle) := howned.carries
  have hholdings : s.holdings = (s.handles.map Prod.snd).flatMap Handle.holdings :=
    (List.flatMap_map ..).symm
  have hinventory := hcarries.inventory_perm
  have hnodup := hcarries.nodup_holdings
  rw [← hholdings] at hinventory hnodup
  refine ⟨hinventory, hnodup, ?_, ?_, ?_, howned.close⟩
  · exact fun p hp => howned.carries.coherent _ (List.mem_map_of_mem hp)
  · intro q e
    rcases howned.run (P := P) q e with (⟨outcome, s', hrun, -⟩ | hlong) | hzero
    · exact .inl ⟨outcome, s', hrun⟩
    · exact .inr (.inr hlong)
    · exact .inr (.inl hzero)
  · intro hreleased
    -- a handle that is known to be released holds nothing, derived keys included
    have hnil : s.holdings = [] := List.flatMap_eq_nil_iff.mpr fun p hp =>
      (howned.carries.coherent p.2 (List.mem_map_of_mem hp)).holdings_eq_nil (hreleased p hp)
    rw [hnil] at hinventory
    exact List.map_eq_nil_iff.mp (List.perm_nil.mp hinventory)

/-- A session in which a public key was loaded has one object, and dropping the key leaves none. -/
theorem objects_exact_loaded : ∃ s k, Reaches .standard s ∧
    s.handles = [("p", .publicKey k)] ∧
    s.registry.inventory.Perm (s.holdings.map fun p => (p.1, p.2, 1)) ∧
    s.holdings.length = 1 ∧
    ∃ s', Session.close s = .ok () s' ∧ s'.handles = [] ∧ s'.registry.entries = [] := by
  obtain ⟨i, k, r, -, hload, -, hk⟩ := exists_loadPublic_mersenneKey
  have hrun : (Request.loadPublic "p" (.parsed i)).run .standard (fun _ => 0) {} =
      .ok (.answer (.handle (.publicKey k))) ⟨r, [("p", .publicKey k)]⟩ :=
    bind_run_ok (SessionM.ofRegistry_eq_ok (s := {}) hload)
  have hreaches : Reaches .standard ⟨r, [("p", .publicKey k)]⟩ := .step .start hrun
  obtain ⟨hinventory, -, -, -, -, hclose⟩ := hreaches.objects_exact
  obtain ⟨x, -, hx, -⟩ := hk.object
  refine ⟨_, k, hreaches, rfl, hinventory, ?_, hclose⟩
  simp [holdings, Handle.holdings, hx]

end Session

end Keyring
