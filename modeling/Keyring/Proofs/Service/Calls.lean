import Keyring.Proofs.Service.Transforms
import Keyring.Provider.Standard
import Keyring.Service.Call

/-!
# Reference counts over calls of the service

A history of the service starts without objects and goes on call by call.  What callers
own is counted along: a call that answers with a reference gives one ownership, giving a
reference back takes one.  If callers only give back what they own, the registry stays
balanced against what they own, whatever else they call and whether or not it succeeds.

## Main definitions

* `Call.gives`, `Reply.owns` — the ownership that a call takes, and the one it leaves.
* `Service.Keeps` — a call keeps the balance.
* `Service.AddsLeaf` — a call adds an object without slots.
* `Service.Reaches` — the registries that histories lead to, with what callers own.

## Main results

* `Call.keeps` — **every call keeps the balance.**
* `Service.Reaches.counts_exact` — **over any history, reference counts are exact.**
-/

namespace Keyring

open Registry

variable {P : Provider} {r : Registry} {x y : Ref} {owned : Multiset Ref}

/-- The ownership that a call gives up. -/
def Call.gives : Call → Multiset Ref
  | release x => {x}
  | _ => 0

/-- The ownership that a caller has from an answer. -/
def Reply.owns : Except ServiceError Reply → Multiset Ref
  | .ok (.ref x) => {x}
  | _ => 0

namespace Service

/-! ### What is looked up has no slots -/

/-- A new transform holds on to a key and maybe a byte string. -/
theorem isLeaf_of_newTransform {kind : TransformKind} {key : Ref} {s : Option Ref} {t : Transform}
    (h : newTransform r kind key s = .ok t) : ∀ y ∈ t.retained, r.IsLeaf y := by
  obtain ⟨rfl, ⟨k, hk⟩, hsignature⟩ := newTransform_eq_ok h
  intro y hy
  rw [Transform.retained, List.mem_cons] at hy
  rcases hy with rfl | hy
  · exact ⟨_, hk, rfl⟩
  · obtain ⟨b, hb⟩ := hsignature y (by simpa [Transform.fresh] using hy)
    exact ⟨_, hb, rfl⟩

/-- What a setting names has no slots. -/
theorem isLeaf_of_named {a : Attribute} (h : a.Named r) : ∀ y ∈ a.ref?.toList, r.IsLeaf y := by
  intro y hy
  cases a with
  | digestType family => simp [Attribute.ref?] at hy
  | padding padding => simp [Attribute.ref?] at hy
  | digestLength number =>
    obtain ⟨v, hv⟩ := h
    cases Option.mem_toList.mp hy
    exact ⟨_, hv, rfl⟩
  | input data =>
    obtain ⟨b, hb⟩ := h
    cases Option.mem_toList.mp hy
    exact ⟨_, hb, rfl⟩

/-- What a slot names is exchanged for what it named before. -/
theorem perm_slot (front old new back : List Ref) :
    (old ++ (front ++ new ++ back)).Perm (new ++ (front ++ old ++ back)) := by
  refine List.perm_iff_count.mpr fun z => ?_
  simp only [List.count_append]
  omega

/-- What a transform gains by a setting, and what it loses, is what its slots change by. -/
theorem perm_assign (t : Transform) (a : Attribute) :
    ((t.slot a).toList ++ (t.assign a).retained).Perm (a.ref?.toList ++ t.retained) := by
  cases a with
  | digestType family => exact List.Perm.refl _
  | padding padding => exact List.Perm.refl _
  | digestLength number =>
    exact perm_slot (t.key :: t.signature.toList) t.digestLength.toList [number] t.input.toList
  | input data =>
    have hswap := perm_slot (t.key :: (t.signature.toList ++ t.digestLength.toList))
      t.input.toList [data] []
    rwa [List.append_nil, List.append_nil] at hswap

/-- What a transform holds on to after a setting it held on to before, or the setting names it. -/
theorem mem_retained_assign {t : Transform} {a : Attribute} (h : y ∈ (t.assign a).retained) :
    y ∈ a.ref?.toList ∨ y ∈ t.retained :=
  List.mem_append.mp ((perm_assign t a).mem_iff.mp (List.mem_append_right _ h))

/-! ### One call -/

/-- A call keeps the balance: it ends, and callers own what they owned besides what they
gave up for it, and what it answers with. -/
def Keeps (s : Service Reply) (given : Multiset Ref) : Prop :=
  ∀ r owned, r.Balanced (given + owned) →
    ∃ reply r', s r = .ok reply r' ∧ r'.Balanced (owned + Reply.owns reply)

theorem reply_eq_ok {α : Type} {f : α → Reply} {s : Service α} {a : Except ServiceError α}
    {r' : Registry} (h : s r = .ok a r') : s.reply f r = .ok (a.map f) r' := by
  rw [reply, EStateM.map, h]

/-- A call that fails changes nothing. -/
theorem balanced_of_error {α : Type} {s : Service α} {e : ServiceError} (f : α → Reply)
    (hcall : s r = .ok (.error e) r) (hr : r.Balanced owned) :
    ∃ reply r', s.reply f r = .ok reply r' ∧ r'.Balanced (owned + Reply.owns reply) := by
  refine ⟨.error e, r, reply_eq_ok hcall, ?_⟩
  show r.Balanced (owned + 0)
  rwa [Multiset.add_zero]

/-- A call that answers with a reference hands out an ownership of it. -/
theorem balanced_of_ref {s : Service Ref} {r' : Registry} (hcall : s r = .ok (.ok x) r')
    (hr : r'.Balanced (x ::ₘ owned)) :
    ∃ reply r', s.reply .ref r = .ok reply r' ∧ r'.Balanced (owned + Reply.owns reply) := by
  refine ⟨.ok (.ref x), r', reply_eq_ok hcall, ?_⟩
  rwa [Reply.owns, Multiset.add_comm, Multiset.singleton_add]

theorem keeps_query {α : Type} (f : Registry → Except ServiceError α) {g : α → Reply}
    (hg : ∀ a, Reply.owns (.ok (g a)) = 0) : Keeps ((query f).reply g) 0 := by
  intro r owned hr
  refine ⟨_, r, reply_eq_ok rfl, ?_⟩
  have howns : Reply.owns ((f r).map g) = 0 := by
    cases f r with
    | error e => rfl
    | ok a => exact hg a
  rw [howns]
  simpa using hr

/-- A call adds an object without slots, if it can be made. -/
def AddsLeaf (s : Service Ref) : Prop :=
  ∃ f, s = create f ∧ ∀ r o, f r = .ok o → o.retained = []

theorem addsLeaf_certificateCreate (b : Bytes) : AddsLeaf (certificateCreate P b) := by
  refine ⟨_, rfl, fun r o h => ?_⟩
  obtain ⟨c, -, rfl⟩ := map_eq_ok_iff.mp h
  rfl

theorem addsLeaf_certificateCopyPublicKey (x : Ref) : AddsLeaf (certificateCopyPublicKey x) := by
  refine ⟨_, rfl, fun r o h => ?_⟩
  obtain ⟨c, -, h⟩ := bind_eq_ok_iff.mp h
  obtain ⟨k, -, h⟩ := bind_eq_ok_iff.mp h
  cases h
  rfl

theorem addsLeaf_keyCreate (a : KeyAttributes) (b : Bytes) : AddsLeaf (keyCreate P a b) := by
  refine ⟨_, rfl, fun r o h => ?_⟩
  obtain ⟨m, -, h⟩ := bind_eq_ok_iff.mp h
  split at h
  · cases h
    rfl
  · cases h

theorem addsLeaf_dataCreate (b : Bytes) : AddsLeaf (dataCreate b) :=
  ⟨_, rfl, fun r o h => by cases h; rfl⟩

theorem addsLeaf_numberCreate (v : Int) : AddsLeaf (numberCreate v) :=
  ⟨_, rfl, fun r o h => by cases h; rfl⟩

/-- What a transform puts out has no slots. -/
theorem retained_of_run {c : Captured} {e : Entropy} {o : NativeObject} (h : c.run P e = .ok o) :
    o.retained = [] := by
  unfold Captured.run at h
  split at h
  · obtain ⟨b, -, rfl⟩ := map_eq_ok_iff.mp h
    rfl
  · obtain ⟨b, -, rfl⟩ := map_eq_ok_iff.mp h
    rfl
  · obtain ⟨a, -, h⟩ := bind_eq_ok_iff.mp h
    obtain ⟨b, -, h⟩ := bind_eq_ok_iff.mp h
    cases h
    rfl
  · obtain ⟨a, -, h⟩ := bind_eq_ok_iff.mp h
    obtain ⟨s, -, h⟩ := bind_eq_ok_iff.mp h
    obtain ⟨v, -, h⟩ := bind_eq_ok_iff.mp h
    cases h
    rfl

theorem addsLeaf_transformExecute (x : Ref) (e : Entropy) :
    AddsLeaf (transformExecute P x e) := by
  refine ⟨_, rfl, fun r o h => ?_⟩
  obtain ⟨c, -, h⟩ := bind_eq_ok_iff.mp h
  exact retained_of_run h

theorem AddsLeaf.keeps {s : Service Ref} (hs : AddsLeaf s) : Keeps (s.reply .ref) 0 := by
  obtain ⟨f, rfl, hf⟩ := hs
  intro r owned hr
  rw [Multiset.zero_add] at hr
  cases ho : f r with
  | error e => exact balanced_of_error .ref (create_error ho) hr
  | ok o =>
    have hnil := hf r o ho
    have hheld : r.Balanced (o.retained + owned) := by simpa [hnil] using hr
    exact balanced_of_ref (create_ok ho) (hheld.insert (by simp [hnil]))

/-- A new transform takes the ownerships that its key and its signature were given for it. -/
theorem keeps_transformCreate (kind : TransformKind) (x : Ref) (s : Option Ref) :
    Keeps ((transformCreate kind x s).reply .ref) 0 := by
  intro r owned hr
  rw [Multiset.zero_add] at hr
  cases ht : newTransform r kind x s with
  | error e => exact balanced_of_error .ref (transformCreate_error ht) hr
  | ok t =>
    -- its slots are counted first, as ownerships that go over to it
    have hleaf := isLeaf_of_newTransform ht
    have hheld := hr.retainAll fun y hy => ⟨_, (hleaf y hy).choose_spec.1⟩
    refine balanced_of_ref (transformCreate_ok ht)
      (Balanced.insert (o := .transform t) hheld fun y hy => ?_)
    rw [IsLeaf, object_retainAll]
    exact hleaf y hy

/-- A setting of a transform takes an ownership for what it names and gives back that of
what it named before, also if both are the same. -/
theorem keeps_transformSet (x : Ref) (a : Attribute) :
    Keeps ((transformSet x a).reply fun _ => .done) 0 := by
  intro r owned hr
  rw [Multiset.zero_add] at hr
  cases hs : setting r x a with
  | error e => exact balanced_of_error _ (transformSet_error hs) hr
  | ok s =>
    obtain ⟨t, ht, rfl, hnamed⟩ := setting_eq_ok hs
    have hleaf := isLeaf_of_named hnamed
    have hswap := perm_assign t a
    have hheld := hr.retainAll fun y hy => ⟨_, (hleaf y hy).choose_spec.1⟩
    have htheld : (a.ref?.toList.foldl Registry.retain r).object x = .ok (.transform t) := by
      rw [object_retainAll, ht]
    obtain ⟨e, he, heo⟩ := object_eq_ok_iff.mp htheld
    have hslots : ∀ y ∈ (t.assign a).retained,
        (a.ref?.toList.foldl Registry.retain r).IsLeaf y := by
      intro y hy
      rcases mem_retained_assign hy with hy | hy
      · rw [IsLeaf, object_retainAll]
        exact hleaf y hy
      · exact hheld.shallow x _ htheld y hy
    have hreplace := hheld.replace (o := .transform (t.assign a)) he
      (by rw [heo]; exact List.cons_ne_nil _ _) hslots (by rw [heo]; exact hswap)
    obtain ⟨r', hr', hbal⟩ := hreplace.releaseAll
    have hcall : transformSet x a r = .ok (.ok ()) r' := by simp only [transformSet, hs, hr']
    exact ⟨.ok .done, r', reply_eq_ok hcall, by simpa [Reply.owns] using hbal⟩

theorem keeps_release (x : Ref) :
    Keeps (EStateM.map (fun _ => .ok .done) (Service.release x)) {x} := by
  intro r owned hr
  have hone : r.Balanced (([x] : List Ref) + owned) := hr
  obtain ⟨r', hr', hbal⟩ := hone.releaseAll
  refine ⟨.ok .done, r', ?_, by simpa [Reply.owns] using hbal⟩
  rw [EStateM.map, Service.release, hr']

end Service

theorem Call.make_release {e : Entropy} {r' : Registry} (h : r.releaseAll [x] = .ok () r') :
    (release x).make P e r = .ok (.ok .done) r' := by
  rw [make, EStateM.map, Service.release, h]

/-- **Every call keeps the balance**, whatever its arguments and whether or not it
succeeds. -/
theorem Call.keeps (c : Call) (e : Entropy) : Service.Keeps (c.make P e) c.gives := by
  cases c with
  | certificateCreate b => exact (Service.addsLeaf_certificateCreate b).keeps
  | certificateCopyPublicKey x => exact (Service.addsLeaf_certificateCopyPublicKey x).keeps
  | keyCreate a b => exact (Service.addsLeaf_keyCreate a b).keeps
  | keyEncrypt x n b => exact Service.keeps_query _ fun _ => rfl
  | keyDecrypt x n b => exact Service.keeps_query _ fun _ => rfl
  | dataCreate b => exact (Service.addsLeaf_dataCreate b).keeps
  | numberCreate v => exact (Service.addsLeaf_numberCreate v).keeps
  | transformCreate kind x s => exact Service.keeps_transformCreate kind x s
  | transformSet x a => exact Service.keeps_transformSet x a
  | transformExecute x => exact (Service.addsLeaf_transformExecute x e).keeps
  | dataBytes x => exact Service.keeps_query _ fun _ => rfl
  | booleanValue x => exact Service.keeps_query _ fun _ => rfl
  | release x => exact Service.keeps_release x

/-! ### A key to try calls on -/

/-- An RSA key of four bits, as an object that encrypts and verifies. -/
def sampleKey : NativeObject := .key ⟨.ofPublic (.rsa ⟨15, 3⟩), false, true⟩

/-- The call that creates it from its encoding. -/
def createSample : Call :=
  .keyCreate ⟨.rsa, false, false, true⟩
    [0x30, 0x1a, 0x30, 0x0d, 0x06, 0x09, 0x2a, 0x86, 0x48, 0x86, 0xf7, 0x0d, 0x01,
      0x01, 0x01, 0x05, 0x00, 0x03, 0x09, 0x00, 0x30, 0x06, 0x02, 0x01, 0x0f, 0x02, 0x01, 0x03]

theorem make_createSample (e : Entropy) :
    createSample.make .standard e {} = .ok (.ok (.ref 1)) ⟨1, [(1, ⟨sampleKey, 1⟩)]⟩ := rfl

/-! ### Histories -/

namespace Service

/-- A registry that a history of calls leads to, and what callers own after it.  A call
is made only if callers own what it gives up. -/
inductive Reaches (P : Provider) : Registry → Multiset Ref → Prop where
  | start : Reaches P {} 0
  | call {r r' : Registry} {owned : Multiset Ref} {reply : Except ServiceError Reply} (c : Call)
      (e : Entropy) :
      Reaches P r owned → c.gives ≤ owned → c.make P e r = .ok reply r' →
        Reaches P r' (owned - c.gives + Reply.owns reply)

/-- The next registry of a history, with what callers own then. -/
theorem Reaches.next {owned' : Multiset Ref} {r' : Registry} {a : Except ServiceError Reply}
    (h : Reaches P r owned) (c : Call) (e : Entropy) (hgives : c.gives ≤ owned)
    (hmake : c.make P e r = .ok a r') (howned : owned - c.gives + Reply.owns a = owned') :
    Reaches P r' owned' :=
  howned ▸ .call c e h hgives hmake

/-- From a balanced registry a call ends if callers own what it gives up, and leaves a
balanced registry. -/
theorem Balanced.make (hr : r.Balanced owned) (c : Call) (e : Entropy) (hgives : c.gives ≤ owned) :
    ∃ reply r', c.make P e r = .ok reply r' ∧
      r'.Balanced (owned - c.gives + Reply.owns reply) := by
  rw [← Multiset.add_sub_cancel hgives, Multiset.add_comm] at hr
  exact c.keeps e r _ hr

theorem Reaches.balanced (h : Reaches P r owned) : r.Balanced owned := by
  induction h with
  | start => exact Balanced.empty
  | call c e _ hgives hmake ih =>
    obtain ⟨reply', r'', hmake', hbal⟩ := Balanced.make (P := P) ih c e hgives
    rw [hmake] at hmake'
    cases hmake'
    exact hbal

/-- Holders among the objects are slots of transforms. -/
theorem exists_transform_iff :
    (∃ y o, r.object y = .ok o ∧ x ∈ o.retained) ↔
      ∃ y t, r.object y = .ok (.transform t) ∧ some x ∈ t.slots := by
  constructor
  · rintro ⟨y, o, ho, hx⟩
    cases o with
    | transform t => exact ⟨y, t, ho, Transform.mem_slots_iff.mpr hx⟩
    | _ => exact absurd hx List.not_mem_nil
  · rintro ⟨y, t, ht, hx⟩
    exact ⟨y, _, ht, Transform.mem_slots_iff.mp hx⟩

/-- **Over any history, reference counts are exact.**  An object is there exactly if a
caller owns it or a slot of a transform names it, and its count is the number of these
ownerships and slots; every slot names an object that is there; every further call that
callers may make ends, so that none gives back an object that is gone; and without caller
ownerships there are no objects. -/
theorem Reaches.counts_exact (h : Reaches P r owned) :
    (∀ x, (∃ o, r.object x = .ok o) ↔
      x ∈ owned ∨ ∃ y t, r.object y = .ok (.transform t) ∧ some x ∈ t.slots) ∧
    (∀ x e, r.find? x = some e → e.count = owned.count x + r.holders x) ∧
    (∀ y t, r.object y = .ok (.transform t) →
      ∀ x, some x ∈ t.slots → ∃ o, r.object x = .ok o) ∧
    (∀ (c : Call) (e : Entropy), c.gives ≤ owned → ∃ reply r', c.make P e r = .ok reply r') ∧
    (owned = 0 → r.entries = []) := by
  have hbal := h.balanced
  refine ⟨fun x => ?_, fun x e he => hbal.count_of_find? he, fun y t ht x hx => ?_,
    fun c e hgives => ?_, ?_⟩
  · rw [← exists_transform_iff, ← hbal.exists_find?_iff]
    constructor
    · rintro ⟨o, ho⟩
      obtain ⟨e, he, -⟩ := object_eq_ok_iff.mp ho
      exact ⟨e, he⟩
    · rintro ⟨e, he⟩
      exact ⟨e.object, object_eq_ok_iff.mpr ⟨e, he, rfl⟩⟩
  · obtain ⟨o, ho, -⟩ := hbal.shallow y _ ht x (Transform.mem_slots_iff.mp hx)
    exact ⟨o, ho⟩
  · obtain ⟨reply, r', hmake, -⟩ := Balanced.make (P := P) hbal c e hgives
    exact ⟨reply, r', hmake⟩
  · rintro rfl
    exact hbal.entries_eq_nil

/-- A byte string that a transform holds on to as signature and as input, the latter set
twice, and that its creator still owns. -/
theorem counts_exact_shared : ∃ r e, Reaches .standard r {2, 3} ∧ r.find? 2 = some e ∧
    e.count = 3 ∧ e.count = Multiset.count 2 {2, 3} + r.holders 2 := by
  let e : Entropy := fun _ => 0
  let bare : Transform := { kind := .verify, key := 1, signature := some 2 }
  let full : Transform := { bare with input := some 2 }
  let shared : Registry :=
    ⟨3, [(1, ⟨sampleKey, 2⟩), (2, ⟨.data [7], 3⟩), (3, ⟨.transform full, 1⟩)]⟩
  have h₁ : Reaches .standard ⟨1, [(1, ⟨sampleKey, 1⟩)]⟩ {1} :=
    Reaches.start.next createSample e (by decide) (make_createSample e) rfl
  have h₂ : Reaches .standard ⟨2, [(1, ⟨sampleKey, 1⟩), (2, ⟨.data [7], 1⟩)]⟩ {1, 2} :=
    h₁.next (.dataCreate [7]) e (by decide) rfl rfl
  have h₃ : Reaches .standard
      ⟨3, [(1, ⟨sampleKey, 2⟩), (2, ⟨.data [7], 2⟩), (3, ⟨.transform bare, 1⟩)]⟩ {1, 2, 3} :=
    h₂.next (.transformCreate .verify 1 (some 2)) e (by decide) rfl rfl
  have h₄ : Reaches .standard shared {1, 2, 3} :=
    h₃.next (.transformSet 3 (.input 2)) e (by decide)
      (reply_eq_ok (transformSet_input (b := [7]) rfl rfl rfl)) rfl
  -- the input that is set is the one that is given back
  have hagain : transformSet 3 (.input 2) shared = .ok (.ok ()) shared := by
    have hs : setting shared 3 (.input 2) = .ok ⟨full, some 2, some 2⟩ := rfl
    simp only [transformSet, hs, Option.toList_some]
    rw [releaseAll_disown (e := ⟨.data [7], 4⟩) rfl (by decide), releaseAll_nil]
    rfl
  have h₅ : Reaches .standard shared {1, 2, 3} :=
    h₄.next (.transformSet 3 (.input 2)) e (by decide) (reply_eq_ok hagain) rfl
  have hrelease : Service.release 1 shared = .ok () (shared.modify 1 Entry.disown) := by
    rw [Service.release, releaseAll_disown (e := ⟨sampleKey, 2⟩) rfl (by decide), releaseAll_nil]
  have h₆ : Reaches .standard (shared.modify 1 Entry.disown) {2, 3} := by
    refine h₅.next (.release 1) (a := .ok .done) e (by decide) ?_ rfl
    rw [Call.make, EStateM.map, hrelease]
  exact ⟨_, _, h₆, rfl, rfl, h₆.counts_exact.2.1 2 _ rfl⟩

end Service

end Keyring
