import Keyring.Proofs.Service.Persistence
import Keyring.Proofs.Service.Steps

/-!
# References are never mistaken

Whatever is called, a reference is given out once and stands for the object that it was given
out for, or for nothing any more.  References may be given back too often, be used after their
objects were freed, and calls may be abandoned half-way: then counts are wrong and slots of
transforms name what is gone, but no slot ever names an object of another kind, and no call
finds another object than the one it was given the reference for.

One invariant carries this, `Registry.Traced`: references are numbered in the order in which they
were given out, and what there is under a reference goes back to what was created under it.
Counts do not enter into it.  A wrong count frees an object too early, which takes an entry away
and leaves all others what they were; it cannot put another object in its place, since numbers
are never used again.  So giving back, in whatever order and however often, is one case of the
invariant, `Traced.shrink`, and only what creates or sets an object needs to be looked at.

## Main definitions

* `Service.Issues` — the registries that calls of any kind lead to, with all that was created.
* `NativeObject.Remains` — what may become of an object.
* `Registry.Traced` — everything that is there goes back to what was created.
* `Call.uses` — the references that a call looks at.

## Main results

* `Registry.Traced.make` — **a call keeps everything traced**, also if it is abandoned.
* `Call.make_of_absent` — a call fails on a reference without an object.
* `Service.Issues.never_mistaken` — **over any history, references are never mistaken.**
-/

namespace Keyring

open Registry Service

variable {P : Provider} {r r' : Registry} {x y : Ref} {o o' : NativeObject} {t : Transform}
  {issued issued' : List (Ref × NativeObject)}

/-! ### What is created -/

/-- What a call creates, under the reference that it answers with. -/
def Service.issuedBy :
    EStateM.Result Halt Registry (Except ServiceError Reply) → List (Ref × NativeObject)
  | .ok (.ok (.ref x)) r => (r.object x).toOption.toList.map (x, ·)
  | _ => []

/-- A registry that calls lead to, whoever owns what, with everything that they have created, in
order.  A call that is abandoned leaves what it has done by then. -/
inductive Service.Issues (P : Provider) : Registry → List (Ref × NativeObject) → Prop where
  | start : Issues P {} []
  | call {r : Registry} {issued : List (Ref × NativeObject)} (c : Call) (e : Entropy) :
      Issues P r issued →
        Issues P (finalState (c.make P e r)) (issued ++ issuedBy (c.make P e r))

theorem Service.issuedBy_of_owns {reply : Except ServiceError Reply}
    (h : Reply.owns reply = 0) : issuedBy (.ok reply r) = [] := by
  rcases reply with err | reply
  · rfl
  · cases reply with
    | ref x => exact absurd h (Multiset.singleton_ne_zero x)
    | _ => rfl

theorem Service.issuedBy_afterRelease (result : EStateM.Result Halt Registry Unit) :
    issuedBy (afterRelease (.ok .done) result) = [] := by
  cases result <;> rfl

/-- A new object is created under the next reference. -/
theorem Service.issuedBy_insert (hr : r.Ordered) (o : NativeObject) :
    issuedBy (.ok (.ok (.ref (r.last + 1))) (r.insert o)) = [(r.last + 1, o)] := by
  rw [issuedBy, object_insert_last hr]
  rfl

/-! ### What becomes of an object -/

/-- What an object may be later on: itself, but for the attributes of a transform. -/
inductive NativeObject.Remains : NativeObject → NativeObject → Prop
  | same (o : NativeObject) : Remains o o
  | set {t u : Transform} (hkind : u.kind = t.kind) (hkey : u.key = t.key)
      (hsignature : u.signature = t.signature) : Remains (.transform t) (.transform u)

/-- What has no slots is what it was. -/
theorem NativeObject.Remains.eq_of_leaf (h : o.Remains o') (ho' : o'.retained = []) : o = o' := by
  cases h with
  | same => rfl
  | set => exact absurd ho' (List.cons_ne_nil _ _)

theorem NativeObject.Remains.assign (h : o.Remains (.transform t)) (a : Attribute) :
    o.Remains (.transform (t.assign a)) := by
  cases h with
  | same => exact .set (t.kind_assign a) (t.key_assign a) (t.signature_assign a)
  | set hkind hkey hsignature =>
    exact .set ((t.kind_assign a).trans hkind) ((t.key_assign a).trans hkey)
      ((t.signature_assign a).trans hsignature)

/-- The slots of a transform name objects that were created as what the slots are for. -/
structure Transform.Names (t : Transform) (issued : List (Ref × NativeObject)) : Prop where
  key : ∃ k, (t.key, .key k) ∈ issued
  signature : ∀ y, t.signature = some y → ∃ b, (y, .data b) ∈ issued
  digestLength : ∀ y, t.digestLength = some y → ∃ v, (y, .number v) ∈ issued
  input : ∀ y, t.input = some y → ∃ b, (y, .data b) ∈ issued

theorem Transform.Names.mono (h : t.Names issued) (hsub : issued ⊆ issued') : t.Names issued' where
  key := h.key.imp fun _ hk => hsub hk
  signature := fun y hy => (h.signature y hy).imp fun _ hb => hsub hb
  digestLength := fun y hy => (h.digestLength y hy).imp fun _ hv => hsub hv
  input := fun y hy => (h.input y hy).imp fun _ hb => hsub hb

/-! ### Everything goes back to what was created -/

/-- References were given out one after the other, and what there is under a reference is what
it was given out for. -/
structure Registry.Traced (r : Registry) (issued : List (Ref × NativeObject)) : Prop where
  /-- Entries have owners, and slots name what was given out. -/
  loose : r.Loose
  /-- References are numbered, and none is given out twice. -/
  refs_eq : issued.map Prod.fst = List.range' 1 r.last
  /-- An object is the one that was created under its reference. -/
  object : ∀ y o', r.object y = .ok o' → ∃ o, (y, o) ∈ issued ∧ o.Remains o'
  /-- Slots name objects that were created as what the slots are for. -/
  slots : ∀ y t, r.object y = .ok (.transform t) → t.Names issued

namespace Registry.Traced

theorem empty : Traced {} [] where
  loose := Loose.empty
  refs_eq := rfl
  object := by
    intro y o' ho'
    obtain ⟨e, he, -⟩ := object_eq_ok_iff.mp ho'
    cases he
  slots := by
    intro y t ht
    obtain ⟨e, he, -⟩ := object_eq_ok_iff.mp ht
    cases he

/-- What is there without slots was created as it is. -/
theorem mem_of_leaf (hr : r.Traced issued) (ho : r.object y = .ok o) (hnil : o.retained = []) :
    (y, o) ∈ issued := by
  obtain ⟨o₀, hmem, hremains⟩ := hr.object y o ho
  rwa [hremains.eq_of_leaf hnil] at hmem

theorem nodup (hr : r.Traced issued) : (issued.map Prod.fst).Nodup := by
  rw [hr.refs_eq]
  exact List.nodup_range'

theorem mem_refs_iff (hr : r.Traced issued) :
    y ∈ issued.map Prod.fst ↔ 1 ≤ y ∧ y ≤ r.last := by
  rw [hr.refs_eq, List.mem_range'_1, Nat.add_comm, Nat.lt_succ_iff]

/-- What was created under a reference is one object. -/
theorem eq_of_mem (hr : r.Traced issued) (ho : (y, o) ∈ issued) (ho' : (y, o') ∈ issued) :
    o = o' := by
  have hpair := List.inj_on_of_nodup_map hr.nodup ho ho' rfl
  exact congrArg Prod.snd hpair

/-- What a slot names was not created as a transform. -/
theorem not_transform {u : Transform} (hr : r.Traced issued) (ht : t.Names issued)
    (hy : y ∈ t.retained) : (y, .transform u) ∉ issued := by
  intro hu
  simp only [Transform.retained, List.mem_cons, List.mem_append, Option.mem_toList] at hy
  -- slot by slot; under one reference one object was created
  rcases hy with rfl | (hy | hy) | hy
  · obtain ⟨k, hk⟩ := ht.key
    cases hr.eq_of_mem hu hk
  · obtain ⟨b, hb⟩ := ht.signature y hy
    cases hr.eq_of_mem hu hb
  · obtain ⟨v, hv⟩ := ht.digestLength y hy
    cases hr.eq_of_mem hu hv
  · obtain ⟨b, hb⟩ := ht.input y hy
    cases hr.eq_of_mem hu hb

/-- Objects may go, and counts may change. -/
theorem shrink (hr : r.Traced issued) (hloose : r'.Loose) (hlast : r'.last = r.last)
    (hobject : ∀ y o, r'.object y = .ok o → r.object y = .ok o) : r'.Traced issued where
  loose := hloose
  refs_eq := hlast ▸ hr.refs_eq
  object := fun y o ho => hr.object y o (hobject y o ho)
  slots := fun y t ht => hr.slots y t (hobject y _ ht)

theorem retainAll (hr : r.Traced issued) (refs : List Ref) :
    (refs.foldl Registry.retain r).Traced issued :=
  hr.shrink (hr.loose.retainAll refs) (last_retainAll refs)
    fun y o ho => by rwa [object_retainAll] at ho

/-- An object is created. -/
theorem insert (hr : r.Traced issued) (hloose : (r.insert o).Loose)
    (ho : ∀ t, o = .transform t → t.Names issued) :
    (r.insert o).Traced (issued ++ [(r.last + 1, o)]) where
  loose := hloose
  refs_eq := by
    rw [List.map_append, hr.refs_eq, last_insert, List.range'_1_concat, Nat.add_comm 1]
    rfl
  object := by
    intro y o' ho'
    rcases (object_insert_eq_ok_iff hr.loose.sound.ordered).mp ho' with ⟨rfl, rfl⟩ | ho'
    · exact ⟨o, List.mem_append_right _ List.mem_cons_self, .same o⟩
    · obtain ⟨o₀, hmem, hremains⟩ := hr.object y o' ho'
      exact ⟨o₀, List.mem_append_left _ hmem, hremains⟩
  slots := by
    intro y t ht
    -- an older transform keeps the names it had, a new one brings its own
    have hnames : t.Names issued := by
      rcases (object_insert_eq_ok_iff hr.loose.sound.ordered).mp ht with ⟨-, hot⟩ | ht
      · exact ho t hot
      · exact hr.slots y t ht
    exact hnames.mono (List.subset_append_left _ _)

/-- A new transform names what there is. -/
theorem names_of_newTransform {kind : TransformKind} {s : Option Ref} (hr : r.Traced issued)
    (ht : newTransform r kind x s = .ok t) : t.Names issued := by
  obtain ⟨rfl, ⟨k, hk⟩, hsignature⟩ := newTransform_eq_ok ht
  refine ⟨⟨k, hr.mem_of_leaf hk rfl⟩, fun y hy => ?_, ?_, ?_⟩
  · obtain ⟨b, hb⟩ := hsignature y hy
    exact ⟨b, hr.mem_of_leaf hb rfl⟩
  · simp [Transform.fresh]
  · simp [Transform.fresh]

/-- A setting names what there is. -/
theorem names_assign {a : Attribute} (hr : r.Traced issued) (ht : t.Names issued)
    (ha : a.Named r) : (t.assign a).Names issued := by
  cases a with
  | digestType family => exact { ht with }
  | padding padding => exact { ht with }
  | digestLength number =>
    obtain ⟨v, hv⟩ := ha
    refine { ht with digestLength := fun y hy => ⟨v, ?_⟩ }
    cases hy
    exact hr.mem_of_leaf hv rfl
  | input data =>
    obtain ⟨b, hb⟩ := ha
    refine { ht with input := fun y hy => ⟨b, ?_⟩ }
    cases hy
    exact hr.mem_of_leaf hb rfl

/-- A transform is set. -/
theorem object_configure {a : Attribute} (hx : r.object x = .ok (.transform t))
    (h : (r.configure x t a).object y = .ok o) :
    r.object y = .ok o ∨ y = x ∧ o = .transform (t.assign a) := by
  obtain ⟨e, he, -⟩ := object_eq_ok_iff.mp (object_retainAll a.ref?.toList ▸ hx)
  -- retaining changes counts, and the replacement is of `x` alone
  by_cases hy : y = x
  · subst hy
    rw [configure, object_replace_self he] at h
    cases h
    exact .inr ⟨rfl, rfl⟩
  · rw [configure, object_replace_of_ne hy, object_retainAll] at h
    exact .inl h

theorem configure {a : Attribute} (hr : r.Traced issued) (hx : r.object x = .ok (.transform t))
    (ha : a.Named r) : (r.configure x t a).Traced issued where
  loose := loose_configure hr.loose hx ha
  refs_eq := by
    have hlast : (r.configure x t a).last = r.last := last_retainAll _
    rw [hlast, hr.refs_eq]
  object := by
    intro y o' ho'
    rcases object_configure hx ho' with ho' | ⟨rfl, rfl⟩
    · exact hr.object y o' ho'
    · obtain ⟨o, hmem, hremains⟩ := hr.object y _ hx
      exact ⟨o, hmem, hremains.assign a⟩
  slots := by
    intro y u hu
    rcases object_configure hx hu with hu | ⟨-, hu⟩
    · exact hr.slots y u hu
    · cases hu
      exact hr.names_assign (hr.slots x t hx) ha

/-- References are given back, also if this is abandoned. -/
theorem releaseAll (hr : r.Traced issued) (refs : List Ref) :
    (finalState (r.releaseAll refs)).Traced issued :=
  hr.shrink (hr.loose.releaseAll refs) (releaseAll_object r refs).1 (releaseAll_object r refs).2

/-- **A call keeps everything traced**, also if it is abandoned. -/
theorem make (hr : r.Traced issued) (c : Call) (e : Entropy) :
    (finalState (c.make P e r)).Traced (issued ++ issuedBy (c.make P e r)) := by
  have hloose := c.loose (P := P) e hr.loose
  have hdoes := c.does (P := P) e r
  generalize c.make P e r = result at hloose hdoes
  -- by what a call does: answer, create, or set and give back
  cases hdoes with
  | answer hreply =>
    rw [issuedBy_of_owns hreply, List.append_nil]
    exact hr
  | @leaf _ o ho =>
    rw [issuedBy_insert hr.loose.sound.ordered]
    refine hr.insert hloose fun t ht => ?_
    rw [ht] at ho
    exact absurd ho (List.cons_ne_nil _ _)
  | @transform _ _ _ t ht =>
    -- what the transform names is retained before it is there itself
    have hheld := hr.retainAll t.retained
    have hissued := issuedBy_insert hheld.loose.sound.ordered (.transform t)
    have hinsert := hheld.insert (o := .transform t) hloose fun u hu => by
      cases hu
      exact hr.names_of_newTransform ht
    rw [last_retainAll] at hissued hinsert
    rwa [hissued]
  | set hx ha =>
    rw [issuedBy_afterRelease, List.append_nil, finalState_afterRelease]
    exact (hr.configure hx ha).releaseAll _
  | release x =>
    rw [issuedBy_afterRelease, List.append_nil, finalState_afterRelease]
    exact hr.releaseAll [x]

end Registry.Traced

theorem Service.Issues.traced (h : Issues P r issued) : r.Traced issued := by
  induction h with
  | start => exact .empty
  | call c e _ ih => exact ih.make c e

/-- Something was created by any calls. -/
theorem Service.Arises.exists_traced (h : Arises P r) : ∃ issued, r.Traced issued := by
  induction h with
  | start => exact ⟨[], .empty⟩
  | call c e _ ih =>
    obtain ⟨issued, hr⟩ := ih
    exact ⟨_, hr.make c e⟩

/-! ### References without objects -/

/-- The references that a call looks at.  Only verifying looks at a signature. -/
def Call.uses : Call → List Ref
  | certificateCreate _ | keyCreate .. | dataCreate _ | numberCreate _ => []
  | certificateCopyPublicKey x | keyEncrypt x .. | keyDecrypt x .. | transformExecute x
  | dataBytes x | booleanValue x | release x => [x]
  | transformCreate kind x s => (Transform.fresh kind x s).retained
  | transformSet x a => x :: a.ref?.toList

namespace Registry

theorem object_of_absent (h : r.find? x = none) : r.object x = .error .unknownReference := by
  rw [object, h]

theorem key_of_absent (h : r.find? x = none) : r.key x = .error .unknownReference := by
  rw [key, object_of_absent h, error_bind]

theorem data_of_absent (h : r.find? x = none) : r.data x = .error .unknownReference := by
  rw [data, object_of_absent h, error_bind]

theorem transform_of_absent (h : r.find? x = none) : r.transform x = .error .unknownReference := by
  rw [transform, object_of_absent h, error_bind]

end Registry

namespace Service

theorem exists_error_of_query {α : Type} {f : Registry → Except ServiceError α} {g : α → Reply}
    (h : ∃ err, f r = .error err) : ∃ err, (query f).reply g r = .ok (.error err) r := by
  obtain ⟨err, herr⟩ := h
  have hcall : query f r = .ok (.error err) r := by rw [query, herr]
  exact ⟨err, reply_eq_ok hcall⟩

theorem exists_error_of_create {f : Registry → Except ServiceError NativeObject}
    (h : ∃ err, f r = .error err) : ∃ err, (create f).reply .ref r = .ok (.error err) r := by
  obtain ⟨err, herr⟩ := h
  exact ⟨err, reply_eq_ok (create_error herr)⟩

/-- No transform is created of what is not there. -/
theorem newTransform_of_absent {kind : TransformKind} {s : Option Ref} (h : r.find? y = none)
    (hy : y ∈ (Transform.fresh kind x s).retained) :
    ∃ err, newTransform r kind x s = .error err := by
  cases ht : newTransform r kind x s with
  | error err => exact ⟨err, rfl⟩
  | ok t =>
    obtain ⟨rfl, -⟩ := newTransform_eq_ok ht
    -- a transform that was made has found all that it names
    obtain ⟨o, ho, -⟩ := isLeaf_of_newTransform ht y hy
    rw [object_of_absent h] at ho
    cases ho

/-- Without verifying, a signature is not looked at. -/
theorem transformCreate_of_ne {kind : TransformKind} (hkind : kind ≠ .verify) (x : Ref)
    (s : Option Ref) : transformCreate kind x s = transformCreate kind x none := by
  have hsignature : ∀ r, transformSignature r kind s = transformSignature r kind none := by
    intro r
    cases kind <;> first | rfl | exact absurd rfl hkind
  funext r
  simp only [transformCreate, newTransform, hsignature]

/-- Nothing is set that is not there, or to what is not there. -/
theorem setting_of_absent {a : Attribute} (h : r.find? y = none) (hy : y ∈ x :: a.ref?.toList) :
    ∃ err, setting r x a = .error err := by
  cases hs : setting r x a with
  | error err => exact ⟨err, rfl⟩
  | ok s =>
    obtain ⟨t, ht, -, hnamed⟩ := setting_eq_ok hs
    have hobject : ∃ o, r.object y = .ok o := by
      rcases List.mem_cons.mp hy with rfl | hy
      · exact ⟨_, ht⟩
      · obtain ⟨o, ho, -⟩ := isLeaf_of_named hnamed y hy
        exact ⟨o, ho⟩
    obtain ⟨o, ho⟩ := hobject
    rw [object_of_absent h] at ho
    cases ho

/-- What is captured of a transform is there, under the references that the transform names. -/
theorem capture_eq_ok {c : Captured} (h : capture r x = .ok c) :
    ∃ t d, r.object x = .ok (.transform t) ∧ t.input = some d ∧
      r.object t.key = .ok (.key c.key) ∧ r.object d = .ok (.data c.input) ∧
      ∀ b, c.signature = some b → ∃ y, t.signature = some y ∧ r.object y = .ok (.data b) := by
  obtain ⟨t, ht, h⟩ := bind_eq_ok_iff.mp h
  split at h
  · cases h
  next d hinput =>
    obtain ⟨⟨digest, signature⟩, hdigest, h⟩ := bind_eq_ok_iff.mp h
    obtain ⟨k, hk, h⟩ := bind_eq_ok_iff.mp h
    obtain ⟨b, hb, h⟩ := bind_eq_ok_iff.mp h
    cases h
    refine ⟨t, d, transform_eq_ok_iff.mp ht, hinput, key_eq_ok_iff.mp hk, data_eq_ok_iff.mp hb,
      fun s hs => ?_⟩
    cases hs
    -- a signature is captured to verify, and only then
    unfold captureDigest at hdigest
    split at hdigest
    · cases hdigest
    · cases hdigest
    · obtain ⟨a, -, hdigest⟩ := bind_eq_ok_iff.mp hdigest
      cases hdigest
    · split at hdigest
      · cases hdigest
      next y hy =>
        obtain ⟨a, -, hdigest⟩ := bind_eq_ok_iff.mp hdigest
        obtain ⟨s', hs', hdigest⟩ := bind_eq_ok_iff.mp hdigest
        cases hdigest
        exact ⟨y, hy, data_eq_ok_iff.mp hs'⟩

end Service

/-- **A call fails on a reference without an object**, and nothing happens.  Giving such a
reference back is abandoned. -/
theorem Call.make_of_absent {c : Call} (e : Entropy) (hx : x ∈ c.uses) (h : r.find? x = none) :
    (∃ err, c.make P e r = .ok (.error err) r) ∨
      c = .release x ∧ c.make P e r = .error .overRelease r := by
  cases c with
  | certificateCreate b => cases hx
  | keyCreate a b => cases hx
  | dataCreate b => cases hx
  | numberCreate v => cases hx
  | certificateCopyPublicKey y =>
    cases List.mem_singleton.mp hx
    refine .inl (exists_error_of_create ⟨.unknownReference, ?_⟩)
    rw [certificate, object_of_absent h]
    rfl
  | keyEncrypt y n b =>
    cases List.mem_singleton.mp hx
    exact .inl (exists_error_of_query ⟨_, by rw [key_of_absent h, error_bind]⟩)
  | keyDecrypt y n b =>
    cases List.mem_singleton.mp hx
    exact .inl (exists_error_of_query ⟨_, by rw [key_of_absent h, error_bind]⟩)
  | transformCreate kind y s =>
    obtain ⟨err, ht⟩ := newTransform_of_absent h hx
    exact .inl ⟨err, reply_eq_ok (transformCreate_error ht)⟩
  | transformSet y a =>
    obtain ⟨err, hs⟩ := setting_of_absent h hx
    exact .inl ⟨err, reply_eq_ok (transformSet_error hs)⟩
  | transformExecute y =>
    cases List.mem_singleton.mp hx
    refine .inl (exists_error_of_create ⟨.unknownReference, ?_⟩)
    rw [capture, transform_of_absent h]
    rfl
  | dataBytes y =>
    cases List.mem_singleton.mp hx
    exact .inl (exists_error_of_query ⟨_, data_of_absent h⟩)
  | booleanValue y =>
    cases List.mem_singleton.mp hx
    refine .inl (exists_error_of_query ⟨.unknownReference, ?_⟩)
    rw [boolean, object_of_absent h, error_bind]
  -- this alone is not an error but the end of the run
  | release y =>
    cases List.mem_singleton.mp hx
    refine .inr ⟨rfl, ?_⟩
    rw [make, EStateM.map, Service.release, releaseAll_none h]

/-! ### Histories of any kind -/

namespace Service

/-- **Over any history, references are never mistaken.**  No reference is given out twice.  What
is there has an owner, and is what was created under its reference, but for the attributes of
transforms; since nothing else was ever created under it, it is the same object at any time.
Slots name what was created as a key, a byte string or a number, as the slot is for, whether or
not it is still there, so never a transform, and an execution captures just that.  A call on a
reference without an object fails and nothing happens, and giving one back is abandoned; only
a signature that is not to be verified is not looked at. -/
theorem Issues.never_mistaken (h : Issues P r issued) :
    (issued.map Prod.fst).Nodup ∧
    (∀ (c : Call) e x r', c.make P e r = .ok (.ok (.ref x)) r' →
      x ∉ issued.map Prod.fst ∧ ∃ o, r'.object x = .ok o) ∧
    (∀ x e, r.find? x = some e → 1 ≤ x ∧ x ≤ r.last ∧ 1 ≤ e.count) ∧
    (∀ x o', r.object x = .ok o' → ∃ o, (x, o) ∈ issued ∧ o.Remains o') ∧
    (∀ x t, r.object x = .ok (.transform t) →
      t.Names issued ∧ ∀ y ∈ t.retained, ∀ u, (y, .transform u) ∉ issued) ∧
    (∀ x c, capture r x = .ok c → ∃ t d, r.object x = .ok (.transform t) ∧ t.input = some d ∧
      (t.key, .key c.key) ∈ issued ∧ (d, .data c.input) ∈ issued ∧
      ∀ b, c.signature = some b → ∃ y, t.signature = some y ∧ (y, .data b) ∈ issued) ∧
    (∀ (c : Call) e x, x ∈ c.uses → r.find? x = none →
      (∃ err, c.make P e r = .ok (.error err) r) ∨
        c = .release x ∧ c.make P e r = .error .overRelease r) ∧
    ∀ kind x s e, kind ≠ .verify → Call.make P e (.transformCreate kind x s) r =
      Call.make P e (.transformCreate kind x none) r := by
  have hr := h.traced
  refine ⟨hr.nodup, fun c e x r' hmake => ?_, fun x e he => ?_, hr.object, fun x t ht => ?_,
    fun x c hc => ?_, fun c e x hx habsent => Call.make_of_absent e hx habsent,
    fun kind x s e hkind => ?_⟩
  · have hdoes := c.does (P := P) e r
    rw [hmake] at hdoes
    rcases hdoes.owns_or_new hr.loose with howns | ⟨hreply, hobject⟩
    · exact absurd howns (Multiset.singleton_ne_zero x)
    · cases hreply
      -- what was given out has a number up to the last one
      refine ⟨fun hmem => ?_, hobject⟩
      exact absurd (hr.mem_refs_iff.mp hmem).2 (Nat.not_succ_le_self _)
  · exact ⟨hr.loose.sound.ordered.pos _ (mem_of_find? he),
      hr.loose.sound.ordered.find?_le_last he, hr.loose.sound.count_pos x e he⟩
  · exact ⟨hr.slots x t ht, fun y hy u hu => hr.not_transform (hr.slots x t ht) hy hu⟩
  · obtain ⟨t, d, ht, hinput, hkey, hdata, hsignature⟩ := capture_eq_ok hc
    refine ⟨t, d, ht, hinput, hr.mem_of_leaf hkey rfl, hr.mem_of_leaf hdata rfl, fun b hb => ?_⟩
    obtain ⟨y, hy, hb⟩ := hsignature b hb
    exact ⟨y, hy, hr.mem_of_leaf hb rfl⟩
  · rw [Call.make, transformCreate_of_ne hkind, Call.make]

/-- The next registry of a history, after a call that ends in a known way. -/
theorem Issues.next {c : Call} {e : Entropy}
    {result : EStateM.Result Halt Registry (Except ServiceError Reply)} (h : Issues P r issued)
    (hmake : c.make P e r = result) : Issues P (finalState result) (issued ++ issuedBy result) :=
  hmake ▸ h.call c e

/-- A byte string is given back twice by its creator, the second time in vain, before another
one is created.  The first reference does not stand for the second byte string. -/
theorem never_mistaken_freed : ∃ r err, Issues .standard r [(1, .data [7]), (2, .data [8])] ∧
    r.object 2 = .ok (.data [8]) ∧
    Call.make .standard (fun _ => 0) (.dataBytes 1) r = .ok (.error err) r := by
  let e : Entropy := fun _ => 0
  have h₁ : Issues .standard ⟨1, [(1, ⟨.data [7], 1⟩)]⟩ [(1, .data [7])] :=
    Issues.start.call (.dataCreate [7]) e
  have hfirst : Registry.releaseAll ⟨1, [(1, ⟨.data [7], 1⟩)]⟩ [1] = .ok () ⟨1, []⟩ := by
    rw [releaseAll_last (e := ⟨.data [7], 1⟩) rfl (by decide)]
    exact releaseAll_nil
  have h₂ : Issues .standard ⟨1, []⟩ [(1, .data [7])] := h₁.next (e := e) (Call.make_release hfirst)
  have hsecond : Call.make .standard e (.release 1) ⟨1, []⟩ = .error .overRelease ⟨1, []⟩ := by
    rw [Call.make, EStateM.map, Service.release, releaseAll_none rfl]
  have h₃ : Issues .standard ⟨1, []⟩ [(1, .data [7])] := h₂.next hsecond
  have h₄ : Issues .standard ⟨2, [(2, ⟨.data [8], 1⟩)]⟩ [(1, .data [7]), (2, .data [8])] :=
    h₃.call (.dataCreate [8]) e
  obtain ⟨-, -, -, -, -, -, habsent, -⟩ := h₄.never_mistaken
  rcases habsent (.dataBytes 1) e 1 List.mem_cons_self rfl with ⟨err, herr⟩ | ⟨hcall, -⟩
  · exact ⟨_, err, h₄, rfl, herr⟩
  · cases hcall

end Service

end Keyring
