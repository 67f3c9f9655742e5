import Keyring.Proofs.Service.Persistence

/-!
# Transforms as they were put together

A transform names objects.  Whoever has put it together knows what these objects held when they
were named.  A draft is a transform with that in place of the references, and says what is to be
captured for an execution.  It describes the transform for as long as there is the transform:
objects that are named stay, and hold what they held.

A draft is made without the registry of later on.  It is read off once, when the transform is
created, and changed by settings as the transform is, with contents where the transform gets
references.  That it still fits is the work of two facts about histories: what a transform holds
on to is there with it, and what is no transform does not change under its reference.

## Main definitions

* `Draft` — a transform with the contents of what it names.
* `Draft.fresh?`, `Draft.assign` — a draft of a new transform, and after a setting.
* `Draft.captured` — what is captured of a transform that was put together so.
* `Draft.Describes` — a draft is that of a transform.

## Main results

* `Draft.Describes.capture_eq` — **what is captured of a transform is what its draft says.**
* `Draft.Describes.follow` — **a draft describes a transform as long as there is the transform.**
-/

namespace Keyring

open Registry Service

variable {P : Provider} {r r' : Registry} {x t : Ref} {u : Transform}

/-! ### Drafts -/

/-- A transform as it was put together, with the contents of what it names. -/
structure Draft where
  kind : TransformKind
  key : KeyObject
  signature : Option Bytes
  digestType : Option DigestFamily := none
  digestLength : Option Int := none
  padding : Option RsaPadding := none
  input : Option Bytes := none

namespace Draft

/-- The draft of a new transform: only verifying takes a signature. -/
def fresh? (r : Registry) (kind : TransformKind) (x : Ref) (s : Option Ref) : Option Draft :=
  match r.key x, (if kind = .verify then s else none).mapM r.data with
  | .ok k, .ok b => some { kind, key := k, signature := b }
  | _, _ => none

/-- A draft after a setting. -/
def assign (r : Registry) (d : Draft) : Attribute → Draft
  | .digestType family => { d with digestType := some family }
  | .digestLength number => { d with digestLength := (r.number number).toOption }
  | .padding padding => { d with padding := some padding }
  | .input data => { d with input := (r.data data).toOption }

/-- What is captured of a transform that was put together so. -/
def captured (d : Draft) : Except ServiceError Captured :=
  match d.input with
  | none => .error .inputMissing
  | some input =>
    match d.kind with
    | .encrypt | .decrypt => .ok ⟨d.kind, d.key, d.padding, none, input, none⟩
    | .sign => do
      let a ← digestOf d.digestType d.digestLength
      return ⟨d.kind, d.key, d.padding, some a, input, none⟩
    | .verify =>
      match d.signature with
      | none => .error (.status ServiceError.invalidParameter)
      | some s => do
        let a ← digestOf d.digestType d.digestLength
        return ⟨d.kind, d.key, d.padding, some a, input, some s⟩

/-- A draft is that of a transform: what the transform names has the contents that the draft
has. -/
structure Describes (d : Draft) (r : Registry) (u : Transform) : Prop where
  kind : u.kind = d.kind
  key : r.key u.key = .ok d.key
  signature : u.signature.mapM r.data = .ok d.signature
  digestType : u.digestType = d.digestType
  digestLength : u.digestLength.mapM r.number = .ok d.digestLength
  padding : u.padding = d.padding
  input : u.input.mapM r.data = .ok d.input

variable {d : Draft}

/-! ### What is captured -/

/-- **What is captured of a transform is what its draft says.** -/
theorem Describes.capture_eq (hd : d.Describes r u) (hu : r.object t = .ok (.transform u)) :
    capture r t = d.captured := by
  -- the hash algorithm comes of the family and of the number that is named
  have hdigest : transformDigest r u = digestOf d.digestType d.digestLength := by
    rw [transformDigest, hd.digestLength, ok_bind, hd.digestType]
  rw [capture, transform_eq_ok_iff.mpr hu, ok_bind, captured]
  rcases mapM_eq_ok_iff.mp hd.input with ⟨hnone, hinput⟩ | ⟨y, b, hy, hb, hinput⟩
  · rw [hnone, hinput]
    rfl
  rw [hy, hinput]
  dsimp only
  rw [captureDigest, hd.kind, hd.key, hb, hd.padding, hdigest]
  -- only signatures need a hash algorithm, and only verifying a signature
  cases d.kind with
  | encrypt => rfl
  | decrypt => rfl
  | sign => cases digestOf d.digestType d.digestLength <;> rfl
  | verify =>
    rcases mapM_eq_ok_iff.mp hd.signature with ⟨hnone, hsignature⟩ | ⟨s, c, hs, hc, hsignature⟩
    · rw [hnone, hsignature]
      rfl
    · rw [hs, hsignature]
      dsimp only
      rw [hc]
      cases digestOf d.digestType d.digestLength <;> rfl

/-! ### How drafts come about -/

/-- A new transform has a draft. -/
theorem exists_fresh {kind : TransformKind} {s : Option Ref} (h : newTransform r kind x s = .ok u) :
    ∃ d, fresh? r kind x s = some d ∧ d.Describes r u := by
  obtain ⟨rfl, ⟨k, hk⟩, hsignature⟩ := newTransform_eq_ok h
  have hkey : r.key x = .ok k := key_eq_ok_iff.mpr hk
  -- a signature that is to be verified is there to be read
  obtain ⟨b, hb⟩ : ∃ b, (if kind = .verify then s else none).mapM r.data = .ok b := by
    cases hs : if kind = .verify then s else none with
    | none => exact ⟨none, rfl⟩
    | some y =>
      obtain ⟨b, hb⟩ := hsignature y hs
      exact ⟨some b, mapM_eq_ok_iff.mpr (.inr ⟨y, b, rfl, data_eq_ok_iff.mpr hb, rfl⟩)⟩
  refine ⟨{ kind, key := k, signature := b }, ?_, rfl, hkey, hb, rfl, rfl, rfl, rfl⟩
  rw [fresh?, hkey, hb]

/-- A setting is made to a draft as to its transform. -/
theorem Describes.assign {a : Attribute} (hd : d.Describes r u) (ha : a.Named r) :
    (d.assign r a).Describes r (u.assign a) := by
  cases a with
  | digestType family => exact { hd with digestType := rfl }
  | padding padding => exact { hd with padding := rfl }
  | digestLength number =>
    obtain ⟨v, hv⟩ := ha
    have hnumber : r.number number = .ok v := number_eq_ok_iff.mpr hv
    refine { hd with digestLength := mapM_eq_ok_iff.mpr (.inr ⟨number, v, rfl, hnumber, ?_⟩) }
    rw [Draft.assign, hnumber]
    rfl
  | input data =>
    obtain ⟨b, hb⟩ := ha
    have hdata : r.data data = .ok b := data_eq_ok_iff.mpr hb
    refine { hd with input := mapM_eq_ok_iff.mpr (.inr ⟨data, b, rfl, hdata, ?_⟩) }
    rw [Draft.assign, hdata]
    rfl

/-! ### How long drafts last -/

/-- What is named is there. -/
theorem Describes.exists_object (hd : d.Describes r u) :
    ∀ y ∈ u.retained, ∃ o, r.object y = .ok o := by
  intro y hy
  simp only [Transform.retained, List.mem_cons, List.mem_append, Option.mem_toList] at hy
  -- slot by slot: what was read in it is there
  rcases hy with rfl | (hy | hy) | hy
  · exact ⟨_, key_eq_ok_iff.mp hd.key⟩
  · obtain ⟨b, hb⟩ := exists_of_mapM hd.signature hy
    exact ⟨_, data_eq_ok_iff.mp hb⟩
  · obtain ⟨v, hv⟩ := exists_of_mapM hd.digestLength hy
    exact ⟨_, number_eq_ok_iff.mp hv⟩
  · obtain ⟨b, hb⟩ := exists_of_mapM hd.input hy
    exact ⟨_, data_eq_ok_iff.mp hb⟩

theorem Describes.congr (hd : d.Describes r u) (h : ∀ y ∈ u.retained, r'.object y = r.object y) :
    d.Describes r' u := by
  refine { hd with key := ?_, signature := ?_, digestLength := ?_, input := ?_ }
  · rw [key_congr (h u.key List.mem_cons_self)]
    exact hd.key
  · rw [mapM_congr fun y hy => data_congr (h y ?_), hd.signature]
    simp [Transform.retained, hy]
  · rw [mapM_congr fun y hy => number_congr (h y ?_), hd.digestLength]
    simp [Transform.retained, hy]
  · rw [mapM_congr fun y hy => data_congr (h y ?_), hd.input]
    simp [Transform.retained, hy]

/-- **A draft describes a transform as long as there is the transform**, whatever is called in
the meantime: what the transform names is there with it, and is what it was. -/
theorem Describes.follow (hd : d.Describes r u) (hr : r.Ordered) (hfollows : r.Follows r')
    (hr' : r'.Shallow) (hu : r'.object t = .ok (.transform u)) : d.Describes r' u := by
  refine hd.congr fun y hy => ?_
  obtain ⟨o, ho⟩ := hd.exists_object y hy
  -- as the transform is still there, so is what it names
  obtain ⟨o', ho', hnil⟩ := hr' t _ hu y hy
  rw [ho', hfollows.object_of_leaf (hr.le_last_of_object ho) ho' hnil]

/-! ### Calls -/

/-- A draft is that of the transform under a reference, if it is still there. -/
def Covers (d : Draft) (r : Registry) (t : Ref) : Prop :=
  t ≤ r.last ∧ ∀ o, r.object t = .ok o → ∃ u, o = .transform u ∧ d.Describes r u

theorem Covers.capture_eq {o : NativeObject} (hd : d.Covers r t) (ho : r.object t = .ok o) :
    capture r t = d.captured := by
  obtain ⟨u, rfl, hu⟩ := hd.2 o ho
  exact hu.capture_eq ho

theorem Covers.keep (hd : d.Covers r t) (hr : r.Ordered) (hfollows : r.Follows r')
    (hr' : r'.Shallow) (hsame : ∀ o, r'.object t = .ok o → r.object t = .ok o) :
    d.Covers r' t := by
  refine ⟨Nat.le_trans hd.1 hfollows.last_le, fun o ho => ?_⟩
  obtain ⟨u, rfl, hu⟩ := hd.2 o (hsame o ho)
  exact ⟨u, rfl, hu.follow hr hfollows hr' ho⟩

variable {e : Entropy} {owned : Multiset Ref}

/-- A transform is set, and so is its draft. -/
theorem Covers.set {v : Attribute} {reply : Reply} (hd : d.Covers r t) (hr : r.Balanced owned)
    (hr' : r'.Shallow) (h : (Call.transformSet t v).make P e r = .ok (.ok reply) r') :
    (d.assign r v).Covers r' t := by
  -- set is the transform alone, and only then the draft is compared
  have hfollows := Call.follows_of_make hr.loose h
  obtain ⟨change, hmakes, hleads⟩ := ((Call.transformSet t v).changes e hr.loose).2 reply r' h
  obtain ⟨u, hu, hnamed, rfl⟩ := hmakes
  obtain ⟨u', hu', hdescribes⟩ := hd.2 _ hu
  cases hu'
  have hdescribes' := hdescribes.assign hnamed
  refine ⟨Nat.le_trans hd.1 hfollows.last_le, fun o ho => ?_⟩
  obtain ⟨o', -, rfl⟩ := hleads.object_eq hd.1 ho
  rw [Change.objectAt_self rfl] at ho ⊢
  exact ⟨_, rfl, hdescribes'.follow hr.ordered hfollows hr' ho⟩

/-- A transform that is created has a draft. -/
theorem exists_covers {kind : TransformKind} {s : Option Ref} {reply : Reply}
    (hr : r.Balanced owned) (hr' : r'.Shallow)
    (h : (Call.transformCreate kind x s).make P e r = .ok (.ok reply) r') :
    ∃ d, fresh? r kind x s = some d ∧ reply = .ref (r.last + 1) ∧ d.Covers r' (r.last + 1) := by
  have hfollows := Call.follows_of_make hr.loose h
  cases hu : newTransform r kind x s with
  | error err =>
    have hcall : transformCreate kind x s r = .ok (.error err) r := by
      simp only [transformCreate, hu]
    rw [Call.make, reply_eq_ok hcall] at h
    cases h
  | ok u =>
    rw [Call.make, reply_eq_ok (transformCreate_ok hu), last_retainAll] at h
    cases h
    -- the draft is read off before the call and holds after it
    obtain ⟨d, hd, hdescribes⟩ := exists_fresh hu
    have hobject := object_insert_last (o := .transform u)
      (hr.loose.retainAll u.retained).sound.ordered
    rw [last_retainAll] at hobject
    refine ⟨d, hd, rfl, ?_, fun o ho => ?_⟩
    · rw [last_insert, last_retainAll]
    · rw [hobject] at ho
      cases ho
      exact ⟨u, rfl, hdescribes.follow hr.ordered hfollows hr' hobject⟩

end Draft

end Keyring
