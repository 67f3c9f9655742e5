import Keyring.Proofs.Service.Ownership
import Keyring.Service.Transforms

/-!
# Transforms put together without a failure

What the calls do that create a transform, set it up and execute it, when nothing is in
their way: the registry afterwards, as changes of the one before.

## Main definitions

* `Transform.fresh` — a transform as it is created.
* `Transform.assign`, `Transform.slot` — a transform after a setting, and what it named in
  its place before.
* `Transform.attributes` — the references that a transform is set to.
* `Attribute.ref?`, `Attribute.Named` — what a setting names.

## Main results

* `newTransform_eq_ok`, `setting_eq_ok` — what is checked before a transform is made or set.
* `transformCreate_ok`, `transformCreate_eq` — a new transform.
* `transformSet_padding`, `transformSet_input` — its settings.
* `transformExecute_eq` — its output.
-/

namespace Keyring

/-! ### Transforms and their settings -/

/-- A transform as it is created: only verifying takes a signature. -/
def Transform.fresh (kind : TransformKind) (key : Ref) (signature : Option Ref) : Transform :=
  { kind, key, signature := if kind = .verify then signature else none }

/-- A new transform holds on to its key and its signature. -/
theorem Transform.retained_fresh (kind : TransformKind) (key : Ref) (signature : Option Ref) :
    (fresh kind key signature).retained = key :: (fresh kind key signature).signature.toList :=
  congrArg (key :: ·) ((List.append_nil _).trans (List.append_nil _))

/-- A transform after a setting. -/
def Transform.assign (t : Transform) : Attribute → Transform
  | .digestType family => { t with digestType := some family }
  | .digestLength number => { t with digestLength := some number }
  | .padding padding => { t with padding := some padding }
  | .input data => { t with input := some data }

@[simp] theorem Transform.kind_assign (t : Transform) (a : Attribute) :
    (t.assign a).kind = t.kind := by
  cases a <;> rfl

@[simp] theorem Transform.key_assign (t : Transform) (a : Attribute) :
    (t.assign a).key = t.key := by
  cases a <;> rfl

@[simp] theorem Transform.signature_assign (t : Transform) (a : Attribute) :
    (t.assign a).signature = t.signature := by
  cases a <;> rfl

/-- What a transform names in the place of a setting. -/
def Transform.slot (t : Transform) : Attribute → Option Ref
  | .digestLength _ => t.digestLength
  | .input _ => t.input
  | _ => none

/-- The references that a transform is set to. -/
def Transform.attributes (t : Transform) : List Ref := t.digestLength.toList ++ t.input.toList

theorem Transform.retained_eq (t : Transform) :
    t.retained = (t.key :: t.signature.toList) ++ t.attributes := by
  rw [retained, attributes, List.cons_append, List.append_assoc]

theorem Transform.mem_retained_of_attribute {t : Transform} {y : Ref} (h : y ∈ t.attributes) :
    y ∈ t.retained :=
  t.retained_eq ▸ List.mem_append_right _ h

theorem Transform.mem_attributes_of_slot {t : Transform} {a : Attribute} {y : Ref}
    (h : y ∈ (t.slot a).toList) : y ∈ t.attributes := by
  cases a with
  | digestType family => cases h
  | padding padding => cases h
  | digestLength number => exact List.mem_append_left _ h
  | input data => exact List.mem_append_right _ h

theorem Transform.mem_retained_of_slot {t : Transform} {a : Attribute} {y : Ref}
    (h : y ∈ (t.slot a).toList) : y ∈ t.retained :=
  mem_retained_of_attribute (mem_attributes_of_slot h)

/-- What a setting names. -/
def Attribute.ref? : Attribute → Option Ref
  | digestLength number => some number
  | input data => some data
  | _ => none

/-- A setting names an object of the kind it is for. -/
def Attribute.Named (r : Registry) : Attribute → Prop
  | digestLength number => ∃ v, r.object number = .ok (.number v)
  | input data => ∃ b, r.object data = .ok (.data b)
  | _ => True

end Keyring

namespace Keyring.Service

open Registry

variable {P : Provider} {r : Registry} {x d : Ref} {k : KeyObject} {t : Transform}

/-- A new transform is for a key, and if it verifies, for a byte string as well. -/
theorem newTransform_eq_ok {kind : TransformKind} {s : Option Ref}
    (h : newTransform r kind x s = .ok t) :
    t = .fresh kind x s ∧ (∃ k, r.object x = .ok (.key k)) ∧
      ∀ y ∈ t.signature, ∃ b, r.object y = .ok (.data b) := by
  obtain ⟨k, hk, h⟩ := bind_eq_ok_iff.mp h
  have hkey := key_eq_ok_iff.mp hk
  dsimp only at h
  split at h
  · cases h
  obtain ⟨s', hs', h⟩ := bind_eq_ok_iff.mp h
  cases h
  unfold transformSignature at hs'
  split at hs'
  · split at hs'
    · cases hs'
    · next y =>
      obtain ⟨b, hb, hs'⟩ := bind_eq_ok_iff.mp hs'
      cases hs'
      refine ⟨rfl, ⟨k, hkey⟩, fun z hz => ?_⟩
      cases hz
      exact ⟨b, data_eq_ok_iff.mp hb⟩
  · next hkind =>
    cases hs'
    exact ⟨by rw [Transform.fresh, if_neg hkind], ⟨k, hkey⟩, by simp⟩

/-- A setting is of a transform, and what it names is there. -/
theorem setting_eq_ok {a : Attribute} {s : Setting} (h : setting r x a = .ok s) :
    ∃ t, r.object x = .ok (.transform t) ∧ s = ⟨t.assign a, a.ref?, t.slot a⟩ ∧ a.Named r := by
  cases a with
  | digestType family =>
    obtain ⟨t, ht, h⟩ := bind_eq_ok_iff.mp h
    cases h
    exact ⟨t, transformToChange_eq_ok_iff.mp ht, rfl, trivial⟩
  -- a padding other than the raw one is looked up in the key, which changes nothing
  | padding padding =>
    obtain ⟨t, ht, h⟩ := bind_eq_ok_iff.mp h
    refine ⟨t, transform_eq_ok_iff.mp ht, ?_⟩
    dsimp only at h
    split at h
    · obtain ⟨k, -, h⟩ := bind_eq_ok_iff.mp h
      split at h
      · cases h
      · cases h
        exact ⟨rfl, trivial⟩
    · cases h
      exact ⟨rfl, trivial⟩
  | digestLength number =>
    obtain ⟨t, ht, h⟩ := bind_eq_ok_iff.mp h
    obtain ⟨v, hv, h⟩ := bind_eq_ok_iff.mp h
    cases h
    exact ⟨t, transform_eq_ok_iff.mp ht, rfl, v, number_eq_ok_iff.mp hv⟩
  | input data =>
    obtain ⟨t, ht, h⟩ := bind_eq_ok_iff.mp h
    obtain ⟨b, hb, h⟩ := bind_eq_ok_iff.mp h
    cases h
    exact ⟨t, transform_eq_ok_iff.mp ht, rfl, b, data_eq_ok_iff.mp hb⟩

theorem transformCreate_ok {kind : TransformKind} {s : Option Ref}
    (h : newTransform r kind x s = .ok t) :
    transformCreate kind x s r = .ok (.ok ((t.retained.foldl Registry.retain r).last + 1))
      ((t.retained.foldl Registry.retain r).insert (.transform t)) := by
  -- only the key and the signature are there to retain
  obtain ⟨rfl, -⟩ := newTransform_eq_ok h
  simp only [transformCreate, h, Transform.retained_fresh, List.foldl_cons]
  rfl

theorem transformCreate_error {kind : TransformKind} {s : Option Ref} {err : ServiceError}
    (h : newTransform r kind x s = .error err) :
    transformCreate kind x s r = .ok (.error err) r := by
  simp only [transformCreate, h]

/-- A transform that does not verify is for a key alone. -/
theorem newTransform_eq {kind : TransformKind} (hx : r.object x = .ok (.key k))
    (hkind : kind ≠ .verify) (hprivate : kind.needsPrivate = true → k.material.isPrivate = true) :
    newTransform r kind x none = .ok { kind, key := x, signature := none } := by
  have hsignature : transformSignature r kind none = .ok none := by
    cases kind <;> first | rfl | exact absurd rfl hkind
  rw [newTransform, key_eq_ok_iff.mpr hx]
  simpa [hsignature] using hprivate

/-- A transform that verifies is for a key and a signature. -/
theorem newTransform_verify {b : Bytes} (hx : r.object x = .ok (.key k))
    (hd : r.object d = .ok (.data b)) :
    newTransform r .verify x (some d) = .ok { kind := .verify, key := x, signature := some d } := by
  rw [newTransform, key_eq_ok_iff.mpr hx, ok_bind, transformSignature, data_eq_ok_iff.mpr hd]
  rfl

/-- Without a signature a transform holds on to its key alone. -/
theorem transformCreate_eq {kind : TransformKind} (hx : r.object x = .ok (.key k))
    (hkind : kind ≠ .verify) (hprivate : kind.needsPrivate = true → k.material.isPrivate = true) :
    transformCreate kind x none r = .ok (.ok (r.last + 1))
      ((r.retain x).insert (.transform { kind, key := x, signature := none })) :=
  transformCreate_ok (newTransform_eq hx hkind hprivate)

theorem transformSet_error {a : Attribute} {err : ServiceError}
    (h : setting r x a = .error err) : transformSet x a r = .ok (.error err) r := by
  simp only [transformSet, h]

/-- A setting that takes no ownership back. -/
theorem transformSet_eq {a : Attribute} {s : Setting} (hs : setting r x a = .ok s)
    (hlost : s.lost = none) :
    transformSet x a r = .ok (.ok ())
      ((s.gained.toList.foldl Registry.retain r).replace x (.transform s.transform)) := by
  simp only [transformSet, hs, hlost, Option.toList_none, releaseAll_nil]

theorem transformSet_padding {p : RsaPadding} (hx : r.object x = .ok (.transform t))
    (hk : r.object t.key = .ok (.key k)) (hrsa : k.material.algorithm? = some .rsa) :
    transformSet x (.padding p) r = .ok (.ok ())
      (r.replace x (.transform { t with padding := some p })) := by
  have hs : setting r x (.padding p) = .ok ⟨{ t with padding := some p }, none, none⟩ := by
    rw [setting, transform_eq_ok_iff.mpr hx]
    by_cases hraw : p = .raw
    · simp [hraw]
    · simp [hraw, key_eq_ok_iff.mpr hk, hrsa]
  rw [transformSet_eq hs rfl]
  rfl

theorem transformSet_input {b : Bytes} (hx : r.object x = .ok (.transform t))
    (hd : r.object d = .ok (.data b)) (hnew : t.input = none) :
    transformSet x (.input d) r = .ok (.ok ())
      ((r.retain d).replace x (.transform { t with input := some d })) := by
  have hs : setting r x (.input d) =
      .ok ⟨{ t with input := some d }, some d, t.input⟩ := by
    rw [setting, transform_eq_ok_iff.mpr hx]
    simp [data_eq_ok_iff.mpr hd]
  rw [transformSet_eq hs hnew]
  rfl

/-- What encrypting or decrypting captures. -/
theorem capture_eq {b : Bytes} (hx : r.object x = .ok (.transform t))
    (hk : r.object t.key = .ok (.key k)) (hinput : t.input = some d)
    (hd : r.object d = .ok (.data b)) (hkind : t.kind = .encrypt ∨ t.kind = .decrypt) :
    capture r x = .ok ⟨t.kind, k, t.padding, none, b, none⟩ := by
  have hdigest : captureDigest r t = .ok (none, none) := by
    unfold captureDigest
    rcases hkind with h | h <;> rw [h]
  rw [capture, transform_eq_ok_iff.mpr hx]
  simp [hinput, hdigest, key_eq_ok_iff.mpr hk, data_eq_ok_iff.mpr hd]

theorem transformExecute_eq {b : Bytes} {o : NativeObject} {e : Entropy}
    (hx : r.object x = .ok (.transform t)) (hk : r.object t.key = .ok (.key k))
    (hinput : t.input = some d) (hd : r.object d = .ok (.data b))
    (hkind : t.kind = .encrypt ∨ t.kind = .decrypt)
    (hrun : Captured.run P ⟨t.kind, k, t.padding, none, b, none⟩ e = .ok o) :
    transformExecute P x e r = .ok (.ok (r.last + 1)) (r.insert o) := by
  have hmake : (do (← capture r x).run P e) = Except.ok o := by
    rw [capture_eq hx hk hinput hd hkind, ok_bind, hrun]
  exact create_ok hmake

end Keyring.Service
