import Keyring.Proofs.Service.Steps

/-!
# References may be given back in any order

A transform that is freed takes with it what only it held on to, so what is there between two
releases depends on their order: an object goes when it is given back, or with the one transform
or the other.  In the end the order does not matter.  Counts are exact all the time, and what has
an owner is there: so what is there in the end is what callers still own, and what the transforms
among it hold on to.

## Main results

* `Registry.Balanced.ext` — a balanced registry is determined by its objects.
* `Registry.Balanced.object_iff` — which objects are left.
* `Service.Reaches.release_any_order` — **references may be given back in any order.**
-/

namespace Keyring

open Registry

variable {P : Provider} {r r' : Registry} {x y : Ref} {o : NativeObject} {t : Transform}
  {owned : Multiset Ref}

namespace Registry

/-! ### A registry by its objects -/

/-- The objects of a registry, under their references. -/
def objects (r : Registry) : List (Ref × NativeObject) := r.entries.map fun p => (p.1, p.2.object)

theorem Ordered.mem_objects_iff (hr : r.Ordered) : (x, o) ∈ r.objects ↔ r.object x = .ok o := by
  rw [objects, List.mem_map, object_eq_ok_iff]
  constructor
  · rintro ⟨⟨z, e⟩, hmem, heq⟩
    cases heq
    exact ⟨e, hr.find?_eq_some_iff.mpr hmem, rfl⟩
  · rintro ⟨e, he, rfl⟩
    exact ⟨(x, e), mem_of_find? he, rfl⟩

theorem holders_eq_objects :
    r.holders x = (r.objects.map fun p => p.2.retained.count x).sum := by
  rw [holders_eq, objects, List.map_map]
  rfl

/-- Slots are those of the objects. -/
theorem Ordered.holders_congr (hr : r.Ordered) (hr' : r'.Ordered)
    (h : ∀ x o, r.object x = .ok o ↔ r'.object x = .ok o) : r.holders y = r'.holders y := by
  have hobjects : r.objects = r'.objects := by
    refine eq_of_ascending (List.pairwise_map.mpr hr.ascending)
      (List.pairwise_map.mpr hr'.ascending) fun p => ?_
    obtain ⟨x, o⟩ := p
    rw [hr.mem_objects_iff, hr'.mem_objects_iff, h]
  rw [holders_eq_objects, holders_eq_objects, hobjects]

namespace Balanced

/-- **A balanced registry is determined by its objects**, and by what callers own of them. -/
theorem ext (hr : r.Balanced owned) (hr' : r'.Balanced owned) (hlast : r.last = r'.last)
    (h : ∀ x o, r.object x = .ok o ↔ r'.object x = .ok o) : r = r' := by
  refine hr.ordered.ext hr'.ordered hlast fun x => ?_
  cases he : r.find? x with
  | none =>
    cases he' : r'.find? x with
    | none => rfl
    | some e' =>
      obtain ⟨e, hsome, -⟩ := object_eq_ok_iff.mp ((h x _).mpr (object_of_find? he'))
      rw [he] at hsome
      cases hsome
  | some e =>
    obtain ⟨e', he', hobject⟩ := object_eq_ok_iff.mp ((h x _).mp (object_of_find? he))
    -- owners are counted, and these are the same ones
    have hcount : e.count = e'.count := by
      rw [hr.count_of_find? he, hr'.count_of_find? he', hr.ordered.holders_congr hr'.ordered h]
    rw [he']
    obtain ⟨object, count⟩ := e
    obtain ⟨object', count'⟩ := e'
    cases hobject
    cases hcount
    rfl

/-! ### What is left -/

/-- A transform has its owners among the callers. -/
theorem mem_of_transform (hr : r.Balanced owned) (ht : r.object x = .ok (.transform t)) :
    x ∈ owned := by
  obtain ⟨e, he, -⟩ := object_eq_ok_iff.mp ht
  rcases hr.exists_find?_iff.mp ⟨e, he⟩ with hown | hheld
  · exact hown
  · have hpos := (holders_pos_iff hr.ordered).mpr hheld
    have hzero := hr.shallow.holders_eq_zero hr.ordered ht (List.cons_ne_nil _ _)
    exact absurd hzero (Nat.ne_of_gt hpos)

/-- An object is there exactly if callers own it or a transform holds on to it. -/
theorem exists_object_iff (hr : r.Balanced owned) :
    (∃ e, r.find? x = some e) ↔
      x ∈ owned ∨ ∃ z t, r.object z = .ok (.transform t) ∧ some x ∈ t.slots := by
  rw [hr.exists_find?_iff, Service.exists_transform_iff]

/-- What is left of the objects of a registry: what callers own, and what the transforms among
it hold on to. -/
theorem object_iff (hr' : r'.Balanced owned)
    (hleft : ∀ y o, r'.object y = .ok o → r.object y = .ok o) :
    r'.object y = .ok o ↔ r.object y = .ok o ∧
      (y ∈ owned ∨ ∃ z ∈ owned, ∃ t, r.object z = .ok (.transform t) ∧ some y ∈ t.slots) := by
  constructor
  · intro ho
    obtain ⟨e, he, -⟩ := object_eq_ok_iff.mp ho
    refine ⟨hleft y o ho, (hr'.exists_object_iff.mp ⟨e, he⟩).imp_right ?_⟩
    rintro ⟨z, t, ht, hy⟩
    exact ⟨z, hr'.mem_of_transform ht, t, hleft z _ ht, hy⟩
  · rintro ⟨ho, howner⟩
    have hthere : ∀ {z o'}, (∃ e, r'.find? z = some e) → r.object z = .ok o' →
        r'.object z = .ok o' := by
      rintro z o' ⟨e, he⟩ ho'
      have hbefore := hleft z _ (object_of_find? he)
      rw [ho'] at hbefore
      cases hbefore
      exact object_of_find? he
    refine hthere (hr'.exists_object_iff.mpr (howner.imp_right ?_)) ho
    rintro ⟨z, hz, t, ht, hy⟩
    exact ⟨z, t, hthere (hr'.exists_find?_of_mem hz) ht, hy⟩

end Balanced

end Registry

/-! ### Histories -/

namespace Service

/-- A reference is owned by its one creator. -/
theorem Reaches.nodup (h : Reaches P r owned) : owned.Nodup := by
  induction h with
  | start => exact Multiset.nodup_zero
  | @call r r' owned reply c e h hgives hmake ih =>
    have hkept : (owned - c.gives).Nodup := Multiset.nodup_of_le (Multiset.sub_le_self _ _) ih
    have hdoes := c.does (P := P) e r
    rw [hmake] at hdoes
    rcases hdoes.owns_or_new h.balanced.loose with howns | ⟨rfl, -⟩
    · rwa [howns, Multiset.add_zero]
    · rw [Reply.owns, Multiset.add_comm, Multiset.singleton_add, Multiset.nodup_cons]
      refine ⟨fun hmem => ?_, hkept⟩
      have hzero := h.balanced.count_last.1
      exact Multiset.count_eq_zero.mp hzero (Multiset.mem_of_le (Multiset.sub_le_self _ _) hmem)

/-- **References may be given back in any order.**  From any registry that callers have reached
by giving back what they own and nothing else, and for any references that they own, giving these
back in whatever order meets no missing entry and leads to the same registry.  The objects in it
are the ones before, each with the callers and slots that are left as its owners.  Transforms are
freed by being given back only, and of the rest exactly what was given back and what the freed
transforms held on to alone is gone, if no transform is left that holds on to it. -/
theorem Reaches.release_any_order (h : Reaches P r owned) {xs : List Ref} (hnodup : xs.Nodup)
    (hown : ∀ x ∈ xs, x ∈ owned) :
    ∃ r', (∀ ys : List Ref, ys.Perm xs → ys.forM Service.release r = .ok () r') ∧
      (∀ y e, r'.find? y = some e →
        r.object y = .ok e.object ∧ e.count = (owned - ↑xs).count y + r'.holders y) ∧
      (∀ z t, r'.object z = .ok (.transform t) ↔ r.object z = .ok (.transform t) ∧ z ∉ xs) ∧
      ∀ y o, r.object y = .ok o → (r'.find? y = none ↔
        (y ∈ xs ∨ y ∉ owned ∧ ∃ z ∈ xs, ∃ t, r.object z = .ok (.transform t) ∧ some y ∈ t.slots) ∧
          ∀ z t, r'.object z = .ok (.transform t) → some y ∉ t.slots) := by
  have hle : (xs : Multiset Ref) ≤ owned :=
    (Multiset.le_iff_subset (Multiset.coe_nodup.mpr hnodup)).mpr hown
  have hbal : r.Balanced (↑xs + (owned - ↑xs)) := by
    rw [Multiset.add_comm, Multiset.sub_add_cancel hle]
    exact h.balanced
  have hkept : ∀ y, y ∈ owned - ↑xs ↔ y ∈ owned ∧ y ∉ xs := by
    intro y
    rw [Multiset.mem_sub_of_nodup h.nodup, Multiset.mem_coe]
  obtain ⟨r', hrelease, hbal'⟩ := hbal.releaseAll
  obtain ⟨hlast, hleft⟩ := releaseAll_object r xs
  rw [hrelease] at hlast hleft
  have htransform : ∀ z t, r'.object z = .ok (.transform t) ↔
      r.object z = .ok (.transform t) ∧ z ∉ xs := by
    intro z t
    constructor
    · intro ht
      exact ⟨hleft z _ ht, ((hkept z).mp (hbal'.mem_of_transform ht)).2⟩
    · rintro ⟨ht, hz⟩
      exact (hbal'.object_iff hleft).mpr
        ⟨ht, .inl ((hkept z).mpr ⟨h.balanced.mem_of_transform ht, hz⟩)⟩
  refine ⟨r', fun ys hys => ?_, fun y e he => ?_, htransform, fun y o ho => ?_⟩
  · -- another order leaves the same objects
    rw [← Multiset.coe_eq_coe.mpr hys] at hbal
    obtain ⟨r'', hrelease', hbal''⟩ := hbal.releaseAll
    rw [Multiset.coe_eq_coe.mpr hys] at hbal''
    obtain ⟨hlast', hleft'⟩ := releaseAll_object r ys
    rw [hrelease'] at hlast' hleft'
    have heq : r'' = r' := hbal''.ext hbal' (hlast'.trans hlast.symm) fun x o => by
      rw [hbal''.object_iff hleft', hbal'.object_iff hleft]
    rw [forM_release, hrelease', heq]
  · exact ⟨hleft y _ (object_of_find? he), hbal'.count_of_find? he⟩
  · have hgone : r'.find? y = none ↔ ¬(y ∈ owned - ↑xs ∨
        ∃ z t, r'.object z = .ok (.transform t) ∧ some y ∈ t.slots) := by
      rw [← hbal'.exists_object_iff, ← Option.isSome_iff_exists]
      simp
    rw [hgone, not_or, hkept]
    obtain ⟨e, he, -⟩ := object_eq_ok_iff.mp ho
    have hbefore := h.balanced.exists_object_iff.mp ⟨e, he⟩
    constructor
    · rintro ⟨hnot, hheld⟩
      refine ⟨?_, fun z t ht hy => hheld ⟨z, t, ht, hy⟩⟩
      by_cases hy : y ∈ owned
      · exact .inl (not_not.mp fun hxs => hnot ⟨hy, hxs⟩)
      · obtain ⟨z, t, ht, hyt⟩ := hbefore.resolve_left hy
        -- a holder that was not given back would still be there
        refine .inr ⟨hy, z, not_not.mp fun hz => ?_, t, ht, hyt⟩
        exact hheld ⟨z, t, (htransform z t).mpr ⟨ht, hz⟩, hyt⟩
    · rintro ⟨hwhy, hheld⟩
      refine ⟨fun hmem => ?_, fun ⟨z, t, ht, hy⟩ => hheld z t ht hy⟩
      rcases hwhy with hy | ⟨hy, -⟩
      · exact hmem.2 hy
      · exact hy hmem.1

/-- A key, a signature and the transform for them: the key goes with the transform, or after it. -/
theorem release_any_order_verifying : ∃ r r', Reaches .standard r {1, 2, 3} ∧
    [1, 3].forM Service.release r = .ok () r' ∧ [3, 1].forM Service.release r = .ok () r' ∧
    r'.find? 1 = none ∧ r'.find? 2 ≠ none := by
  let e : Entropy := fun _ => 0
  let verifying : Transform := { kind := .verify, key := 1, signature := some 2 }
  let full : Registry :=
    ⟨3, [(1, ⟨sampleKey, 2⟩), (2, ⟨.data [7], 2⟩), (3, ⟨.transform verifying, 1⟩)]⟩
  have h₁ : Reaches .standard ⟨1, [(1, ⟨sampleKey, 1⟩)]⟩ {1} :=
    Reaches.start.next createSample e (by decide) (make_createSample e) rfl
  have h₂ : Reaches .standard ⟨2, [(1, ⟨sampleKey, 1⟩), (2, ⟨.data [7], 1⟩)]⟩ {1, 2} :=
    h₁.next (.dataCreate [7]) e (by decide) rfl rfl
  have h₃ : Reaches .standard full {1, 2, 3} :=
    h₂.next (.transformCreate .verify 1 (some 2)) e (by decide) rfl rfl
  obtain ⟨r', hany, -, htransform, hgone⟩ :=
    h₃.release_any_order (show ([1, 3] : List Ref).Nodup by decide) (by decide)
  have hnone : ∀ z t, r'.object z = .ok (.transform t) → False := by
    intro z t ht
    obtain ⟨hz, hnot⟩ := (htransform z t).mp ht
    have hmem : z ∈ ({1, 2, 3} : Multiset Ref) := h₃.balanced.mem_of_transform hz
    simp only [Multiset.insert_eq_cons, Multiset.mem_cons, Multiset.mem_singleton] at hmem
    rcases hmem with rfl | rfl | rfl
    · exact hnot (by decide)
    · cases hz
    · exact hnot (by decide)
  refine ⟨full, r', h₃, hany _ (.refl _), hany _ (by decide), ?_, fun h => ?_⟩
  · exact (hgone 1 sampleKey rfl).mpr ⟨.inl (by decide), fun z t ht => (hnone z t ht).elim⟩
  · rcases ((hgone 2 (.data [7]) rfl).mp h).1 with hmem | ⟨hmem, -⟩
    · exact absurd hmem (by decide)
    · exact hmem (by decide)

end Service

end Keyring
