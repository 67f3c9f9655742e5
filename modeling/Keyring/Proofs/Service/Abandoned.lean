import Keyring.Proofs.Service.Steps

/-!
# Calls that are abandoned

A reference without an object cannot be given back, and the call that tries it is abandoned.
Only clients that have given references back too often get there.  What the call has done by
then is not undone: if the reference was given on to it, nothing; if it comes up while a
transform is taken down, the transform is gone and what it held on to in front of it is given
back, while the rest keeps an owner that is no more; and if it was replaced by a setting, the
setting is made.

## Main definitions

* `Call.Stops` — how a call is abandoned, with the registry that it leaves.

## Main results

* `releaseAll_stops` — what is in front of a missing reference is given back, and nothing else.
* `releaseAll_enough_iff` — what has no slots is given back if there are owners enough.
* `Call.stops` — an abandoned call stops in one of these ways.
* `Call.Stops.make_eq` — and a call that can stop in one of these ways is abandoned.
* `Service.Arises.stops_exactly` — **over any history, a call is abandoned exactly if it comes
  upon a reference without an object, and leaves what it has done by then.**
-/

namespace Keyring

open Registry Service

variable {P : Provider} {r r' : Registry} {x y : Ref} {o : NativeObject} {t : Transform}
  {c : Call} {e : Entropy} {refs front back : List Ref} {halt : Halt}

/-! ### References that are missing -/

namespace Registry

/-- A reference to an object without slots is given back. -/
theorem exists_releaseAll_leaf {f : Entry} (hx : r.find? x = some f)
    (hleaf : f.object.retained = []) : ∃ r', r.releaseAll [x] = .ok () r' := by
  by_cases hc : 1 < f.count
  · exact ⟨_, by rw [releaseAll_disown hx hc, releaseAll_nil]⟩
  · exact ⟨_, by rw [releaseAll_last hx hc, hleaf, List.append_nil, releaseAll_nil]⟩

/-- What follows a reference that is given back. -/
theorem releaseAll_cons (h : r.releaseAll [x] = .ok () r') :
    r.releaseAll (x :: refs) = r'.releaseAll refs := by
  have happend : r.releaseAll (x :: refs) = _ := releaseAll_append [x] refs
  rw [happend, h]

/-- **What is in front of a missing reference is given back, and nothing else.** -/
theorem releaseAll_stops (hleaf : ∀ y ∈ refs, ∀ o, r.object y = .ok o → o.retained = [])
    (h : r.releaseAll refs = .error halt r') : halt = .overRelease ∧
      ∃ front y back, refs = front ++ y :: back ∧ r.releaseAll front = .ok () r' ∧
        r'.find? y = none := by
  induction refs generalizing r with
  | nil =>
    rw [releaseAll_nil] at h
    cases h
  | cons x rest ih =>
    cases hx : r.find? x with
    | none =>
      rw [releaseAll_none hx] at h
      cases h
      exact ⟨rfl, [], x, rest, rfl, releaseAll_nil, hx⟩
    | some f =>
      obtain ⟨r₁, h₁⟩ := exists_releaseAll_leaf hx
        (hleaf x List.mem_cons_self _ (object_of_find? hx))
      rw [releaseAll_cons h₁] at h
      have hobject := (releaseAll_object r [x]).2
      rw [h₁] at hobject
      obtain ⟨rfl, front, y, back, rfl, hfront, hy⟩ :=
        ih (fun y hy o ho => hleaf y (List.mem_cons_of_mem x hy) o (hobject y o ho)) h
      exact ⟨rfl, x :: front, y, back, rfl, (releaseAll_cons h₁).trans hfront, hy⟩

/-- Giving back references of objects without slots takes away as many owners as there are
references. -/
theorem count_releaseAll (hr : r.Sound)
    (hleaf : ∀ y ∈ refs, ∀ o, r.object y = .ok o → o.retained = [])
    (h : r.releaseAll refs = .ok () r') : r'.count y = r.count y - refs.count y := by
  rw [count, (releaseAll_leaves hr hleaf h).2, count]
  cases r.find? y with
  | none => simp
  | some f =>
    rw [Option.bind_some, Option.elim_some, Entry.adjust]
    split <;> simp_all

/-- There is enough for all of a list if there is enough for its head, and then for the rest. -/
theorem forall_count_cons_le_iff {enough : Ref → Nat} :
    (∀ z ∈ x :: refs, (x :: refs).count z ≤ enough z) ↔
      0 < enough x ∧ ∀ z ∈ refs, refs.count z ≤ enough z - [x].count z := by
  have hcons : ∀ z, (x :: refs).count z = refs.count z + [x].count z := fun z => by
    rw [List.count_cons, List.count_singleton]
  have hself : [x].count x = 1 := by simp
  constructor
  · intro h
    have hx := h x List.mem_cons_self
    rw [hcons] at hx
    refine ⟨by omega, fun z hz => ?_⟩
    have hz := h z (List.mem_cons_of_mem x hz)
    rw [hcons] at hz
    omega
  · rintro ⟨hpos, h⟩ z hz
    rw [hcons]
    by_cases hmem : z ∈ refs
    · have hrest := h z hmem
      have hthere := List.count_pos_iff.mpr hmem
      omega
    · obtain rfl : z = x := (List.mem_cons.mp hz).resolve_right hmem
      rw [List.count_eq_zero_of_not_mem hmem, hself]
      omega

/-- **References of objects without slots are given back if there are owners enough.** -/
theorem releaseAll_enough_iff (hr : r.Sound)
    (hleaf : ∀ y ∈ refs, ∀ o, r.object y = .ok o → o.retained = []) :
    (∃ r', r.releaseAll refs = .ok () r') ↔ ∀ z ∈ refs, refs.count z ≤ r.count z := by
  induction refs generalizing r with
  | nil => simp
  | cons x rest ih =>
    rw [forall_count_cons_le_iff]
    cases hx : r.find? x with
    | none =>
      rw [releaseAll_none hx]
      simp [count_of_find?_none hx]
    | some f =>
      obtain ⟨r₁, h₁⟩ := exists_releaseAll_leaf hx
        (hleaf x List.mem_cons_self _ (object_of_find? hx))
      have hsound := hr.releaseAll [x]
      have hobject := (releaseAll_object r [x]).2
      rw [h₁, finalState] at hsound
      simp only [h₁, finalState] at hobject
      have hpos : 0 < r.count x := by
        rw [count_of_find? hx]
        exact hr.count_pos x f hx
      have hcount : ∀ z, r₁.count z = r.count z - [x].count z := fun z =>
        count_releaseAll hr (fun y hy => hleaf y (by simp_all)) h₁
      -- the rest finds the owners that the first one has left
      rw [and_iff_right hpos, releaseAll_cons h₁, ih hsound fun y hy o ho =>
        hleaf y (List.mem_cons_of_mem x hy) o (hobject y o ho)]
      simp only [hcount]

/-- Nothing goes on behind a missing reference. -/
theorem releaseAll_missing (h : r.releaseAll front = .ok () r') (hy : r'.find? y = none) :
    r.releaseAll (front ++ y :: back) = .error .overRelease r' := by
  rw [releaseAll_append, h]
  exact releaseAll_none hy

/-- What holds on to something is a transform. -/
theorem exists_transform_of_mem (h : y ∈ o.retained) : ∃ t, o = .transform t := by
  cases o with
  | transform t => exact ⟨t, rfl⟩
  | _ => cases h

/-- A setting neither brings back what is gone nor removes anything. -/
theorem find?_configure_eq_none_iff {a : Attribute} :
    (r.configure x t a).find? y = none ↔ r.find? y = none := by
  rw [configure, find?_replace]
  split
  next hyx =>
    rw [find?_retainAll, Option.map_eq_none_iff, Option.map_eq_none_iff, hyx]
  · rw [find?_retainAll, Option.map_eq_none_iff]

end Registry

/-- What is gone has no owner to lose. -/
theorem Change.Leads.of_missing {d : Change} (h : d.Leads r r') (hlost : d.lost = [y])
    (hy : r.find? y = none) : Change.Leads { d with lost := [] } r r' := by
  refine ⟨h.last_eq, fun z => ?_⟩
  have hkept : d.kept r z = Change.kept { d with lost := [] } r z := by
    by_cases hz : z = y
    · rw [hz, Change.kept, Change.kept, hy, Option.bind_none, Option.bind_none]
    · have hcount : [y].count z = 0 := List.count_eq_zero_of_not_mem (by simpa using hz)
      rw [Change.kept, hlost, hcount]
      rfl
  rw [h.find?_eq, Change.entry, Change.entry, hkept]

/-! ### Calls -/

/-- How a call is abandoned, with the registry that it leaves. -/
inductive Call.Stops (r : Registry) : Call → Registry → Prop
  /-- A reference without an object is given back: nothing happens. -/
  | unknown {x : Ref} (hx : r.find? x = none) : Stops r (.release x) r
  /-- A transform loses its last owner, and something is missing of what it holds on to, at
  least by the time that what is in front of it was given back.  For all of that there are owners
  enough, and what is behind the missing reference keeps its owners. -/
  | takenDown {x y : Ref} {t : Transform} {front back : List Ref} {r' : Registry}
      (hx : r.find? x = some ⟨.transform t, 1⟩) (hretained : t.retained = front ++ y :: back)
      (henough : ∀ z ∈ front, front.count z ≤ r.count z)
      (hleads : Change.Leads { lost := x :: front } r r') (hy : r'.find? y = none) :
      Stops r (.release x) r'
  /-- A transform is set in the place of something that is missing. -/
  | replaced {x y : Ref} {t : Transform} {a : Attribute} {r' : Registry}
      (hx : r.object x = .ok (.transform t)) (ha : a.Named r) (hslot : t.slot a = some y)
      (hy : r.find? y = none)
      (hleads : Change.Leads { set := some (x, t.assign a), gained := a.ref?.toList } r r') :
      Stops r (.transformSet x a) r'

/-- No reference is given out by a call that is abandoned. -/
theorem Call.Stops.last_eq (h : c.Stops r r') : r'.last = r.last := by
  cases h with
  | unknown => rfl
  | takenDown _ _ _ hleads => exact hleads.last_eq
  | replaced _ _ _ _ hleads => exact hleads.last_eq

namespace Service

theorem error_of_afterRelease {α : Type} {a : α} {result : EStateM.Result Halt Registry Unit}
    (h : afterRelease a result = .error halt r') : result = .error halt r' := by
  cases result <;> cases h
  rfl

/-- What a transform holds on to is found in the same way once the transform is gone. -/
theorem count_erase_of_retained (hr : r.Loose) (hx : r.object x = .ok (.transform t))
    (hy : y ∈ t.retained) : (r.erase x).count y = r.count y := by
  have hyx : y ≠ x := ne_of_mem_of_not_mem hy (hr.notMem_retained hx)
  rw [count, find?_erase, if_neg hyx, count]

/-- What a transform holds on to can be given back after it if there are owners enough. -/
theorem takenDown_enough_iff (hr : r.Loose) (hx : r.find? x = some ⟨.transform t, 1⟩)
    (hfront : front ⊆ t.retained) :
    (∃ r', (r.erase x).releaseAll front = .ok () r') ↔ ∀ z ∈ front, front.count z ≤ r.count z := by
  have hobject := object_of_find? hx
  rw [releaseAll_enough_iff (hr.sound.erase x) fun y hy o ho =>
    hr.slot_leaf x _ hobject y (hfront hy) o (object_of_erase ho).2]
  refine forall₂_congr fun z hz => ?_
  rw [count_erase_of_retained hr hobject (hfront hz)]

theorem stops_of_release (hr : r.Loose) (h : r.releaseAll [x] = .error halt r') :
    halt = .overRelease ∧ Call.Stops r (.release x) r' := by
  cases hx : r.find? x with
  | none =>
    rw [releaseAll_none hx] at h
    cases h
    exact ⟨rfl, .unknown hx⟩
  | some f =>
    by_cases hc : 1 < f.count
    · rw [releaseAll_disown hx hc, releaseAll_nil] at h
      cases h
    · rw [releaseAll_last hx hc, List.append_nil] at h
      obtain ⟨rfl, front, y, back, hretained, hfront, hy⟩ := releaseAll_stops
        (fun y hy o ho => hr.slot_leaf x _ (object_of_find? hx) y hy o (object_of_erase ho).2) h
      have hsub : front ⊆ f.object.retained := hretained ▸ List.subset_append_left _ _
      have hleads := hr.leads_taken_down hx hc hsub hfront
      -- only transforms hold on to something, and the last owner is one
      obtain ⟨o, n⟩ := f
      obtain ⟨t, rfl⟩ : ∃ t, o = .transform t :=
        exists_transform_of_mem (hretained ▸ List.mem_append_right _ List.mem_cons_self)
      have hpos := hr.sound.count_pos x _ hx
      obtain rfl : n = 1 := by
        dsimp only at hc hpos
        omega
      exact ⟨rfl, .takenDown hx hretained ((takenDown_enough_iff hr hx hsub).mp ⟨r', hfront⟩)
        hleads hy⟩

/-- A setting in the place of something that is missing is made. -/
theorem leads_configure {a : Attribute} (hr : r.Loose) (hx : r.object x = .ok (.transform t))
    (hslot : t.slot a = some y) (hy : r.find? y = none) :
    Change.Leads { set := some (x, t.assign a), gained := a.ref?.toList } r
      (r.configure x t a) := by
  have hleads := leads_set (a := a) hr hx
  have hmissing := (find?_configure_eq_none_iff (x := x) (t := t) (a := a)).mpr hy
  rw [hslot, Option.toList_some, releaseAll_none hmissing, finalState] at hleads
  exact hleads.of_missing rfl hy

theorem stops_of_set {a : Attribute} (hr : r.Loose) (hx : r.object x = .ok (.transform t))
    (ha : a.Named r)
    (h : (r.configure x t a).releaseAll (t.slot a).toList = .error halt r') :
    halt = .overRelease ∧ Call.Stops r (.transformSet x a) r' := by
  have hleaf := slot_leaf_configure (a := a) hr hx
  obtain ⟨rfl, -⟩ := releaseAll_stops hleaf h
  obtain ⟨rfl, y, hslot, hy⟩ := releaseAll_slot h hleaf
  have hmissing := find?_configure_eq_none_iff.mp hy
  exact ⟨rfl, .replaced hx ha hslot hmissing (leads_configure hr hx hslot hmissing)⟩

end Service

/-- **A call that is abandoned stops in one of these ways.** -/
theorem Call.stops (hr : r.Loose) (h : c.make P e r = .error halt r') :
    halt = .overRelease ∧ c.Stops r r' := by
  have hdoes := c.does (P := P) e r
  rw [h] at hdoes
  generalize hresult : EStateM.Result.error halt r' = result at hdoes
  cases hdoes with
  | answer => cases hresult
  | leaf => cases hresult
  | transform => cases hresult
  | set hx ha => exact stops_of_set hr hx ha (error_of_afterRelease hresult.symm)
  | release x => exact stops_of_release hr (error_of_afterRelease hresult.symm)

namespace Service

/-- What takes the place of something is found in order. -/
theorem setting_of_slot {a : Attribute} (hx : r.object x = .ok (.transform t)) (ha : a.Named r)
    (hslot : t.slot a = some y) : setting r x a = .ok ⟨t.assign a, a.ref?, t.slot a⟩ := by
  cases a with
  | digestType family => cases hslot
  | padding padding => cases hslot
  | digestLength number =>
    obtain ⟨v, hv⟩ := ha
    rw [setting, transform_eq_ok_iff.mpr hx, ok_bind, number_eq_ok_iff.mpr hv]
    rfl
  | input data =>
    obtain ⟨b, hb⟩ := ha
    rw [setting, transform_eq_ok_iff.mpr hx, ok_bind, data_eq_ok_iff.mpr hb]
    rfl

/-- A transform is taken down to what is missing, and not past it. -/
theorem error_of_takenDown (hr : r.Loose) (hr' : r'.Ordered)
    (hx : r.find? x = some ⟨.transform t, 1⟩) (hretained : t.retained = front ++ y :: back)
    (henough : ∀ z ∈ front, front.count z ≤ r.count z)
    (hleads : Change.Leads { lost := x :: front } r r') (hy : r'.find? y = none) :
    r.releaseAll [x] = .error .overRelease r' := by
  have hlast : ¬1 < (⟨.transform t, 1⟩ : Entry).count := Nat.lt_irrefl 1
  have hsub : front ⊆ t.retained := hretained ▸ List.subset_append_left _ _
  obtain ⟨r'', hfront⟩ := (takenDown_enough_iff hr hx hsub).mpr henough
  have hordered := (hr.sound.erase x).releaseAll front
  rw [hfront, finalState] at hordered
  -- the change leaves no choice of what is left by then
  obtain rfl : r' = r'' :=
    hleads.unique (hr.leads_taken_down hx hlast hsub hfront) hr' hordered.ordered
  have hstep : r.releaseAll [x] = (r.erase x).releaseAll (front ++ y :: back) := by
    rw [releaseAll_last hx hlast, List.append_nil]
    exact congrArg _ hretained
  rw [hstep]
  exact releaseAll_missing hfront hy

end Service

/-- **A call that comes upon a missing reference is abandoned**, and leaves what the way it stops
says. -/
theorem Call.Stops.make_eq (hr : r.Loose) (hr' : r'.Ordered) (h : c.Stops r r') :
    c.make P e r = .error .overRelease r' := by
  cases h with
  | unknown hx => rw [make, release_reply, releaseAll_none hx, afterRelease]
  | takenDown hx hretained henough hleads hy =>
    rw [make, release_reply, error_of_takenDown hr hr' hx hretained henough hleads hy, afterRelease]
  | @replaced x y t a r' hx ha hslot hy hleads =>
    have hmissing := (find?_configure_eq_none_iff (x := x) (t := t) (a := a)).mpr hy
    obtain rfl : r' = r.configure x t a :=
      hleads.unique (leads_configure hr hx hslot hy) hr' (loose_configure hr hx ha).sound.ordered
    rw [make, reply_afterRelease (transformSet_of_setting (setting_of_slot hx ha hslot)), hslot,
      Option.toList_some, releaseAll_none hmissing, afterRelease]

/-! ### A signature that is gone -/

namespace Service

/-- A transform that verifies a signature of which nothing is left: its creator has given it back
twice. -/
def signatureFreed : Registry :=
  ⟨3, [(1, ⟨sampleKey, 2⟩), (3, ⟨.transform (.fresh .verify 1 (some 2)), 1⟩)]⟩

theorem arises_signatureFreed : Arises .standard signatureFreed := by
  let e : Entropy := fun _ => 0
  let t : Transform := .fresh .verify 1 (some 2)
  let held : Registry := ⟨3, [(1, ⟨sampleKey, 2⟩), (2, ⟨.data [7], 2⟩), (3, ⟨.transform t, 1⟩)]⟩
  have h₁ : Arises .standard ⟨1, [(1, ⟨sampleKey, 1⟩)]⟩ :=
    Arises.start.next createSample e (make_createSample e)
  have h₂ : Arises .standard ⟨2, [(1, ⟨sampleKey, 1⟩), (2, ⟨.data [7], 1⟩)]⟩ :=
    h₁.next (.dataCreate [7]) e rfl
  have h₃ : Arises .standard held := h₂.next (.transformCreate .verify 1 (some 2)) e rfl
  have hfirst : held.releaseAll [2] = .ok () (held.modify 2 Entry.disown) := by
    rw [releaseAll_disown (e := ⟨.data [7], 2⟩) rfl (by decide), releaseAll_nil]
  have h₄ : Arises .standard (held.modify 2 Entry.disown) :=
    h₃.next (.release 2) e (Call.make_release hfirst)
  have hsecond : (held.modify 2 Entry.disown).releaseAll [2] = .ok () signatureFreed := by
    rw [releaseAll_last (e := ⟨.data [7], 1⟩) rfl (by decide)]
    exact releaseAll_nil
  exact h₄.next (.release 2) e (Call.make_release hsecond)

/-- Giving the transform back is abandoned, but only after it was removed and has let go of its
key. -/
theorem make_signatureFreed (e : Entropy) : Call.make .standard e (.release 3) signatureFreed =
    .error .overRelease ⟨3, [(1, ⟨sampleKey, 1⟩)]⟩ := by
  have hkey : (signatureFreed.erase 3).releaseAll [1] = .ok () ⟨3, [(1, ⟨sampleKey, 1⟩)]⟩ := by
    rw [releaseAll_disown (e := ⟨sampleKey, 2⟩) rfl (by decide)]
    exact releaseAll_nil
  have hrelease : signatureFreed.releaseAll [3] =
      .error .overRelease ⟨3, [(1, ⟨sampleKey, 1⟩)]⟩ := by
    rw [releaseAll_last (e := ⟨.transform (.fresh .verify 1 (some 2)), 1⟩) rfl (by decide)]
    show (signatureFreed.erase 3).releaseAll ([1] ++ 2 :: []) = _
    exact releaseAll_missing hkey rfl
  rw [Call.make, release_reply, hrelease, afterRelease]

/-- **Over any history, a call is abandoned exactly if it comes upon a reference without an
object, and leaves what it has done by then**, in one way only. -/
theorem Arises.stops_exactly (h : Arises P r) (c : Call) (e : Entropy) :
    (∀ halt r', c.make P e r = .error halt r' →
      halt = .overRelease ∧ r'.last = r.last ∧ r'.Ordered ∧ c.Stops r r') ∧
    ∀ r', r'.Ordered → c.Stops r r' → c.make P e r = .error .overRelease r' := by
  refine ⟨fun halt r' hmake => ?_, fun r' hr' hstops => hstops.make_eq h.loose hr'⟩
  obtain ⟨hhalt, hstops⟩ := Call.stops h.loose hmake
  have hloose := c.loose (P := P) e h.loose
  rw [hmake, finalState] at hloose
  exact ⟨hhalt, hstops.last_eq, hloose.sound.ordered, hstops⟩

/-- What happens to a transform with a signature that is gone. -/
theorem stops_exactly_signatureFreed : ∃ r', Arises .standard signatureFreed ∧
    Call.make .standard (fun _ => 0) (.release 3) signatureFreed = .error .overRelease r' ∧
    r'.last = signatureFreed.last ∧ r'.Ordered ∧ Call.Stops signatureFreed (.release 3) r' ∧
    ∀ r'', r''.Ordered → Call.Stops signatureFreed (.release 3) r'' → r'' = r' := by
  have hmake := make_signatureFreed fun _ => 0
  obtain ⟨hstops, hmakes⟩ := arises_signatureFreed.stops_exactly (.release 3) fun _ => 0
  obtain ⟨-, hlast, hordered, hstops⟩ := hstops _ _ hmake
  refine ⟨_, arises_signatureFreed, hmake, hlast, hordered, hstops, fun r'' hr'' hstops'' => ?_⟩
  have hsame := (hmakes r'' hr'' hstops'').symm.trans hmake
  cases hsame
  rfl

/-- A call that is abandoned may have changed the registry: here the transform is gone, and its
key has an owner less. -/
theorem abandoned_midway : Arises .standard signatureFreed ∧
    Call.make .standard (fun _ => 0) (.release 3) signatureFreed =
      .error .overRelease ⟨3, [(1, ⟨sampleKey, 1⟩)]⟩ ∧
    (⟨3, [(1, ⟨sampleKey, 1⟩)]⟩ : Registry) ≠ signatureFreed := by
  refine ⟨arises_signatureFreed, make_signatureFreed _, fun heq => ?_⟩
  have hsize := congrArg Registry.size heq
  exact absurd hsize (by decide)

end Service

end Keyring
