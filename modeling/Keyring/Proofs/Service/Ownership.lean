import Keyring.Proofs.Service.Registry
import Mathlib.Algebra.BigOperators.Group.List.Basic
import Mathlib.Algebra.GroupWithZero.Nat
import Mathlib.Data.List.ReduceOption
import Mathlib.Data.Multiset.AddSub
import Mathlib.Data.Multiset.Count

/-!
# Who owns the objects of the registry

An object is owned by callers and by the transforms that hold on to it.  A registry is
balanced against a bag of caller ownerships if every entry counts exactly these owners.
No change makes or loses an ownership on the way: retaining an object adds one to the bag,
creating or changing a transform moves some from the bag into its slots, removing a
transform moves them back, and giving a reference back takes one out.

## Main definitions

* `Transform.slots`, `NativeObject.slots` — where references are held on to.
* `Registry.count`, `Registry.holders` — the recorded owners and those among the objects.
* `Registry.Shallow` — slots name objects that have no slots.
* `Registry.Balanced r owned` — every entry counts its owners in `r` and in `owned`.

## Main results

* `Balanced.retain`, `Balanced.insert`, `Balanced.replace` — the bag under changes.
* `Balanced.releaseAll` — **giving back what is owned meets no missing entry.**
* `Balanced.entries_eq_nil` — without caller ownerships there are no objects.
-/

namespace Keyring

/-! ### Slots -/

/-- The slots of a transform. -/
def Transform.slots (t : Transform) : List (Option Ref) :=
  [some t.key, t.signature, t.digestLength, t.input]

/-- The slots of an object: only transforms have any. -/
def NativeObject.slots : NativeObject → List (Option Ref)
  | transform t => t.slots
  | _ => []

/-- What an object holds on to is what its slots name. -/
theorem NativeObject.reduceOption_slots (o : NativeObject) : o.slots.reduceOption = o.retained := by
  cases o with
  | transform t =>
    obtain ⟨kind, key, signature, digestType, digestLength, padding, input⟩ := t
    cases signature <;> cases digestLength <;> cases input <;> rfl
  | _ => rfl

theorem NativeObject.mem_slots_iff {o : NativeObject} {x : Ref} :
    some x ∈ o.slots ↔ x ∈ o.retained := by
  rw [← o.reduceOption_slots, List.reduceOption_mem_iff]

theorem NativeObject.count_slots (o : NativeObject) (x : Ref) :
    o.slots.count (some x) = o.retained.count x := by
  rw [← o.reduceOption_slots, List.reduceOption, List.count_filterMap, List.count_eq_countP]
  rfl

theorem Transform.mem_slots_iff {t : Transform} {x : Ref} : some x ∈ t.slots ↔ x ∈ t.retained :=
  NativeObject.mem_slots_iff (o := .transform t)

end Keyring

namespace Keyring.Registry

variable {r : Registry} {x y : Ref} {e : Entry} {o : NativeObject} {owned : Multiset Ref}

/-- The number of owners that a registry records of a reference; zero without an entry. -/
def count (r : Registry) (x : Ref) : Nat := (r.find? x).elim 0 Entry.count

/-- How many slots of the objects of a registry name a reference. -/
def holders (r : Registry) (x : Ref) : Nat :=
  (r.entries.map fun p => p.2.object.slots.count (some x)).sum

theorem holders_eq : r.holders x = (r.entries.map fun p => p.2.object.retained.count x).sum := by
  simp only [holders, NativeObject.count_slots]

theorem count_of_find? (h : r.find? x = some e) : r.count x = e.count := by
  rw [count, h, Option.elim_some]

theorem count_of_find?_none (h : r.find? x = none) : r.count x = 0 := by
  rw [count, h, Option.elim_none]

/-! ### Slots under changes of the registry -/

theorem holders_insert : (r.insert o).holders y = r.holders y + o.retained.count y := by
  simp [holders_eq, insert]

/-- Changes of counts leave the slots alone. -/
theorem holders_modify {f : Entry → Entry} (hf : ∀ e, (f e).object = e.object) :
    (r.modify x f).holders y = r.holders y := by
  rw [holders, modify, List.map_map, holders]
  refine congrArg List.sum (List.map_congr_left fun p _ => ?_)
  simp only [Function.comp_apply]
  split
  · rw [hf]
  · rfl

theorem holders_of_entries_eq {before after : List (Ref × Entry)}
    (h : r.entries = before ++ (x, e) :: after) :
    r.holders y = (before.map fun p => p.2.object.retained.count y).sum +
      (e.object.retained.count y + (after.map fun p => p.2.object.retained.count y).sum) := by
  rw [holders_eq, h, List.map_append, List.sum_append, List.map_cons, List.sum_cons]

/-- A replaced object gives up its slots for those of the new one. -/
theorem holders_replace (hr : r.Ordered) (h : r.find? x = some e) :
    (r.replace x o).holders y + e.object.retained.count y =
      r.holders y + o.retained.count y := by
  obtain ⟨before, after, hentries, hbefore, hafter⟩ := hr.split h
  have hmap : ∀ l : List (Ref × Entry), (∀ p ∈ l, p.1 ≠ x) →
      l.map (fun p => if p.1 = x then (p.1, { p.2 with object := o }) else p) = l := by
    intro l hl
    refine (List.map_congr_left fun p hp => ?_).trans (List.map_id l)
    rw [if_neg (hl p hp), id]
  have hreplace : (r.replace x o).entries = before ++ (x, { e with object := o }) :: after := by
    rw [replace, modify, hentries, List.map_append, List.map_cons, hmap before hbefore,
      hmap after hafter, if_pos rfl]
  rw [holders_of_entries_eq hentries, holders_of_entries_eq hreplace]
  dsimp only
  omega

/-- A removed object gives up its slots. -/
theorem holders_erase (hr : r.Ordered) (h : r.find? x = some e) :
    (r.erase x).holders y + e.object.retained.count y = r.holders y := by
  obtain ⟨before, after, hentries, hbefore, hafter⟩ := hr.split h
  have hfilter : ∀ l : List (Ref × Entry), (∀ p ∈ l, p.1 ≠ x) →
      l.filter (fun p => p.1 != x) = l := fun l hl =>
    List.filter_eq_self.mpr fun p hp => bne_iff_ne.mpr (hl p hp)
  have herase : (r.erase x).entries = before ++ after := by
    rw [erase, hentries, List.filter_append, List.filter_cons_of_neg (by simp),
      hfilter before hbefore, hfilter after hafter]
  have hrest : (r.erase x).holders y = (before.map fun p => p.2.object.retained.count y).sum +
      (after.map fun p => p.2.object.retained.count y).sum := by
    rw [holders_eq, herase, List.map_append, List.sum_append]
  rw [holders_of_entries_eq hentries, hrest]
  omega

/-- A reference is named by a slot exactly if some object holds on to it. -/
theorem holders_pos_iff (hr : r.Ordered) :
    0 < r.holders x ↔ ∃ y o, r.object y = .ok o ∧ x ∈ o.retained := by
  rw [holders, List.sum_pos_iff_exists_pos_nat]
  constructor
  · rintro ⟨n, hn, hpos⟩
    obtain ⟨⟨y, e⟩, hmem, rfl⟩ := List.mem_map.mp hn
    exact ⟨y, e.object, object_eq_ok_iff.mpr ⟨e, hr.find?_eq_some_iff.mpr hmem, rfl⟩,
      NativeObject.mem_slots_iff.mp (List.count_pos_iff.mp hpos)⟩
  · rintro ⟨y, o, ho, hmem⟩
    obtain ⟨e, he, rfl⟩ := object_eq_ok_iff.mp ho
    exact ⟨_, List.mem_map.mpr ⟨(y, e), mem_of_find? he, rfl⟩,
      List.count_pos_iff.mpr (NativeObject.mem_slots_iff.mpr hmem)⟩

/-! ### Slots name objects without slots -/

/-- A reference names an object without slots. -/
def IsLeaf (r : Registry) (x : Ref) : Prop := ∃ o, r.object x = .ok o ∧ o.retained = []

/-- What an object holds on to is there, and holds on to nothing itself. -/
def Shallow (r : Registry) : Prop := ∀ x o, r.object x = .ok o → ∀ y ∈ o.retained, r.IsLeaf y

namespace Shallow

theorem empty : Shallow {} := by
  intro x o ho
  obtain ⟨e, he, -⟩ := object_eq_ok_iff.mp ho
  cases he

/-- Nothing holds on to an object that has slots. -/
theorem holders_eq_zero (hs : r.Shallow) (hr : r.Ordered) (h : r.object x = .ok o)
    (ho : o.retained ≠ []) : r.holders x = 0 := by
  refine Nat.eq_zero_of_not_pos fun hpos => ?_
  obtain ⟨y, o', ho', hx⟩ := (holders_pos_iff hr).mp hpos
  obtain ⟨o'', ho'', hnil⟩ := hs y o' ho' x hx
  rw [h] at ho''
  cases ho''
  exact ho hnil

theorem modify {f : Entry → Entry} (hs : r.Shallow) (hf : ∀ e, (f e).object = e.object) :
    (r.modify x f).Shallow := by
  intro y o ho z hz
  rw [object_modify hf] at ho
  rw [IsLeaf, object_modify hf]
  exact hs y o ho z hz

theorem insert (hs : r.Shallow) (hr : r.Ordered) (ho : ∀ y ∈ o.retained, r.IsLeaf y) :
    (r.insert o).Shallow := by
  intro x o' hx y hy
  have hleaf : r.IsLeaf y := by
    rcases (object_insert_eq_ok_iff hr).mp hx with ⟨-, rfl⟩ | hx
    · exact ho y hy
    · exact hs x o' hx y hy
  obtain ⟨o'', ho'', hnil⟩ := hleaf
  exact ⟨o'', object_insert_of_ok hr ho'', hnil⟩

theorem replace (hs : r.Shallow) (h : r.find? x = some e) (he : e.object.retained ≠ [])
    (ho : ∀ y ∈ o.retained, r.IsLeaf y) : (r.replace x o).Shallow := by
  intro z o' hz y hy
  have hleaf : r.IsLeaf y := by
    by_cases hzx : z = x
    · subst hzx
      rw [object_replace_self h] at hz
      cases hz
      exact ho y hy
    · rw [object_replace_of_ne hzx] at hz
      exact hs z o' hz y hy
  obtain ⟨o'', ho'', hnil⟩ := hleaf
  -- a leaf is not the object that is replaced, which has slots
  have hyx : y ≠ x := by
    rintro rfl
    rw [object_eq_ok_iff.mpr ⟨e, h, rfl⟩] at ho''
    cases ho''
    exact he hnil
  exact ⟨o'', by rw [object_replace_of_ne hyx, ho''], hnil⟩

theorem erase (hs : r.Shallow) (hr : r.Ordered) (hx : r.holders x = 0) : (r.erase x).Shallow := by
  intro z o hz y hy
  have hbefore := (object_of_erase hz).2
  have hyx : y ≠ x := by
    rintro rfl
    exact absurd hx (Nat.ne_of_gt ((holders_pos_iff hr).mpr ⟨z, o, hbefore, hy⟩))
  rw [IsLeaf, object_erase_of_ne hyx]
  exact hs z o hbefore y hy

end Shallow

/-! ### Giving back the first of several references -/

@[simp] theorem releaseAll_nil : r.releaseAll [] = .ok () r := by
  rw [releaseAll]

theorem releaseAll_none {rest : List Ref} (h : r.find? x = none) :
    r.releaseAll (x :: rest) = .error .overRelease r := by
  rw [releaseAll]
  split
  · rfl
  · next f hf => rw [h] at hf; cases hf

theorem releaseAll_disown {rest : List Ref} (h : r.find? x = some e) (hc : 1 < e.count) :
    r.releaseAll (x :: rest) = (r.modify x Entry.disown).releaseAll rest := by
  rw [releaseAll]
  split
  · next hnone => rw [h] at hnone; cases hnone
  · next f hf =>
    rw [h, Option.some.injEq] at hf
    subst hf
    rw [dif_pos hc]

theorem releaseAll_last {rest : List Ref} (h : r.find? x = some e) (hc : ¬1 < e.count) :
    r.releaseAll (x :: rest) = (r.erase x).releaseAll (e.object.retained ++ rest) := by
  rw [releaseAll]
  split
  · next hnone => rw [h] at hnone; cases hnone
  · next f hf =>
    rw [h, Option.some.injEq] at hf
    subst hf
    rw [dif_neg hc]

/-- References are given back one after the other. -/
theorem releaseAll_append (xs ys : List Ref) :
    r.releaseAll (xs ++ ys) =
      match r.releaseAll xs with
      | .ok _ r' => r'.releaseAll ys
      | .error h r' => .error h r' := by
  induction r, xs using Registry.releaseAll.induct with
  | case1 r => rw [List.nil_append, releaseAll_nil]
  | case2 r x rest h => rw [List.cons_append, releaseAll_none h, releaseAll_none h]
  | case3 r x rest e h hc _ ih =>
    rw [List.cons_append, releaseAll_disown h hc, releaseAll_disown h hc, ih]
  | case4 r x rest e h hc _ ih =>
    rw [List.cons_append, releaseAll_last h hc, releaseAll_last h hc, ← List.append_assoc, ih]

theorem forM_release (r : Registry) (refs : List Ref) :
    refs.forM Service.release r = r.releaseAll refs := by
  induction refs generalizing r with
  | nil => rw [releaseAll_nil]; rfl
  | cons x rest ih =>
    have happend : r.releaseAll (x :: rest) = _ := releaseAll_append [x] rest
    show EStateM.bind (Service.release x) (fun _ => rest.forM Service.release) r = _
    rw [happend, EStateM.bind, Service.release]
    cases r.releaseAll [x] with
    | ok u r' => exact ih r'
    | error h r' => rfl

/-! ### Balance -/

/-- Every entry counts its owners: the callers in `owned` and the slots that name it. -/
structure Balanced (r : Registry) (owned : Multiset Ref) : Prop where
  /-- References ascend. -/
  ordered : r.Ordered
  /-- Slots name objects without slots. -/
  shallow : r.Shallow
  /-- The recorded owners are the actual ones. -/
  count_eq : ∀ x, r.count x = owned.count x + r.holders x
  /-- An entry has an owner. -/
  count_pos : ∀ x e, r.find? x = some e → 0 < e.count

namespace Balanced

theorem empty : Balanced {} 0 := ⟨.empty, .empty, fun _ => rfl, by simp⟩

theorem sound (hr : r.Balanced owned) : r.Sound := ⟨hr.ordered, hr.count_pos⟩

theorem count_of_find? (hr : r.Balanced owned) (h : r.find? x = some e) :
    e.count = owned.count x + r.holders x := by
  rw [← hr.count_eq, Registry.count_of_find? h]

/-- Exactly what has an owner is there. -/
theorem exists_find?_iff (hr : r.Balanced owned) :
    (∃ e, r.find? x = some e) ↔ x ∈ owned ∨ ∃ y o, r.object y = .ok o ∧ x ∈ o.retained := by
  rw [← Multiset.count_pos, ← holders_pos_iff hr.ordered, ← Nat.add_pos_iff_pos_or_pos,
    ← hr.count_eq]
  constructor
  · rintro ⟨e, he⟩
    rw [Registry.count_of_find? he]
    exact hr.count_pos x e he
  · intro hpos
    cases hfind : r.find? x with
    | none => exact absurd hpos (by rw [count_of_find?_none hfind]; exact Nat.lt_irrefl 0)
    | some e => exact ⟨e, rfl⟩

theorem exists_find?_of_mem (hr : r.Balanced owned) (h : x ∈ owned) : ∃ e, r.find? x = some e :=
  hr.exists_find?_iff.mpr (.inl h)

/-- A reference that was not given out has no owner. -/
theorem count_last (hr : r.Balanced owned) :
    owned.count (r.last + 1) = 0 ∧ r.holders (r.last + 1) = 0 := by
  have hcount := hr.count_eq (r.last + 1)
  rw [count_of_find?_none (hr.ordered.find?_eq_none (Nat.lt_succ_self _))] at hcount
  omega

/-- Retaining an object adds an ownership. -/
theorem retain (hr : r.Balanced owned) (h : r.find? x = some e) :
    (r.retain x).Balanced (x ::ₘ owned) where
  ordered := hr.ordered.retain x
  shallow := hr.shallow.modify fun _ => rfl
  count_eq := by
    intro y
    have hcount := hr.count_eq y
    have hholders : (r.retain x).holders y = r.holders y := holders_modify fun _ => rfl
    rw [hholders]
    by_cases hy : y = x
    · subst hy
      have hfind : (r.retain y).find? y = some { e with count := e.count + 1 } := by
        rw [find?_retain, if_pos rfl, h, Option.map_some]
      rw [Registry.count_of_find? h] at hcount
      rw [Registry.count_of_find? hfind, Multiset.count_cons_self]
      dsimp only
      omega
    · rw [count, find?_retain, if_neg hy, Multiset.count_cons_of_ne hy]
      exact hcount
  count_pos := (hr.sound.modify fun _ _ => Nat.succ_pos _).count_pos

theorem retainAll {refs : List Ref} (hr : r.Balanced owned)
    (h : ∀ y ∈ refs, ∃ o, r.object y = .ok o) :
    (refs.foldl Registry.retain r).Balanced (refs + owned) := by
  induction refs generalizing r owned with
  | nil => simpa using hr
  | cons x rest ih =>
    obtain ⟨o, ho⟩ := h x List.mem_cons_self
    obtain ⟨e, he, -⟩ := object_eq_ok_iff.mp ho
    have hrest := ih (hr.retain he) fun y hy => by
      rw [object_retain]
      exact h y (List.mem_cons_of_mem x hy)
    rwa [Multiset.add_cons, ← Multiset.cons_add, Multiset.cons_coe] at hrest

/-- Giving up one of several owners takes an ownership away. -/
theorem disown (hr : r.Balanced (x ::ₘ owned)) (h : r.find? x = some e) (hc : 1 < e.count) :
    (r.modify x Entry.disown).Balanced owned where
  ordered := hr.ordered.modify x _
  shallow := hr.shallow.modify fun _ => rfl
  count_eq := by
    intro y
    have hcount := hr.count_eq y
    have hholders : (r.modify x Entry.disown).holders y = r.holders y :=
      holders_modify fun _ => rfl
    rw [hholders]
    by_cases hy : y = x
    · subst hy
      have hfind : (r.modify y Entry.disown).find? y = some e.disown := by
        rw [find?_modify, if_pos rfl, h, Option.map_some]
      rw [Registry.count_of_find? h, Multiset.count_cons_self] at hcount
      rw [Registry.count_of_find? hfind, Entry.disown]
      dsimp only
      omega
    · rw [Multiset.count_cons_of_ne hy] at hcount
      rw [count, find?_modify, if_neg hy]
      exact hcount
  count_pos := (hr.sound.disown h hc).count_pos

/-- An object whose last owner lets go is removed; what it held on to is left over. -/
theorem erase (hr : r.Balanced (x ::ₘ owned)) (h : r.find? x = some e) (hc : ¬1 < e.count) :
    (r.erase x).Balanced (e.object.retained + owned) := by
  have hx := hr.count_of_find? h
  rw [Multiset.count_cons_self] at hx
  -- its one owner is in the bag, so no slot names it
  refine ⟨hr.ordered.erase x, hr.shallow.erase hr.ordered (by omega), fun y => ?_,
    (hr.sound.erase x).count_pos⟩
  have hcount := hr.count_eq y
  have hholders := holders_erase (y := y) hr.ordered h
  rw [Multiset.count_add, Multiset.coe_count]
  by_cases hy : y = x
  · subst hy
    rw [count, find?_erase, if_pos rfl, Option.elim_none]
    omega
  · rw [Multiset.count_cons_of_ne hy] at hcount
    rw [count, find?_erase, if_neg hy, ← count]
    omega

/-- A new object has one owner; what it holds on to was owned before. -/
theorem insert (hr : r.Balanced (o.retained + owned)) (ho : ∀ y ∈ o.retained, r.IsLeaf y) :
    (r.insert o).Balanced ((r.last + 1) ::ₘ owned) where
  ordered := hr.ordered.insert o
  shallow := hr.shallow.insert hr.ordered ho
  count_eq := by
    intro y
    have hcount := hr.count_eq y
    rw [Multiset.count_add, Multiset.coe_count] at hcount
    rw [holders_insert]
    by_cases hy : y = r.last + 1
    · subst hy
      -- nobody has named the new reference before
      have hlast := hr.count_last
      rw [Multiset.count_add, Multiset.coe_count] at hlast
      rw [count, find?_insert hr.ordered, if_pos rfl, Option.elim_some, Multiset.count_cons_self]
      dsimp only
      omega
    · rw [count, find?_insert hr.ordered, if_neg hy, ← count, Multiset.count_cons_of_ne hy]
      omega
  count_pos := (hr.sound.insert o).count_pos

/-- A replaced object swaps the ownerships `gained` for the ownerships `lost`. -/
theorem replace {gained lost : List Ref} (hr : r.Balanced (gained + owned))
    (h : r.find? x = some e) (he : e.object.retained ≠ [])
    (ho : ∀ y ∈ o.retained, r.IsLeaf y)
    (hswap : (lost ++ o.retained).Perm (gained ++ e.object.retained)) :
    (r.replace x o).Balanced (lost + owned) where
  ordered := hr.ordered.replace x o
  shallow := hr.shallow.replace h he ho
  count_eq := by
    intro y
    have hcount := hr.count_eq y
    have hholders := holders_replace (y := y) (o := o) hr.ordered h
    have hperm := hswap.count_eq y
    rw [List.count_append, List.count_append] at hperm
    rw [Multiset.count_add, Multiset.coe_count] at hcount ⊢
    -- the owners of the replaced object stay
    have hkeep : (r.replace x o).count y = r.count y := by
      rw [count, find?_replace]
      by_cases hy : y = x
      · subst hy
        rw [if_pos rfl, h, Registry.count_of_find? h, Option.map_some, Option.elim_some]
      · rw [if_neg hy, count]
    omega
  count_pos := (hr.sound.replace x o).count_pos

/-- **Giving back what is owned meets no missing entry**, and gives up just that. -/
theorem releaseAll {refs : List Ref} (hr : r.Balanced (refs + owned)) :
    ∃ r', r.releaseAll refs = .ok () r' ∧ r'.Balanced owned := by
  -- along the references still to be given back, with those that removed objects held in
  -- front: the bag has all of them
  induction r, refs using Registry.releaseAll.induct with
  | case1 r =>
    exact ⟨r, releaseAll_nil, by simpa using hr⟩
  | case2 r x rest h =>
    obtain ⟨e, he⟩ := hr.exists_find?_of_mem (x := x) (by simp)
    rw [h] at he
    cases he
  | case3 r x rest e h hc _ ih =>
    rw [← Multiset.cons_coe, Multiset.cons_add] at hr
    rw [releaseAll_disown h hc]
    exact ih (hr.disown h hc)
  | case4 r x rest e h hc _ ih =>
    rw [← Multiset.cons_coe, Multiset.cons_add] at hr
    have hbal := hr.erase h hc
    rw [← Multiset.add_assoc, Multiset.coe_add] at hbal
    rw [releaseAll_last h hc]
    exact ih hbal

/-- Without caller ownerships there are no objects: the holder of an object would have to
have a holder in turn. -/
theorem entries_eq_nil (hr : r.Balanced 0) : r.entries = [] := by
  refine List.eq_nil_iff_forall_not_mem.mpr ?_
  rintro ⟨x, e⟩ hmem
  obtain hown | ⟨y, o, ho, hx⟩ :=
    hr.exists_find?_iff.mp ⟨e, hr.ordered.find?_eq_some_iff.mpr hmem⟩
  · exact Multiset.notMem_zero x hown
  · obtain ⟨f, hf, -⟩ := object_eq_ok_iff.mp ho
    have hholders := hr.shallow.holders_eq_zero hr.ordered ho (List.ne_nil_of_mem hx)
    have hcount := hr.count_of_find? hf
    have hpos := hr.count_pos y f hf
    rw [Multiset.count_zero] at hcount
    omega

end Balanced

end Keyring.Registry
