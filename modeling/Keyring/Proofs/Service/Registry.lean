import Keyring.Proofs.Outcome
import Keyring.Service.Registry
import Mathlib.Data.List.Basic
import Mathlib.Data.List.Perm.Basic
import Mathlib.Order.Basic

/-!
# The registry by look-up

A registry whose references ascend is known by its look-ups: every change of it is
described by what `find?` gives afterwards, and two such registries with the same
look-ups and the same last reference are equal.

Entries are a list, so that a registry can be computed with and printed.  The list is looked into
here and nowhere else.  Later proofs go by the look-up equations, and where two ways of calling
have to lead to one registry they go by `Ordered.ext`.  That references ascend is what makes the
list canonical: an object is added at the end, and nothing that is changed or removed moves.

## Main definitions

* `Ordered` — references ascend from one to the last one given out.
* `Sound` — and every entry has an owner.

## Main results

* `find?_insert`, `find?_modify`, `find?_erase` — the look-up equations.
* `Ordered.insert`, `Ordered.modify`, `Ordered.erase` — changes keep the order.
* `Ordered.ext` — **an ordered registry is determined by its look-ups.**
-/

namespace Keyring.Registry

variable {r : Registry} {x y : Ref} {e : Entry} {o : NativeObject}

/-- References ascend, and all of them were given out. -/
structure Ordered (r : Registry) : Prop where
  /-- References ascend. -/
  ascending : r.entries.Pairwise fun p q => p.1 < q.1
  /-- References start at one. -/
  pos : ∀ p ∈ r.entries, 0 < p.1
  /-- No reference is beyond the last one. -/
  le_last : ∀ p ∈ r.entries, p.1 ≤ r.last

theorem Ordered.empty : Ordered {} := ⟨List.Pairwise.nil, by simp, by simp⟩

/-- A registry as calls leave it: references ascend, and every entry has an owner. -/
structure Sound (r : Registry) : Prop where
  /-- References ascend. -/
  ordered : r.Ordered
  /-- An entry has an owner. -/
  count_pos : ∀ x e, r.find? x = some e → 0 < e.count

/-! ### Looking up -/

theorem mem_of_find? (h : r.find? x = some e) : (x, e) ∈ r.entries := by
  obtain ⟨before, after, hentries, -⟩ := List.lookup_eq_some_iff.mp h
  rw [hentries]
  exact List.mem_append_right _ List.mem_cons_self

/-- The entry of a reference stands between entries of others. -/
theorem Ordered.split (hr : r.Ordered) (h : r.find? x = some e) :
    ∃ before after, r.entries = before ++ (x, e) :: after ∧ (∀ p ∈ before, p.1 ≠ x) ∧
      ∀ p ∈ after, p.1 ≠ x := by
  obtain ⟨before, after, hentries, hbefore⟩ := List.lookup_eq_some_iff.mp h
  have hasc := hr.ascending
  rw [hentries] at hasc
  have hafter := (List.pairwise_append.mp hasc).2.1
  refine ⟨before, after, hentries, fun p hp => ?_, fun p hp => ?_⟩
  · -- in front stand others because the look-up has passed them
    exact fun heq => by simpa [heq] using hbefore p hp
  · exact Nat.ne_of_gt ((List.pairwise_cons.mp hafter).1 p hp)

theorem Ordered.find?_eq_some_iff (hr : r.Ordered) : r.find? x = some e ↔ (x, e) ∈ r.entries := by
  refine ⟨mem_of_find?, fun hmem => ?_⟩
  obtain ⟨before, after, hentries⟩ := List.append_of_mem hmem
  have hasc := hr.ascending
  rw [hentries] at hasc
  refine List.lookup_eq_some_iff.mpr ⟨before, after, hentries, fun p hp => ?_⟩
  -- an entry further in front has a smaller reference
  have hlt := (List.pairwise_append.mp hasc).2.2 p hp (x, e) List.mem_cons_self
  simpa using (Nat.ne_of_lt hlt).symm

theorem Ordered.find?_le_last (hr : r.Ordered) (h : r.find? x = some e) : x ≤ r.last :=
  hr.le_last _ (mem_of_find? h)

theorem Ordered.find?_eq_none (hr : r.Ordered) (h : r.last < x) : r.find? x = none := by
  cases hfind : r.find? x with
  | none => rfl
  | some e => exact absurd (hr.find?_le_last hfind) (Nat.not_le.mpr h)

/-! ### Look-up equations -/

@[simp] theorem find?_empty : Registry.find? {} x = none := rfl

theorem find?_insert (hr : r.Ordered) :
    (r.insert o).find? y = if y = r.last + 1 then some ⟨o, 1⟩ else r.find? y := by
  have happ : (r.insert o).find? y = (r.find? y).or (List.lookup y [(r.last + 1, ⟨o, 1⟩)]) :=
    List.lookup_append
  rw [happ, List.lookup_cons, List.lookup_nil]
  -- nothing is there yet under the next reference
  by_cases hy : y = r.last + 1
  · rw [hy, hr.find?_eq_none (Nat.lt_succ_self _)]
    simp
  · simp [hy, beq_eq_false_iff_ne.mpr hy]

theorem find?_modify (f : Entry → Entry) :
    (r.modify x f).find? y = if y = x then (r.find? x).map f else r.find? y := by
  obtain ⟨last, entries⟩ := r
  simp only [modify, find?]
  -- on the entries; a changed one keeps its reference
  induction entries with
  | nil => simp
  | cons p rest ih =>
    rw [List.map_cons]
    by_cases hp : p.1 = x
    · rw [if_pos hp, List.lookup_cons, ih, List.lookup_cons, List.lookup_cons, hp]
      by_cases hy : y = x
      · simp [hy]
      · simp [hy, beq_eq_false_iff_ne.mpr hy]
    · rw [if_neg hp, List.lookup_cons, ih, List.lookup_cons, List.lookup_cons]
      by_cases hy : y = x
      · subst hy
        simp [beq_eq_false_iff_ne.mpr (Ne.symm hp)]
      · simp [hy]

theorem find?_erase : (r.erase x).find? y = if y = x then none else r.find? y := by
  obtain ⟨last, entries⟩ := r
  simp only [erase, find?]
  induction entries with
  | nil => simp
  | cons p rest ih =>
    by_cases hp : p.1 = x
    · rw [List.filter_cons_of_neg (by simp [hp]), ih, List.lookup_cons, hp]
      by_cases hy : y = x
      · simp [hy]
      · simp [hy, beq_eq_false_iff_ne.mpr hy]
    · rw [List.filter_cons_of_pos (by simp [hp]), List.lookup_cons, ih, List.lookup_cons]
      by_cases hy : y = x
      · subst hy
        simp [beq_eq_false_iff_ne.mpr (Ne.symm hp)]
      · simp [hy]

theorem find?_retain :
    (r.retain x).find? y =
      if y = x then (r.find? x).map fun e => { e with count := e.count + 1 } else r.find? y :=
  find?_modify _

theorem find?_replace :
    (r.replace x o).find? y =
      if y = x then (r.find? x).map fun e => { e with object := o } else r.find? y :=
  find?_modify _

@[simp] theorem last_insert : (r.insert o).last = r.last + 1 := rfl

@[simp] theorem last_modify (f : Entry → Entry) : (r.modify x f).last = r.last := rfl

@[simp] theorem last_erase : (r.erase x).last = r.last := rfl

@[simp] theorem last_retain : (r.retain x).last = r.last := rfl

@[simp] theorem last_replace : (r.replace x o).last = r.last := rfl

/-! ### Objects -/

theorem object_of_find? (h : r.find? x = some e) : r.object x = .ok e.object := by
  rw [object, h]

theorem object_eq_ok_iff : r.object x = .ok o ↔ ∃ e, r.find? x = some e ∧ e.object = o := by
  unfold object
  cases r.find? x with
  | none => simp
  | some e => simp

theorem object_congr {r' : Registry} (h : r'.find? x = r.find? x) : r'.object x = r.object x := by
  rw [object, object, h]

theorem key_congr {r' : Registry} (h : r'.object x = r.object x) : r'.key x = r.key x := by
  rw [key, key, h]

theorem data_congr {r' : Registry} (h : r'.object x = r.object x) : r'.data x = r.data x := by
  rw [data, data, h]

theorem number_congr {r' : Registry} (h : r'.object x = r.object x) :
    r'.number x = r.number x := by
  rw [number, number, h]

/-! What is looked up as an object of one kind is an object of that kind. -/

theorem certificate_eq_ok_iff {c : X509} :
    r.certificate x = .ok c ↔ r.object x = .ok (.certificate c) := by
  unfold certificate
  rcases r.object x with _ | o
  · simp
  · cases o <;> simp

theorem key_eq_ok_iff {k : KeyObject} : r.key x = .ok k ↔ r.object x = .ok (.key k) := by
  unfold key
  rcases r.object x with _ | o
  · simp
  · cases o <;> simp

theorem data_eq_ok_iff {b : Bytes} : r.data x = .ok b ↔ r.object x = .ok (.data b) := by
  unfold data
  rcases r.object x with _ | o
  · simp
  · cases o <;> simp

theorem number_eq_ok_iff {v : Int} : r.number x = .ok v ↔ r.object x = .ok (.number v) := by
  unfold number
  rcases r.object x with _ | o
  · simp
  · cases o <;> simp

theorem transform_eq_ok_iff {t : Transform} :
    r.transform x = .ok t ↔ r.object x = .ok (.transform t) := by
  unfold transform
  rcases r.object x with _ | o
  · simp
  · cases o <;> simp

theorem transformToChange_eq_ok_iff {t : Transform} :
    r.transformToChange x = .ok t ↔ r.object x = .ok (.transform t) := by
  rw [object_eq_ok_iff]
  unfold transformToChange
  rcases r.find? x with _ | ⟨o, n⟩
  · simp
  · cases o <;> simp

/-- Changes of counts leave the objects alone. -/
theorem object_modify {f : Entry → Entry} (hf : ∀ e, (f e).object = e.object) :
    (r.modify x f).object y = r.object y := by
  unfold object
  rw [find?_modify]
  by_cases hy : y = x
  · subst hy
    rw [if_pos rfl]
    cases r.find? y with
    | none => rfl
    | some e => exact congrArg Except.ok (hf e)
  · rw [if_neg hy]

theorem object_retain : (r.retain x).object y = r.object y := object_modify fun _ => rfl

theorem object_disown : (r.modify x Entry.disown).object y = r.object y :=
  object_modify fun _ => rfl

theorem object_retainAll (refs : List Ref) :
    (refs.foldl Registry.retain r).object y = r.object y := by
  induction refs generalizing r with
  | nil => rfl
  | cons z rest ih => rw [List.foldl_cons, ih, object_retain]

theorem object_insert_of_ok {o' : NativeObject} (hr : r.Ordered) (h : r.object y = .ok o') :
    (r.insert o).object y = .ok o' := by
  obtain ⟨e, he, rfl⟩ := object_eq_ok_iff.mp h
  refine object_eq_ok_iff.mpr ⟨e, ?_, rfl⟩
  rw [find?_insert hr, if_neg (Nat.ne_of_lt (Nat.lt_succ_of_le (hr.find?_le_last he))), he]

theorem object_insert_last (hr : r.Ordered) : (r.insert o).object (r.last + 1) = .ok o :=
  object_eq_ok_iff.mpr ⟨⟨o, 1⟩, by rw [find?_insert hr, if_pos rfl], rfl⟩

theorem object_insert_eq_ok_iff {o' : NativeObject} (hr : r.Ordered) :
    (r.insert o).object y = .ok o' ↔ y = r.last + 1 ∧ o = o' ∨ r.object y = .ok o' := by
  refine ⟨fun h => ?_, ?_⟩
  · obtain ⟨e, he, rfl⟩ := object_eq_ok_iff.mp h
    rw [find?_insert hr] at he
    -- it is the new object or an old one
    by_cases hy : y = r.last + 1
    · rw [if_pos hy, Option.some.injEq] at he
      exact .inl ⟨hy, by rw [← he]⟩
    · rw [if_neg hy] at he
      exact .inr (object_eq_ok_iff.mpr ⟨e, he, rfl⟩)
  · rintro (⟨rfl, rfl⟩ | h)
    · exact object_insert_last hr
    · exact object_insert_of_ok hr h

theorem object_erase_of_ne (h : y ≠ x) : (r.erase x).object y = r.object y := by
  rw [object, find?_erase, if_neg h, ← object]

/-- What is there after a removal was there before. -/
theorem object_of_erase (h : (r.erase x).object y = .ok o) : y ≠ x ∧ r.object y = .ok o := by
  by_cases hy : y = x
  · rw [object, find?_erase, if_pos hy] at h
    cases h
  · exact ⟨hy, by rwa [object, find?_erase, if_neg hy, ← object] at h⟩

theorem object_replace_of_ne (h : y ≠ x) : (r.replace x o).object y = r.object y := by
  rw [object, find?_replace, if_neg h, ← object]

theorem object_replace_self (h : r.find? x = some e) : (r.replace x o).object x = .ok o := by
  rw [object, find?_replace, if_pos rfl, h]
  rfl

/-! ### Order -/

theorem Ordered.insert (hr : r.Ordered) (o : NativeObject) : (r.insert o).Ordered where
  ascending := by
    refine List.pairwise_append.mpr ⟨hr.ascending, List.pairwise_singleton _ _, ?_⟩
    intro p hp q hq
    rw [List.mem_singleton.mp hq]
    exact Nat.lt_succ_of_le (hr.le_last p hp)
  pos := by
    intro p hp
    rcases List.mem_append.mp hp with hp | hp
    · exact hr.pos p hp
    · rw [List.mem_singleton.mp hp]
      exact Nat.succ_pos _
  le_last := by
    intro p hp
    rcases List.mem_append.mp hp with hp | hp
    · exact Nat.le_succ_of_le (hr.le_last p hp)
    · rw [List.mem_singleton.mp hp]
      exact Nat.le_refl _

theorem mem_modify {p : Ref × Entry} {f : Entry → Entry} (h : p ∈ (r.modify x f).entries) :
    ∃ q ∈ r.entries, q.1 = p.1 := by
  obtain ⟨q, hq, rfl⟩ := List.mem_map.mp h
  refine ⟨q, hq, ?_⟩
  split <;> rfl

theorem Ordered.modify (hr : r.Ordered) (x : Ref) (f : Entry → Entry) :
    (r.modify x f).Ordered where
  ascending := by
    refine List.pairwise_map.mpr (hr.ascending.imp fun {p q} hpq => ?_)
    split <;> split <;> exact hpq
  pos := by
    intro p hp
    obtain ⟨q, hq, heq⟩ := mem_modify hp
    exact heq ▸ hr.pos q hq
  le_last := by
    intro p hp
    obtain ⟨q, hq, heq⟩ := mem_modify hp
    exact heq ▸ hr.le_last q hq

theorem Ordered.retain (hr : r.Ordered) (x : Ref) : (r.retain x).Ordered := hr.modify x _

theorem Ordered.replace (hr : r.Ordered) (x : Ref) (o : NativeObject) : (r.replace x o).Ordered :=
  hr.modify x _

theorem Ordered.erase (hr : r.Ordered) (x : Ref) : (r.erase x).Ordered where
  ascending := hr.ascending.sublist List.filter_sublist
  pos := fun p hp => hr.pos p (List.mem_of_mem_filter hp)
  le_last := fun p hp => hr.le_last p (List.mem_of_mem_filter hp)

theorem Sound.empty : Sound {} := ⟨.empty, by simp⟩

theorem Sound.insert (hr : r.Sound) (o : NativeObject) : (r.insert o).Sound where
  ordered := hr.ordered.insert o
  count_pos := by
    intro y e he
    rw [find?_insert hr.ordered] at he
    split at he
    · cases he
      exact Nat.one_pos
    · exact hr.count_pos y e he

/-- A changed entry has to keep an owner. -/
theorem Sound.modify (hr : r.Sound) {f : Entry → Entry}
    (hf : ∀ e, r.find? x = some e → 0 < (f e).count) : (r.modify x f).Sound where
  ordered := hr.ordered.modify x f
  count_pos := by
    intro y e he
    rw [find?_modify] at he
    split at he
    · obtain ⟨e', he', rfl⟩ := Option.map_eq_some_iff.mp he
      exact hf e' he'
    · exact hr.count_pos y e he

theorem Sound.replace (hr : r.Sound) (x : Ref) (o : NativeObject) : (r.replace x o).Sound := by
  have hkeep : ∀ e, r.find? x = some e → 0 < Entry.count { e with object := o } :=
    fun e he => hr.count_pos x e he
  exact hr.modify hkeep

/-- One of several owners may be given up. -/
theorem Sound.disown (hr : r.Sound) (h : r.find? x = some e) (hc : 1 < e.count) :
    (r.modify x Entry.disown).Sound := by
  refine hr.modify fun f hf => ?_
  rw [h, Option.some.injEq] at hf
  rw [← hf]
  exact Nat.sub_pos_of_lt hc

theorem Sound.erase (hr : r.Sound) (x : Ref) : (r.erase x).Sound where
  ordered := hr.ordered.erase x
  count_pos := by
    intro y e he
    rw [find?_erase] at he
    split at he
    · cases he
    · exact hr.count_pos y e he

/-- References may be used up. -/
theorem Ordered.skip (hr : r.Ordered) {n : Nat} (h : r.last ≤ n) :
    Ordered { r with last := n } :=
  ⟨hr.ascending, hr.pos, fun p hp => Nat.le_trans (hr.le_last p hp) h⟩

theorem Sound.skip (hr : r.Sound) {n : Nat} (h : r.last ≤ n) : Sound { r with last := n } :=
  ⟨hr.ordered.skip h, hr.count_pos⟩

/-- Two lists in ascending order of references are equal if they have the same members. -/
theorem eq_of_ascending {α : Type} {l l' : List (Ref × α)}
    (hl : l.Pairwise fun p q => p.1 < q.1) (hl' : l'.Pairwise fun p q => p.1 < q.1)
    (h : ∀ p, p ∈ l ↔ p ∈ l') : l = l' := by
  have hnodup : ∀ {m : List (Ref × α)}, (m.Pairwise fun p q => p.1 < q.1) → m.Nodup := by
    intro m hm
    refine List.Pairwise.imp ?_ hm
    rintro p q hpq rfl
    exact Nat.lt_irrefl _ hpq
  -- ascending lists have no repetitions, and one order
  have hperm : l.Perm l' := (List.perm_ext_iff_of_nodup (hnodup hl) (hnodup hl')).mpr h
  exact hperm.eq_of_pairwise (fun p q _ _ hpq hqp => absurd hqp (Nat.lt_asymm hpq)) hl hl'

/-- **An ordered registry is determined by its look-ups.** -/
theorem Ordered.ext {r' : Registry} (hr : r.Ordered) (hr' : r'.Ordered) (hlast : r.last = r'.last)
    (hfind : ∀ x, r.find? x = r'.find? x) : r = r' := by
  have hmem : ∀ p, p ∈ r.entries ↔ p ∈ r'.entries := fun p => by
    rw [← hr.find?_eq_some_iff, ← hr'.find?_eq_some_iff, hfind]
  have hentries := eq_of_ascending hr.ascending hr'.ascending hmem
  cases r
  cases r'
  simp_all

/-- A new object that is removed again leaves only its reference used up. -/
theorem Ordered.erase_insert (hr : r.Ordered) (o : NativeObject) :
    (r.insert o).erase (r.last + 1) = { r with last := r.last + 1 } := by
  -- by look-ups, as only the last reference tells the two apart
  refine Ordered.ext ((hr.insert o).erase _) (hr.skip (Nat.le_succ _)) rfl fun y => ?_
  show _ = r.find? y
  rw [find?_erase, find?_insert hr]
  by_cases hy : y = r.last + 1
  · rw [if_pos hy, hy, hr.find?_eq_none (Nat.lt_succ_self _)]
  · rw [if_neg hy, if_neg hy]

end Keyring.Registry

namespace Keyring.Service

variable {r : Registry} {f : Registry → Except ServiceError NativeObject}

/-! ### Calls that add an object -/

theorem create_ok {o : NativeObject} (h : f r = .ok o) :
    create f r = .ok (.ok (r.last + 1)) (r.insert o) := by
  simp only [create, h]

theorem create_error {e : ServiceError} (h : f r = .error e) :
    create f r = .ok (.error e) r := by
  simp only [create, h]

end Keyring.Service
