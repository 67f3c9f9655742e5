import Keyring.Proofs.Service.Abandoned
import Keyring.Service.Cascade

/-!
# The calls that giving a reference back makes

Giving back the last owner of a transform gives back what the transform held on to, by calls within
the first one, and so on if there are transforms among that.  However the registry may look, this
comes to an end: a call within another one is made only after an entry was removed, so there are
never more calls within each other than entries, and every call takes an entry or an owner away.
In a registry that calls of the service have led to, what a slot names is no transform, and there is
one level of calls at most.

## Main definitions

* `Counted` — every entry has an owner.
* `Ends` — giving a reference back ends if there is room for its calls.
* `Given` — what a reference is that can be given back: missing, shared, or with its last owner.
* `Calls` — one call makes another.
* `Settles` — giving a reference back ends with its calls so deep within each other at most.
* `Frames` — only the entries of some references are changed.
* `Service.Emerges` — the registries that calls of any kind lead to, strict or not.

## Main results

* `kept_giveBack` — what removing entries and taking owners keep, giving a reference back keeps.
* `ends_giveBack` — **there is room enough for as many calls as there are entries, and one.**
* `Calls.weight_lt` — a call makes the registry lighter before it makes another.
* `giveBack_of_le`, `released_of_ends` — where there is room enough, more of it makes no
  difference, and strict calls do what the service does.
* `Service.emerges_iff_arises` — strict histories are those of the service.
* `Service.giveBack_settles` — **giving a reference back ends, and is shallow over any history.**
-/

namespace Keyring.Registry

variable {strict : Bool} {room room' depth : Nat} {r r' : Registry} {x y : Ref} {e : Entry}
  {s : Stop} {refs : List Ref} {f g inner : Ref → EStateM Stop Registry Unit}

/-! ### Entries with owners -/

/-- Every entry has an owner. -/
def Counted (r : Registry) : Prop := ∀ x e, r.find? x = some e → 0 < e.count

theorem Counted.disown (hr : r.Counted) (hx : r.find? x = some e) (hc : 1 < e.count) :
    (r.modify x Entry.disown).Counted := by
  intro y e' hy
  rw [find?_modify] at hy
  split at hy
  · rw [hx] at hy
    cases hy
    simp only [Entry.disown]
    omega
  · exact hr y e' hy

theorem Counted.erase (hr : r.Counted) (x : Ref) : (r.erase x).Counted := by
  intro y e hy
  rw [find?_erase] at hy
  split at hy
  · cases hy
  · exact hr y e hy

@[simp] theorem size_modify (f : Entry → Entry) : (r.modify x f).size = r.size := by
  simp [size, modify]

theorem size_erase_lt (hx : r.find? x = some e) : (r.erase x).size < r.size := by
  apply List.length_filter_lt_length_iff_exists.mpr
  exact ⟨(x, e), mem_of_find? hx, by simp⟩

/-! ### One call -/

/-- The registry that calls leave, also if they are stopped. -/
def leaves {α : Type} : EStateM.Result Stop Registry α → Registry
  | .ok _ r => r
  | .error _ r => r

/-- A call ends if it is neither in want of room nor at an entry without owners: it returns, or it
is strict and comes upon a reference without an object. -/
inductive Ends (strict : Bool) : EStateM.Result Stop Registry Unit → Prop
  | returned {r : Registry} : Ends strict (.ok () r)
  | abandoned {r : Registry} (hstrict : strict = true) : Ends strict (.error (.halt .overRelease) r)

theorem giveBackBy_none (hx : r.find? x = none) : giveBackBy strict inner x r =
    if strict then .error (.halt .overRelease) r else .ok () r := by
  simp [giveBackBy, hx]

/-- If there is no object, the call ends and leaves everything as it is. -/
theorem giveBackBy_missing (strict : Bool) (inner : Ref → EStateM Stop Registry Unit)
    (hx : r.find? x = none) :
    Ends strict (giveBackBy strict inner x r) ∧ leaves (giveBackBy strict inner x r) = r := by
  rw [giveBackBy_none hx]
  cases strict with
  | false => exact ⟨.returned, rfl⟩
  | true => exact ⟨.abandoned rfl, rfl⟩

theorem giveBackBy_disown (hx : r.find? x = some e) (hc : 1 < e.count) :
    giveBackBy strict inner x r = .ok () (r.modify x Entry.disown) := by
  obtain ⟨n, hn⟩ : ∃ n, e.count = n + 2 := ⟨e.count - 2, by omega⟩
  simp [giveBackBy, hx, hn]

theorem giveBackBy_last (hx : r.find? x = some e) (hc : e.count = 1) :
    giveBackBy strict inner x r = e.object.retained.forM inner (r.erase x) := by
  simp [giveBackBy, hx, hc]

theorem giveBackBy_ownerless (hx : r.find? x = some e) (hc : e.count = 0) :
    giveBackBy strict inner x r = .error .ownerless r := by
  simp [giveBackBy, hx, hc]

/-- A reference that is given back has no object, one with several owners, or one with its last
owner. -/
inductive Given (r : Registry) (x : Ref) : Prop
  | missing (hx : r.find? x = none)
  | shared {e : Entry} (hx : r.find? x = some e) (hc : 1 < e.count)
  | last {e : Entry} (hx : r.find? x = some e) (hc : e.count = 1)

theorem given_or_ownerless (r : Registry) (x : Ref) :
    Given r x ∨ ∃ e, r.find? x = some e ∧ e.count = 0 := by
  cases hx : r.find? x with
  | none => exact .inl (.missing hx)
  | some e =>
    -- no owner, one owner, or several
    rcases Nat.lt_trichotomy e.count 1 with hc | hc | hc
    · exact .inr ⟨e, rfl, Nat.lt_one_iff.mp hc⟩
    · exact .inl (.last hx hc)
    · exact .inl (.shared hx hc)

theorem Counted.given (hr : r.Counted) (x : Ref) : Given r x := by
  rcases given_or_ownerless r x with hgiven | ⟨e, hx, hc⟩
  · exact hgiven
  · exact absurd hc (Nat.ne_of_gt (hr x e hx))

theorem Ends.given (h : Ends strict (giveBackBy strict inner x r)) : Given r x := by
  rcases given_or_ownerless r x with hgiven | ⟨e, hx, hc⟩
  · exact hgiven
  · rw [giveBackBy_ownerless hx hc] at h
    cases h

/-! ### Calls one after the other -/

theorem forM_of_ok (h : f x r = .ok () r') : (x :: refs).forM f r = refs.forM f r' := by
  show EStateM.bind (f x) (fun _ => refs.forM f) r = _
  rw [EStateM.bind, h]

theorem forM_of_error (h : f x r = .error s r') : (x :: refs).forM f r = .error s r' := by
  show EStateM.bind (f x) (fun _ => refs.forM f) r = _
  rw [EStateM.bind, h]

/-- What every call keeps, calls one after the other keep. -/
theorem kept_forM (kept : Registry → Prop)
    (hf : ∀ x ∈ refs, ∀ r, kept r → kept (leaves (f x r))) (hr : kept r) :
    kept (leaves (refs.forM f r)) := by
  induction refs generalizing r with
  | nil => exact hr
  | cons x rest ih =>
    have hx := hf x List.mem_cons_self r hr
    -- a call that is abandoned ends the row, with what it leaves
    cases hcall : f x r with
    | ok u r₁ =>
      rw [hcall] at hx
      rw [forM_of_ok hcall]
      exact ih (fun y hy => hf y (List.mem_cons_of_mem x hy)) hx
    | error s r₁ =>
      rw [hcall] at hx
      rw [forM_of_error hcall]
      exact hx

/-- Calls one after the other end if each of them ends where the others have kept what it needs. -/
theorem ends_forM (kept : Registry → Prop)
    (hf : ∀ x ∈ refs, ∀ r, kept r → Ends strict (f x r) ∧ kept (leaves (f x r))) (hr : kept r) :
    Ends strict (refs.forM f r) := by
  induction refs generalizing r with
  | nil => exact .returned
  | cons x rest ih =>
    obtain ⟨hends, hkept⟩ := hf x List.mem_cons_self r hr
    generalize hcall : f x r = result at hends hkept
    cases hends with
    | returned =>
      rw [forM_of_ok hcall]
      exact ih (fun y hy => hf y (List.mem_cons_of_mem x hy)) hkept
    | abandoned hstrict =>
      rw [forM_of_error hcall]
      exact .abandoned hstrict

/-- Calls that end may be made by whatever ends in the same way. -/
theorem forM_eq_of_ends (hfg : ∀ x r, Ends strict (f x r) → g x r = f x r)
    (h : Ends strict (refs.forM f r)) : refs.forM g r = refs.forM f r := by
  induction refs generalizing r with
  | nil => rfl
  | cons x rest ih =>
    cases hx : f x r with
    | ok u r₁ =>
      have hg : g x r = .ok () r₁ := (hfg x r (hx ▸ .returned)).trans hx
      rw [forM_of_ok hx] at h ⊢
      rw [forM_of_ok hg]
      exact ih h
    -- an end of `f` that `g` shares is one that counts as an end
    | error s r₁ =>
      rw [forM_of_error hx] at h ⊢
      have hg : g x r = .error s r₁ := by
        cases h with
        | abandoned hstrict => exact (hfg x r (hx ▸ .abandoned hstrict)).trans hx
      rw [forM_of_error hg]

/-! ### Calls come to an end -/

/-- **What removing entries and taking owners keep, giving a reference back keeps**, whether it ends
or not. -/
theorem kept_giveBack (kept : Registry → Prop)
    (herase : ∀ r x e, r.find? x = some e → kept r → kept (r.erase x))
    (hdisown : ∀ r x e, r.find? x = some e → 1 < e.count → kept r →
      kept (r.modify x Entry.disown))
    (hr : kept r) : kept (leaves (giveBack strict room x r)) := by
  -- on the room; calls within this one have less of it
  induction room generalizing r x with
  | zero => exact hr
  | succ room ih =>
    rw [giveBack]
    rcases given_or_ownerless r x with hx | ⟨e, hx, hc⟩
    · cases hx with
      | missing hx =>
        rw [(giveBackBy_missing strict _ hx).2]
        exact hr
      | shared hx hc =>
        rw [giveBackBy_disown hx hc]
        exact hdisown r x _ hx hc hr
      | last hx hc =>
        rw [giveBackBy_last hx hc]
        exact kept_forM kept (fun y _ r hr => ih hr) (herase r x _ hx hr)
    · rw [giveBackBy_ownerless hx hc]
      exact hr

theorem weight_giveBack_le : (leaves (giveBack strict room x r)).weight ≤ r.weight := by
  apply kept_giveBack fun r' => r'.weight ≤ r.weight
  · exact fun r' y e hy hle => Nat.le_trans (Nat.le_of_lt (weight_erase_lt hy)) hle
  · exact fun r' y e hy hc hle => Nat.le_trans (Nat.le_of_lt (weight_disown_lt hy hc)) hle
  · exact Nat.le_refl _

theorem weight_le_of_forM (h : refs.forM (giveBack strict room) r = .ok () r') :
    r'.weight ≤ r.weight := by
  have hle : (leaves (refs.forM (giveBack strict room) r)).weight ≤ r.weight := by
    apply kept_forM fun r' => r'.weight ≤ r.weight
    · exact fun y _ r' hle => Nat.le_trans weight_giveBack_le hle
    · exact Nat.le_refl _
  rwa [h] at hle

/-- A call that returns has made the registry lighter, unless there was no object. -/
theorem weight_giveBack_lt (h : giveBack strict room x r = .ok () r') (hne : r.find? x ≠ none) :
    r'.weight < r.weight := by
  cases room with
  | zero => cases h
  | succ room =>
    rw [giveBack] at h
    have hends : Ends strict (giveBackBy strict (giveBack strict room) x r) := h ▸ .returned
    cases hends.given with
    | missing hx => exact absurd hx hne
    | shared hx hc =>
      rw [giveBackBy_disown hx hc] at h
      cases h
      exact weight_disown_lt hx hc
    -- removing the entry has made it lighter already, and the calls within keep that
    | last hx hc =>
      rw [giveBackBy_last hx hc] at h
      exact Nat.lt_of_le_of_lt (weight_le_of_forM h) (weight_erase_lt hx)

theorem counted_giveBack (hr : r.Counted) : (leaves (giveBack strict room x r)).Counted :=
  kept_giveBack Counted (fun _ x _ _ hr => hr.erase x) (fun _ _ _ hx hc hr => hr.disown hx hc) hr

theorem size_giveBack_le : (leaves (giveBack strict room x r)).size ≤ r.size := by
  apply kept_giveBack fun r' => r'.size ≤ r.size
  · exact fun r' y e hy hle => Nat.le_trans (Nat.le_of_lt (size_erase_lt hy)) hle
  · exact fun r' y e _ _ hle => by rwa [size_modify]
  · exact Nat.le_refl _

/-- Calls one after the other end if each of them ends that has room for as many calls as there are
entries, and one. -/
theorem ends_forM_giveBack
    (hcall : ∀ (r : Registry) x, r.Counted → r.size < room →
      Ends strict (giveBack strict room x r))
    (hr : r.Counted) (hroom : r.size < room) :
    Ends strict (refs.forM (giveBack strict room) r) := by
  refine ends_forM (fun r' => r'.Counted ∧ r'.size < room) (fun x _ r' hkept => ?_) ⟨hr, hroom⟩
  obtain ⟨hcounted, hsize⟩ := hkept
  exact ⟨hcall r' x hcounted hsize, counted_giveBack hcounted,
    Nat.lt_of_le_of_lt size_giveBack_le hsize⟩

/-- **There is room enough for as many calls as there are entries, and one**: a call within another
one finds an entry less, and the last one finds none. -/
theorem ends_giveBack (hr : r.Counted) (hroom : r.size < room) :
    Ends strict (giveBack strict room x r) := by
  induction room generalizing r x with
  | zero => exact absurd hroom (Nat.not_lt_zero _)
  | succ room ih =>
    rw [giveBack]
    cases hr.given x with
    | missing hx => exact (giveBackBy_missing strict _ hx).1
    | shared hx hc =>
      rw [giveBackBy_disown hx hc]
      exact .returned
    | last hx hc =>
      rw [giveBackBy_last hx hc]
      -- an entry is gone, and so is one call's worth of room
      have hlt := size_erase_lt hx
      exact ends_forM_giveBack (fun _ _ => ih) (hr.erase x) (by omega)

/-- Giving a reference back makes a call that gives another one back: the object was removed with
its last owner, and what it held on to in front of the other one was given back. -/
inductive Calls (strict : Bool) : Registry × Ref → Registry × Ref → Prop
  | within {r r' : Registry} {x y : Ref} {e : Entry} {front back : List Ref} {room : Nat}
      (hx : r.find? x = some e) (hc : e.count = 1)
      (hretained : e.object.retained = front ++ y :: back)
      (hfront : front.forM (giveBack strict room) (r.erase x) = .ok () r') :
      Calls strict (r, x) (r', y)

/-- A call makes the registry lighter before it makes another. -/
theorem Calls.weight_lt {p q : Registry × Ref} (h : Calls strict p q) :
    q.1.weight < p.1.weight := by
  cases h with
  | within hx hc hretained hfront =>
    exact Nat.lt_of_le_of_lt (weight_le_of_forM hfront) (weight_erase_lt hx)

/-- There is no endless row of calls, one within the other. -/
theorem wellFounded_calls (strict : Bool) : WellFounded fun q p => Calls strict p q := by
  -- by the weight of the registry
  apply Subrelation.wf (r := InvImage (· < ·) fun p : Registry × Ref => p.1.weight)
  · exact fun h => h.weight_lt
  · exact InvImage.wf _ Nat.lt_wfRel.wf

/-! ### Room that is not made use of -/

/-- The calls within a call that ends may be made by whatever ends in the same way. -/
theorem giveBackBy_eq_of_ends (hfg : ∀ x r, Ends strict (f x r) → g x r = f x r)
    (h : Ends strict (giveBackBy strict f x r)) :
    giveBackBy strict g x r = giveBackBy strict f x r := by
  cases h.given with
  | missing hx => rw [giveBackBy_none hx, giveBackBy_none hx]
  | shared hx hc => rw [giveBackBy_disown hx hc, giveBackBy_disown hx hc]
  | last hx hc =>
    rw [giveBackBy_last hx hc] at h
    rw [giveBackBy_last hx hc, giveBackBy_last hx hc]
    exact forM_eq_of_ends hfg h

/-- Where there is room enough, more room is not made use of. -/
theorem giveBack_of_le (h : Ends strict (giveBack strict room x r)) (hle : room ≤ room') :
    giveBack strict room' x r = giveBack strict room x r := by
  induction room generalizing room' x r with
  | zero => cases h
  | succ room ih =>
    obtain ⟨more, rfl⟩ : ∃ more, room' = more + 1 := ⟨room' - 1, by omega⟩
    exact giveBackBy_eq_of_ends (fun y r hy => ih hy (by omega)) h

/-- What the service does to give a reference back. -/
def released (x : Ref) : EStateM Stop Registry Unit := fun r =>
  Service.liftHalt (Service.release x r)

theorem forM_released (r : Registry) (refs : List Ref) :
    refs.forM released r = Service.liftHalt (r.releaseAll refs) := by
  induction refs generalizing r with
  | nil =>
    rw [releaseAll_nil]
    rfl
  | cons x rest ih =>
    -- the service goes through references one by one as well
    have happend : r.releaseAll (x :: rest) = _ := releaseAll_append [x] rest
    rw [happend]
    have hreleased : released x r = Service.liftHalt (r.releaseAll [x]) := rfl
    cases hx : r.releaseAll [x] with
    | ok u r₁ =>
      rw [hx] at hreleased
      rw [forM_of_ok hreleased, ih]
    | error halt r₁ =>
      rw [hx] at hreleased
      rw [forM_of_error hreleased]
      rfl

/-- The service makes one call as strict calls are made, and goes on by itself. -/
theorem released_eq (h : Given r x) : released x r = giveBackBy true released x r := by
  rw [released, Service.release]
  cases h with
  | missing hx =>
    rw [giveBackBy_none hx, releaseAll_none hx]
    rfl
  | shared hx hc =>
    rw [giveBackBy_disown hx hc, releaseAll_disown hx hc, releaseAll_nil]
    rfl
  | last hx hc =>
    rw [giveBackBy_last hx hc, forM_released, releaseAll_last hx (by omega), List.append_nil]

/-- Where there is room enough, strict calls do what the service does. -/
theorem released_of_ends (h : Ends true (giveBack true room x r)) :
    released x r = giveBack true room x r := by
  -- on the room, each level being one call of the service
  induction room generalizing x r with
  | zero => cases h
  | succ room ih =>
    rw [giveBack] at h ⊢
    rw [released_eq h.given]
    exact giveBackBy_eq_of_ends (fun y r hy => ih hy) h

/-- Giving a reference back ends, with no more than `depth` calls within each other inside of the
first one. -/
structure Settles (strict : Bool) (depth : Nat) (r : Registry) (x : Ref) : Prop where
  ends : Ends strict (giveBack strict (depth + 1) x r)
  /-- More room is not made use of. -/
  room_eq : ∀ room, depth < room → giveBack strict room x r = giveBack strict (depth + 1) x r
  /-- Strict calls do what the service does. -/
  released_eq : strict = true → released x r = giveBack strict (depth + 1) x r

theorem Settles.of_ends (h : Ends strict (giveBack strict (depth + 1) x r)) :
    Settles strict depth r x where
  ends := h
  room_eq := fun room hroom => giveBack_of_le h hroom
  released_eq := by
    rintro rfl
    exact released_of_ends h

/-! ### Slots that name no transforms -/

/-- Only the entries of some references are changed, and no object is. -/
structure Frames (refs : List Ref) (r r' : Registry) : Prop where
  counted : r'.Counted
  /-- All other entries are as before. -/
  find?_eq : ∀ y, y ∉ refs → r'.find? y = r.find? y
  /-- What is there was there before. -/
  object : ∀ y o, r'.object y = .ok o → r.object y = .ok o

theorem Frames.refl (hr : r.Counted) (refs : List Ref) : Frames refs r r :=
  ⟨hr, fun _ _ => rfl, fun _ _ ho => ho⟩

theorem Frames.mono {refs' : List Ref} (h : Frames refs r r') (hsub : refs ⊆ refs') :
    Frames refs' r r' where
  counted := h.counted
  find?_eq := fun y hy => h.find?_eq y fun hmem => hy (hsub hmem)
  object := h.object

theorem Frames.trans {r'' : Registry} (h : Frames refs r r') (h' : Frames refs r' r'') :
    Frames refs r r'' where
  counted := h'.counted
  find?_eq := fun y hy => (h'.find?_eq y hy).trans (h.find?_eq y hy)
  object := fun y o ho => h.object y o (h'.object y o ho)

theorem Counted.frames_disown (hr : r.Counted) (hx : r.find? x = some e) (hc : 1 < e.count) :
    Frames [x] r (r.modify x Entry.disown) where
  counted := hr.disown hx hc
  find?_eq := by
    intro y hy
    rw [find?_modify, if_neg (by simpa using hy)]
  object := by
    intro y o ho
    rwa [object_disown] at ho

theorem Counted.frames_erase (hr : r.Counted) (x : Ref) : Frames [x] r (r.erase x) where
  counted := hr.erase x
  find?_eq := by
    intro y hy
    rw [find?_erase, if_neg (by simpa using hy)]
  object := fun y o ho => (object_of_erase ho).2

/-- What the object of a reference holds on to. -/
def heldBy (r : Registry) (x : Ref) : List Ref := (r.find? x).elim [] fun e => e.object.retained

theorem heldBy_of_find? (hx : r.find? x = some e) : r.heldBy x = e.object.retained := by
  rw [heldBy, hx, Option.elim_some]

theorem exists_transform_of_heldBy (h : y ∈ r.heldBy x) :
    ∃ t, r.object x = .ok (.transform t) ∧ y ∈ t.retained := by
  cases hx : r.find? x with
  | none =>
    rw [heldBy, hx] at h
    cases h
  | some e =>
    rw [heldBy_of_find? hx] at h
    -- only transforms hold on to something
    obtain ⟨t, ht⟩ := exists_transform_of_mem h
    rw [ht] at h
    exact ⟨t, object_eq_ok_iff.mpr ⟨e, hx, ht⟩, h⟩

/-- One call ends and changes what is given back and what it held on to, if the calls within it end
and change no more than that. -/
theorem frames_giveBackBy (strict : Bool) (hr : r.Counted)
    (hinner : ∀ y ∈ r.heldBy x, ∀ r₁, Frames (x :: r.heldBy x) r r₁ →
      Ends strict (inner y r₁) ∧ Frames (x :: r.heldBy x) r (leaves (inner y r₁))) :
    Ends strict (giveBackBy strict inner x r) ∧
      Frames (x :: r.heldBy x) r (leaves (giveBackBy strict inner x r)) := by
  have hself : [x] ⊆ x :: r.heldBy x := by simp
  cases hr.given x with
  | missing hx =>
    obtain ⟨hends, hleaves⟩ := giveBackBy_missing strict inner hx
    exact ⟨hends, hleaves.symm ▸ .refl hr _⟩
  | shared hx hc =>
    rw [giveBackBy_disown hx hc]
    exact ⟨.returned, (hr.frames_disown hx hc).mono hself⟩
  | last hx hc =>
    rw [giveBackBy_last hx hc, ← heldBy_of_find? hx]
    -- the entry goes first, and the calls within find it gone
    have herase := (hr.frames_erase x).mono hself
    exact ⟨ends_forM _ hinner herase, kept_forM _ (fun y hy r₁ h₁ => (hinner y hy r₁ h₁).2) herase⟩

/-- An object that holds on to nothing is given back by a single call. -/
theorem frames_leaf (strict : Bool) (hr : r.Counted)
    (hleaf : ∀ o, r.object x = .ok o → o.retained = []) :
    Ends strict (giveBack strict 1 x r) ∧ Frames [x] r (leaves (giveBack strict 1 x r)) := by
  have hnil : r.heldBy x = [] := by
    apply List.eq_nil_iff_forall_not_mem.mpr
    intro y hy
    obtain ⟨t, ht, hyt⟩ := exists_transform_of_heldBy hy
    exact absurd (hleaf _ ht) (List.ne_nil_of_mem hyt)
  rw [← hnil]
  exact frames_giveBackBy strict hr (by simp [hnil])

/-- **In a loose registry calls go one level deep**, and they change what is given back and what it
held on to. -/
theorem Loose.frames_giveBack (strict : Bool) (hr : r.Loose) (x : Ref) :
    Ends strict (giveBack strict 2 x r) ∧
      Frames (x :: r.heldBy x) r (leaves (giveBack strict 2 x r)) := by
  refine frames_giveBackBy strict hr.sound.count_pos fun y hy r₁ hframes => ?_
  -- what is left of the objects that were held on to holds on to nothing
  obtain ⟨t, ht, hyt⟩ := exists_transform_of_heldBy hy
  obtain ⟨hends, hone⟩ := frames_leaf strict hframes.counted fun o ho =>
    hr.slot_leaf x _ ht y hyt o (hframes.object y o ho)
  exact ⟨hends, hframes.trans (hone.mono (by simp [hy]))⟩

end Keyring.Registry

namespace Keyring

open Registry

/-! ### Histories of any kind, strict or not -/

section Histories

variable {P : Provider} {strict : Bool} {r : Registry} {x : Ref} {refs : List Ref}

namespace Registry

theorem forM_singleton (f : Ref → EStateM Stop Registry Unit) : [x].forM f r = f x r := by
  cases hx : f x r with
  | ok u r' => exact forM_of_ok hx
  | error s r' => exact forM_of_error hx

theorem size_configure {t : Transform} {a : Attribute} : (r.configure x t a).size = r.size := by
  have hretain : ∀ refs : List Ref, (refs.foldl retain r).size = r.size := by
    intro refs
    induction refs generalizing r with
    | nil => rfl
    | cons y rest ih => rw [List.foldl_cons, ih, retain, size_modify]
  rw [configure, replace, size_modify, hretain]

theorem Loose.forM_giveBack {room : Nat} (hr : r.Loose) :
    (leaves (refs.forM (giveBack strict room) r)).Loose := by
  refine kept_forM Loose (fun y _ r hr => kept_giveBack Loose ?_ ?_ hr) hr
  · exact fun r x e _ hr =>
      hr.shrink (hr.sound.erase x) rfl fun y o ho => (object_of_erase ho).2
  · exact fun r x e hx hc hr =>
      hr.shrink (hr.sound.disown hx hc) rfl fun y o ho => by rwa [object_disown] at ho

/-- Strict calls one after the other do what the service does. -/
theorem forM_giveBack_strict {room : Nat} (refs : List Ref) (hr : r.Counted)
    (hroom : r.size < room) :
    refs.forM (giveBack true room) r = Service.liftHalt (r.releaseAll refs) := by
  have hends : Ends true (refs.forM (giveBack true room) r) :=
    ends_forM_giveBack (fun _ _ => ends_giveBack) hr hroom
  rw [← forM_released]
  exact (forM_eq_of_ends (fun y r' => released_of_ends) hends).symm

end Registry

/-- A call that gives references back does so last, and all other calls are those of the service. -/
theorem Call.carryOut_cases (P : Provider) (strict : Bool) (c : Call) (e : Entropy) (r : Registry) :
    c.carryOut P e strict r = Service.liftHalt (c.make P e r) ∨
      ∃ (refs : List Ref) (r' : Registry), (r.Loose → r'.Loose) ∧ r'.size = r.size ∧
        c.carryOut P e strict r =
          (refs.forM (giveBack strict (r.size + 1))).map (fun _ => .ok .done) r' ∧
        c.make P e r = Service.afterRelease (.ok .done) (r'.releaseAll refs) := by
  cases c with
  | release x =>
    refine .inr ⟨[x], r, id, rfl, ?_, Service.release_reply x⟩
    rw [carryOut, EStateM.map, EStateM.map, forM_singleton]
  | transformSet x a =>
    cases hs : Service.setting r x a with
    | error err =>
      left
      rw [carryOut, make, Service.reply_eq_ok (Service.transformSet_error hs)]
      simp only [hs]
      rfl
    | ok s =>
      -- the transform is set first, and what it named in the place is given back last
      obtain ⟨t, hx, rfl, ha⟩ := Service.setting_eq_ok hs
      refine .inr ⟨(t.slot a).toList, r.configure x t a, fun hr => Service.loose_configure hr hx ha,
        size_configure, ?_, Service.reply_afterRelease (Service.transformSet_of_setting hs)⟩
      rw [carryOut]
      simp only [hs]
      rfl
  | _ => exact .inl rfl

theorem leaves_map {α β : Type} (f : α → β) (s : EStateM Stop Registry α) :
    leaves (s.map f r) = leaves (s r) := by
  rw [EStateM.map]
  cases s r <;> rfl

theorem leaves_liftHalt {α : Type} (result : EStateM.Result Halt Registry α) :
    leaves (Service.liftHalt result) = finalState result := by
  cases result <;> rfl

/-- Registries stay loose whatever is called, and whether calls are strict or not. -/
theorem Call.loose_carryOut (c : Call) (e : Entropy) (hr : r.Loose) :
    (leaves (c.carryOut P e strict r)).Loose := by
  rcases c.carryOut_cases P strict e r with
    hcall | ⟨refs, r', hloose, -, hcall, -⟩
  · rw [hcall, leaves_liftHalt]
    exact c.loose e hr
  · rw [hcall, leaves_map]
    exact (hloose hr).forM_giveBack

/-- Strict calls are those of the service. -/
theorem Call.carryOut_strict (c : Call) (e : Entropy) (hr : r.Loose) :
    c.carryOut P e true r = Service.liftHalt (c.make P e r) := by
  rcases c.carryOut_cases P true e r with
    hcall | ⟨refs, r', hloose, hsize, hcall, hmake⟩
  · exact hcall
  · have hforM := forM_giveBack_strict refs (hloose hr).sound.count_pos
      (Nat.lt_succ_of_le (Nat.le_of_eq hsize))
    rw [hcall, hmake, EStateM.map, hforM]
    cases r'.releaseAll refs <;> rfl

namespace Service

/-- A registry that calls lead to, whoever owns what: if they are strict, calls are abandoned that
come upon a reference without an object, and else they pass over it. -/
inductive Emerges (P : Provider) (strict : Bool) : Registry → Prop where
  | start : Emerges P strict {}
  | call {r : Registry} (c : Call) (e : Entropy) :
      Emerges P strict r → Emerges P strict (leaves (c.carryOut P e strict r))

theorem Emerges.loose (h : Emerges P strict r) : r.Loose := by
  induction h with
  | start => exact Loose.empty
  | call c e _ ih => exact c.loose_carryOut e ih

/-- **Strict histories are those of the service.** -/
theorem emerges_iff_arises : Emerges P true r ↔ Arises P r := by
  constructor
  · intro h
    induction h with
    | start => exact .start
    | call c e h ih =>
      rw [c.carryOut_strict e h.loose, leaves_liftHalt]
      exact ih.call c e
  · intro h
    induction h with
    | start => exact .start
    | call c e h ih =>
      rw [← leaves_liftHalt, ← c.carryOut_strict e h.loose]
      exact ih.call c e

end Service

end Histories

/-! ### Giving back over any history -/

theorem Transform.mem_retained_iff {t : Transform} {y : Ref} : y ∈ t.retained ↔
    y = t.key ∨ t.signature = some y ∨ t.digestLength = some y ∨ t.input = some y := by
  simp [retained]

namespace Service

/-- **Giving a reference back ends, and is shallow over any history.**  A call that returns has made
the registry lighter, and does so before it makes another one, so that there is no endless row of
calls within each other.  In any registry whose entries have owners, whatever its slots name, there
are at most as many levels of calls within the first one as there are entries, and strict calls do
what the service does.  In a registry that calls have led to, strict or not and also if they were
abandoned, there is one level at most: what is given back may be changed, and if it is a transform,
what that held on to, which are no transforms; all other entries are as before.  A setting gives
back what it replaces, if it replaces something, by a single call. -/
theorem giveBack_settles (strict : Bool) :
    (∀ room x r r', giveBack strict room x r = .ok () r' → r.find? x ≠ none →
      r'.weight < r.weight) ∧
    (∀ p q, Calls strict p q → q.1.weight < p.1.weight) ∧
    WellFounded (fun q p => Calls strict p q) ∧
    (∀ r : Registry, r.Counted → ∀ x, Settles strict r.size r x) ∧
    ∀ (P : Provider) (r : Registry), (Emerges P true r ↔ Arises P r) ∧ (Emerges P strict r →
      (∀ x, Settles strict 1 r x ∧ ∀ y e, r.find? y = some e →
        (leaves (giveBack strict 2 x r)).find? y = some e ∨ y = x ∨
          ∃ t, r.object x = .ok (.transform t) ∧
            (y = t.key ∨ t.signature = some y ∨ t.digestLength = some y ∨ t.input = some y) ∧
            ∀ u, e.object ≠ .transform u) ∧
      ∀ x t (a : Attribute) y, r.object x = .ok (.transform t) → a.Named r → t.slot a = some y →
        Settles strict 0 (r.configure x t a) y ∧
          ∀ z, z ≠ y → (leaves (giveBack strict 1 y (r.configure x t a))).find? z =
            (r.configure x t a).find? z) := by
  refine ⟨fun room x r r' => weight_giveBack_lt, fun p q h => h.weight_lt,
    wellFounded_calls strict, fun r hr x => .of_ends (ends_giveBack hr (Nat.lt_succ_self _)),
    fun P r => ⟨emerges_iff_arises, fun h => ⟨fun x => ?_, ?_⟩⟩⟩
  · -- one level: what is changed is `x` or was held on to by it
    have hr := h.loose
    obtain ⟨hends, hframes⟩ := hr.frames_giveBack strict x
    refine ⟨.of_ends hends, fun y e hy => ?_⟩
    by_cases hmem : y ∈ x :: r.heldBy x
    · right
      rcases List.mem_cons.mp hmem with rfl | hheld
      · exact .inl rfl
      · obtain ⟨t, ht, hyt⟩ := exists_transform_of_heldBy hheld
        refine .inr ⟨t, ht, Transform.mem_retained_iff.mp hyt, fun u hu => ?_⟩
        -- what a slot names in such a registry has no slots, so it is no transform
        have hnil := hr.slot_leaf x _ ht y hyt _ (object_of_find? hy)
        rw [hu] at hnil
        exact absurd hnil (List.cons_ne_nil _ _)
    · left
      rw [hframes.find?_eq y hmem, hy]
  · intro x t a y hx ha hslot
    have hr := h.loose
    have hleaf := slot_leaf_configure (a := a) hr hx y (by simp [hslot])
    obtain ⟨hends, hframes⟩ := frames_leaf strict
      (loose_configure hr hx ha).sound.count_pos hleaf
    exact ⟨.of_ends hends, fun z hz => hframes.find?_eq z (by simpa using hz)⟩

/-- Two transforms that hold on to each other, one of them twice, and the other one also to what
there is not. -/
def knot : Registry :=
  ⟨2, [(1, ⟨.transform (.fresh .verify 2 (some 2)), 1⟩),
    (2, ⟨.transform (.fresh .verify 1 (some 7)), 1⟩)]⟩

/-- A transform that verifies and has all that it needs; nobody else owns the number that it is set
to. -/
def equipped : Transform :=
  { kind := .verify, key := 1, signature := some 2, digestLength := some 3, input := some 2 }

def verifying : Registry :=
  ⟨4, [(1, ⟨sampleKey, 2⟩), (2, ⟨.data [7], 3⟩), (3, ⟨.number 256, 1⟩),
    (4, ⟨.transform equipped, 1⟩)]⟩

theorem arises_verifying : Arises .standard verifying := by
  let e : Entropy := fun _ => 0
  let bare : Transform := .fresh .verify 1 (some 2)
  let half : Transform := { bare with digestLength := some 3 }
  have h₁ : Arises .standard ⟨1, [(1, ⟨sampleKey, 1⟩)]⟩ :=
    Arises.start.next createSample e (make_createSample e)
  have h₂ : Arises .standard ⟨2, [(1, ⟨sampleKey, 1⟩), (2, ⟨.data [7], 1⟩)]⟩ :=
    h₁.next (.dataCreate [7]) e rfl
  have h₃ : Arises .standard
      ⟨3, [(1, ⟨sampleKey, 1⟩), (2, ⟨.data [7], 1⟩), (3, ⟨.number 256, 1⟩)]⟩ :=
    h₂.next (.numberCreate 256) e rfl
  have h₄ : Arises .standard ⟨4, [(1, ⟨sampleKey, 2⟩), (2, ⟨.data [7], 2⟩),
      (3, ⟨.number 256, 1⟩), (4, ⟨.transform bare, 1⟩)]⟩ :=
    h₃.next (.transformCreate .verify 1 (some 2)) e rfl
  have h₅ : Arises .standard ⟨4, [(1, ⟨sampleKey, 2⟩), (2, ⟨.data [7], 2⟩),
      (3, ⟨.number 256, 2⟩), (4, ⟨.transform half, 1⟩)]⟩ :=
    h₄.next (.transformSet 4 (.digestLength 3)) e
      (reply_eq_ok (transformSet_eq (s := ⟨half, some 3, none⟩) rfl rfl))
  have h₆ : Arises .standard ⟨4, [(1, ⟨sampleKey, 2⟩), (2, ⟨.data [7], 3⟩),
      (3, ⟨.number 256, 2⟩), (4, ⟨.transform equipped, 1⟩)]⟩ :=
    h₅.next (.transformSet 4 (.input 2)) e
      (reply_eq_ok (transformSet_eq (s := ⟨equipped, some 2, none⟩) rfl rfl))
  refine h₆.next (.release 3) e (Call.make_release ?_)
  rw [releaseAll_disown (e := ⟨.number 256, 2⟩) rfl (by decide)]
  exact releaseAll_nil

/-- Calls that are not strict untie the knot, the last of them passing over what is missing by then.
The number goes with the transform that was its last owner, and stays if the transform is set to it
once more. -/
theorem giveBack_settles_knot :
    (giveBack false 3 1 knot = .ok () ⟨2, []⟩ ∧ knot.find? 1 ≠ none ∧
      (⟨2, []⟩ : Registry).weight < knot.weight) ∧
    (Calls false (knot, 1) (knot.erase 1, 2) ∧ (knot.erase 1).weight < knot.weight) ∧
    (knot.Counted ∧ Settles false 2 knot 1) ∧
    Emerges .standard true verifying ∧
    (Settles true 1 verifying 4 ∧ verifying.find? 3 = some ⟨.number 256, 1⟩ ∧
      (leaves (giveBack true 2 4 verifying)).find? 3 = none ∧
      ∃ t, verifying.object 4 = .ok (.transform t) ∧
        (3 = t.key ∨ t.signature = some 3 ∨ t.digestLength = some 3 ∨ t.input = some 3)) ∧
    ((Attribute.digestLength 3).Named verifying ∧
      Settles true 0 (verifying.configure 4 equipped (.digestLength 3)) 3 ∧
      (leaves (giveBack true 1 3 (verifying.configure 4 equipped (.digestLength 3)))).find? 4 =
        (verifying.configure 4 equipped (.digestLength 3)).find? 4) := by
  obtain ⟨hweight, hcalls, -, hsettles, -⟩ := giveBack_settles false
  have hends : giveBack false 3 1 knot = .ok () ⟨2, []⟩ := rfl
  have hcall : Calls false (knot, 1) (knot.erase 1, 2) :=
    @Calls.within false knot (knot.erase 1) 1 2 _ [] [2] 0 rfl rfl rfl rfl
  have hcounted : knot.Counted := by
    intro x e hx
    have hmem := mem_of_find? hx
    simp only [knot, List.mem_cons, List.not_mem_nil, or_false, Prod.mk.injEq] at hmem
    rcases hmem with ⟨-, rfl⟩ | ⟨-, rfl⟩ <;> exact Nat.one_pos
  obtain ⟨hiff, hreached⟩ := (giveBack_settles true).2.2.2.2 .standard verifying
  have hemerges := hiff.mpr arises_verifying
  obtain ⟨hback, hset⟩ := hreached hemerges
  obtain ⟨hshallow, hchanged⟩ := hback 4
  have hgone : (leaves (giveBack true 2 4 verifying)).find? 3 = none := rfl
  have hnamed : (Attribute.digestLength 3).Named verifying := ⟨256, rfl⟩
  obtain ⟨hsingle, hsame⟩ := hset 4 equipped (.digestLength 3) 3 rfl hnamed rfl
  refine ⟨⟨hends, by simp [knot, find?], hweight 3 1 knot _ hends (by simp [knot, find?])⟩,
    ⟨hcall, hcalls _ _ hcall⟩, ⟨hcounted, hsettles knot hcounted 1⟩, hemerges,
    ⟨hshallow, rfl, hgone, ?_⟩, hnamed, hsingle, hsame 4 (by decide)⟩
  obtain hkept | hself | ⟨t, ht, hslot, -⟩ := hchanged 3 ⟨.number 256, 1⟩ rfl
  · rw [hgone] at hkept
    cases hkept
  · exact absurd hself (by decide)
  · exact ⟨t, ht, hslot⟩

end Service

end Keyring
