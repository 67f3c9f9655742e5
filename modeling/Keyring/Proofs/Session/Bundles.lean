import Keyring.Proofs.Provider.Narrow
import Keyring.Proofs.Session.Holdings
import Mathlib.Data.List.Forall2
import Mathlib.Data.List.Range

/-!
# Containers are imported whole or not at all

A container is imported component by component: its key, the certificate of the key, all other
certificates in order.  Every object goes under the next reference.  When a component fails, what
was imported before it is given back, the other certificates first and the key last; only their
references are used up.

## Main definitions

* `Component`, `ContainerInfo.components` — what a container is made of, in order.
* `Component.Imports`, `Component.Fails` — what becomes of a component when it is imported alone.
* `Registry.insertAll` — objects under successive references.
* `Action.Adds` — a call imports components after others, or undoes all.

## Main results

* `Component.imports_or_fails` — a component is imported or fails, whatever else there is.
* `releaseHandles_insertAll` — in whatever order new objects are given back, nothing is left.
* `adds_importContainer` — the components of a container, one after the other.
* `loadContainer_all_or_nothing` — **a container is imported whole and in order, or the first
  component that fails leaves everything as it was.**
-/

namespace Keyring

open Registry

variable {α β : Type} {P : Provider} {r : Registry}

/-! ### Many new objects -/

namespace Registry

variable {x y : Ref} {o o' : NativeObject} {refs : List Ref}

theorem insert_injective (r : Registry) : Function.Injective r.insert := by
  intro o o' h
  have hentries := congrArg Registry.entries h
  simpa [insert] using hentries

/-- Adds objects with one owner each, under successive new references. -/
def insertAll (r : Registry) (os : List NativeObject) : Registry where
  last := r.last + os.length
  entries := r.entries ++ os.mapIdx fun j o => (r.last + 1 + j, ⟨o, 1⟩)

@[simp] theorem insertAll_nil : r.insertAll [] = r := by
  cases r
  simp [insertAll]

theorem insertAll_append (os os' : List NativeObject) :
    r.insertAll (os ++ os') = (r.insertAll os).insertAll os' := by
  simp only [insertAll, List.mapIdx_append, List.length_append, Nat.add_assoc, List.append_assoc]
  congr 4
  funext j o
  rw [Nat.add_comm j, Nat.add_left_comm 1]

theorem insertAll_concat (os : List NativeObject) :
    r.insertAll (os ++ [o]) = (r.insertAll os).insert o := insertAll_append os [o]

theorem Ordered.insertAll (hr : r.Ordered) (os : List NativeObject) : (r.insertAll os).Ordered := by
  induction os using List.reverseRecOn with
  | nil => rwa [insertAll_nil]
  | append_singleton os o ih =>
    rw [insertAll_concat]
    exact ih.insert o

/-- What was there before stays. -/
theorem find?_insertAll_of_le (hr : r.Ordered) (os : List NativeObject) (h : y ≤ r.last) :
    (r.insertAll os).find? y = r.find? y := by
  induction os using List.reverseRecOn with
  | nil => rw [insertAll_nil]
  | append_singleton os o ih =>
    have hne : y ≠ r.last + os.length + 1 :=
      Nat.ne_of_lt (Nat.lt_succ_of_le (Nat.le_add_right_of_le h))
    rw [insertAll_concat, find?_insert (hr.insertAll os), ih]
    exact if_neg hne

/-- New objects stand under the references after the last one, in order. -/
theorem find?_insertAll (hr : r.Ordered) (os : List NativeObject) (j : Nat) :
    (r.insertAll os).find? (r.last + 1 + j) = os[j]?.map (⟨·, 1⟩) := by
  induction os using List.reverseRecOn with
  | nil =>
    have hlt : r.last < r.last + 1 + j := Nat.lt_add_right j (Nat.lt_succ_self _)
    rw [insertAll_nil, hr.find?_eq_none hlt, List.getElem?_nil, Option.map_none]
  | append_singleton os o ih =>
    have hlast : (r.insertAll os).last + 1 = r.last + 1 + os.length := Nat.add_right_comm _ _ _
    rw [insertAll_concat, find?_insert (hr.insertAll os), ih, hlast]
    by_cases hj : j = os.length
    · rw [if_pos (congrArg _ hj), hj, List.getElem?_concat_length, Option.map_some]
    · rw [if_neg (by simpa using hj)]
      rcases Nat.lt_or_gt_of_ne hj with hlt | hgt
      · rw [List.getElem?_append_left hlt]
      · rw [List.getElem?_eq_none (Nat.le_of_lt hgt), List.getElem?_eq_none]
        rw [List.length_append]
        exact hgt

/-- Objects with one owner that hold on to nothing are removed when they are given back. -/
theorem exists_releaseAll_leaves (hr : r.Ordered) (hnodup : refs.Nodup)
    (hleaves : ∀ x ∈ refs, ∃ o : NativeObject, r.find? x = some ⟨o, 1⟩ ∧ o.retained = []) :
    ∃ r', r.releaseAll refs = .ok () r' ∧ r'.Ordered ∧ r'.last = r.last ∧
      ∀ y, r'.find? y = if y ∈ refs then none else r.find? y := by
  induction refs generalizing r with
  | nil => exact ⟨r, releaseAll_nil, hr, rfl, by simp⟩
  | cons x rest ih =>
    obtain ⟨hx, hnodup⟩ := List.nodup_cons.mp hnodup
    obtain ⟨o, hfind, hnil⟩ := hleaves x List.mem_cons_self
    have hrest : ∀ y ∈ rest, ∃ o : NativeObject,
        (r.erase x).find? y = some ⟨o, 1⟩ ∧ o.retained = [] := by
      intro y hy
      rw [find?_erase, if_neg (by rintro rfl; exact hx hy)]
      exact hleaves y (List.mem_cons_of_mem x hy)
    obtain ⟨r', hrelease, hr', hlast, hfind'⟩ := ih (hr.erase x) hnodup hrest
    refine ⟨r', ?_, hr', hlast, fun y => ?_⟩
    · rw [releaseAll_last hfind (Nat.lt_irrefl 1), hnil]
      exact hrelease
    · rw [hfind', find?_erase]
      by_cases hy : y ∈ rest <;> by_cases hyx : y = x <;> simp [hy, hyx]

end Registry

theorem releaseHandles_of_releaseAll {l : List Handle} {r' : Registry}
    (h : r.releaseAll (l.flatMap Handle.owns) = .ok () r') : releaseHandles l r = .ok () r' := by
  induction l generalizing r with
  | nil =>
    rw [List.flatMap_nil, releaseAll_nil] at h
    exact h
  | cons handle rest ih =>
    rw [List.flatMap_cons, releaseAll_append] at h
    cases hfirst : r.releaseAll handle.owns with
    | error halt r₁ =>
      rw [hfirst] at h
      cases h
    | ok u r₁ =>
      rw [hfirst] at h
      rw [← forM_release] at hfirst
      have hrelease : handle.release r = .ok handle.released r₁ := bind_run_ok hfirst
      exact (bind_run_ok hrelease).trans (ih h)

/-- In whatever order new objects that hold on to nothing are given back, nothing is left of them
but their references. -/
theorem releaseHandles_insertAll {l : List Handle} {os : List NativeObject} {n : Nat}
    (hr : r.Ordered) (hn : r.last + os.length ≤ n) (hnil : ∀ o ∈ os, o.retained = [])
    (howns : (l.flatMap Handle.owns).Perm (List.range' (r.last + 1) os.length)) :
    releaseHandles l { r.insertAll os with last := n } = .ok () { r with last := n } := by
  have hmem : ∀ x, x ∈ l.flatMap Handle.owns ↔ r.last + 1 ≤ x ∧ x < r.last + 1 + os.length :=
    fun x => howns.mem_iff.trans List.mem_range'_1
  obtain ⟨r', hrelease, hr', hlast, hfind⟩ := exists_releaseAll_leaves
    ((hr.insertAll os).skip hn) (howns.nodup_iff.mpr List.nodup_range') fun x hx => by
      obtain ⟨hlow, hhigh⟩ := (hmem x).mp hx
      obtain ⟨j, rfl⟩ := Nat.exists_eq_add_of_le hlow
      have hj : j < os.length := Nat.lt_of_add_lt_add_left hhigh
      refine ⟨os[j], ?_, hnil _ (List.getElem_mem hj)⟩
      refine (find?_insertAll hr os j).trans ?_
      rw [List.getElem?_eq_getElem hj, Option.map_some]
  -- compared entry by entry: what was added is gone, and what was there is as it was
  have hback : r' = { r with last := n } := by
    refine hr'.ext (hr.skip (Nat.le_of_add_right_le hn)) hlast fun y => ?_
    rw [hfind]
    by_cases hy : y ∈ l.flatMap Handle.owns
    · rw [if_pos hy]
      exact (hr.find?_eq_none ((hmem y).mp hy).1).symm
    rw [if_neg hy]
    rcases Nat.lt_or_ge r.last y with hlt | hge
    · -- a reference that was skipped
      obtain ⟨j, rfl⟩ := Nat.exists_eq_add_of_le (Nat.succ_le_of_lt hlt)
      have hj : os.length ≤ j := Nat.le_of_not_lt fun hj =>
        hy ((hmem _).mpr ⟨Nat.le_add_right _ j, Nat.add_lt_add_left hj _⟩)
      refine (find?_insertAll hr os j).trans ?_
      rw [List.getElem?_eq_none hj]
      exact (hr.find?_eq_none hlt).symm
    · exact find?_insertAll_of_le hr os hge
  rw [← hback]
  exact releaseHandles_of_releaseAll hrelease

/-! ### Components -/

/-- A component of a container. -/
inductive Component where
  | privateKey (i : PrivateInfo)
  | certificate (i : CertificateInfo)

namespace Component

/-- The handle of a component under a reference. -/
def handle (x : Ref) : Component → Handle
  | privateKey i => .privateKey ⟨some x, i⟩
  | certificate i => .certificate { ref := some x, info := i }

@[simp] theorem owns_handle (x : Ref) (c : Component) : (c.handle x).owns = [x] := by
  cases c <;> rfl

/-- The handles of components under successive references after `n`. -/
def handles (n : Ref) (cs : List Component) : List Handle :=
  cs.mapIdx fun j c => c.handle (n + 1 + j)

theorem handles_append (n : Ref) (cs cs' : List Component) :
    handles n (cs ++ cs') = handles n cs ++ handles (n + cs.length) cs' := by
  simp only [handles, List.mapIdx_append]
  congr 3
  funext j c
  rw [Nat.add_comm j, ← Nat.add_assoc, Nat.add_right_comm n 1]

theorem flatMap_owns_handles (n : Ref) (cs : List Component) :
    (handles n cs).flatMap Handle.owns = List.range' (n + 1) cs.length := by
  induction cs using List.reverseRecOn with
  | nil => rfl
  | append_singleton cs c ih =>
    have hlast : handles (n + cs.length) [c] = [c.handle (n + 1 + cs.length)] := by
      rw [Nat.add_right_comm n 1]
      rfl
    rw [handles_append, List.flatMap_append, ih, hlast, List.flatMap_singleton, owns_handle,
      List.length_append, List.length_singleton, List.range'_1_concat]

/-- A component is imported as an object, whatever else there is. -/
def Imports (P : Provider) : Component → NativeObject → Prop
  | privateKey i, o =>
    ∀ r, (importPrivate P i).run r = .ok (.ok ⟨some (r.last + 1), i⟩) (r.insert o)
  | certificate i, o =>
    ∀ r, (importCertificate P i).run r =
      .ok (.ok { ref := some (r.last + 1), info := i }) (r.insert o)

/-- A component fails to be imported, whatever else there is. -/
def Fails (P : Provider) : Component → CryptoError → Prop
  | privateKey i, err => ∀ r, (importPrivate P i).run r = .ok (.error err) r
  | certificate i, err => ∀ r, (importCertificate P i).run r = .ok (.error err) r

/-- An object that is created without a look at the registry is created anywhere or nowhere. -/
theorem create_or_fails (make : Except ServiceError NativeObject) (mk : Ref → α) :
    (∃ o, make = .ok o ∧ ∀ r, (do
      let x ← Action.ofService (Service.create fun _ => make); return mk x : Action α).run r =
        .ok (.ok (mk (r.last + 1))) (r.insert o)) ∨
    ∃ err, ∀ r, (do
      let x ← Action.ofService (Service.create fun _ => make); return mk x : Action α).run r =
        .ok (.error err) r := by
  cases hmake : make with
  | error e =>
    refine .inr ⟨.service e, fun r => ?_⟩
    exact Action.run_bind_error (Action.run_ofService (Service.create_error rfl))
  | ok o =>
    refine .inl ⟨o, rfl, fun r => ?_⟩
    exact Action.run_bind_ok (Action.run_ofService (Service.create_ok rfl))

/-- **A component is imported or fails**, whatever else there is.  Its object holds on to
nothing. -/
theorem imports_or_fails (c : Component) :
    (∃ o, c.Imports P o ∧ o.retained = []) ∨ ∃ err, c.Fails P err := by
  cases c with
  | privateKey i =>
    cases hcheck : checkParameters i.parameters i.bitSize with
    | error err =>
      refine .inr ⟨err, fun r => ?_⟩
      rw [importPrivate, hcheck]
      exact Action.run_bind_error rfl
    | ok u =>
      have hrun : ∀ r, (importPrivate P i).run r = _ := fun r => by
        rw [importPrivate, hcheck]
        exact Action.run_bind_ok rfl
      rcases create_or_fails _ (fun x => (⟨some x, i⟩ : PrivateHandle)) with
        ⟨o, hmake, hcreate⟩ | ⟨err, hcreate⟩
      · exact .inl ⟨o, fun r => (hrun r).trans (hcreate r), (kind_of_keyCreate P hmake).1⟩
      · exact .inr ⟨err, fun r => (hrun r).trans (hcreate r)⟩
  | certificate i =>
    rcases create_or_fails _ (fun x => ({ ref := some x, info := i } : CertificateHandle)) with
      ⟨o, hmake, hcreate⟩ | ⟨err, hcreate⟩
    · obtain ⟨x, -, rfl⟩ := map_eq_ok_iff.mp hmake
      exact .inl ⟨_, hcreate, rfl⟩
    · exact .inr ⟨err, hcreate⟩

/-- Either all components are imported or there is a first one that fails. -/
theorem all_import_or_first_fails (cs : List Component) :
    (∃ os, List.Forall₂ (Component.Imports P) cs os) ∨
      ∃ before c after err, cs = before ++ c :: after ∧ (∀ b ∈ before, ∃ o, b.Imports P o) ∧
        c.Fails P err := by
  induction cs with
  | nil => exact .inl ⟨[], .nil⟩
  | cons c rest ih =>
    rcases imports_or_fails (P := P) c with ⟨o, ho, -⟩ | ⟨err, hfails⟩
    · rcases ih with ⟨os, hos⟩ | ⟨before, d, after, err, rfl, hbefore, hd⟩
      · exact .inl ⟨o :: os, .cons ho hos⟩
      · exact .inr ⟨c :: before, d, after, err, rfl,
          List.forall_mem_cons.mpr ⟨⟨o, ho⟩, hbefore⟩, hd⟩
    · exact .inr ⟨[], c, rest, err, rfl, by simp, hfails⟩

variable {c : Component} {o o' : NativeObject}

/-- A component is imported as one object only. -/
theorem Imports.unique (h : c.Imports P o) (h' : c.Imports P o') : o = o' := by
  cases c with
  | privateKey i => exact insert_injective _ (EStateM.Result.ok.inj ((h {}).symm.trans (h' {}))).2
  | certificate i => exact insert_injective _ (EStateM.Result.ok.inj ((h {}).symm.trans (h' {}))).2

/-- What is imported does not fail. -/
theorem Imports.not_fails {err : CryptoError} (h : c.Imports P o) : ¬c.Fails P err := by
  intro hfails
  cases c with
  | privateKey i => cases (h {}).symm.trans (hfails {})
  | certificate i => cases (h {}).symm.trans (hfails {})

theorem Imports.retained_eq_nil (h : c.Imports P o) : o.retained = [] := by
  rcases imports_or_fails (P := P) c with ⟨o', h', hnil⟩ | ⟨err, hfails⟩
  · rwa [h.unique h']
  · exact absurd hfails h.not_fails

end Component

/-! ### One component after the other -/

namespace Action

/-- A call imports components `cs` after the components `done`, with `n` the last reference
before these.  If one of them fails, all is undone, the components `done` as well. -/
structure Adds (P : Provider) (n : Ref) (done cs : List Component) (x : Action α) (a : α) :
    Prop where
  /-- All components are imported. -/
  whole : ∀ {r : Registry} {ds os : List NativeObject}, r.Ordered → r.last = n →
    List.Forall₂ (Component.Imports P) done ds → List.Forall₂ (Component.Imports P) cs os →
      x.run (r.insertAll ds) = .ok (.ok a) (r.insertAll (ds ++ os))
  /-- The first component that fails ends the call. -/
  undone : ∀ {r : Registry} {ds : List NativeObject} {before : List Component} {c : Component}
    {after : List Component} {err : CryptoError}, r.Ordered → r.last = n →
    List.Forall₂ (Component.Imports P) done ds → cs = before ++ c :: after →
    (∀ b ∈ before, ∃ o, b.Imports P o) → c.Fails P err →
      x.run (r.insertAll ds) =
        .ok (.error err) { r with last := n + done.length + before.length }

variable {n : Ref} {done cs cs' : List Component} {x : Action α} {f : α → Action β} {a : α} {b : β}

theorem adds_pure (a : α) : (pure a : Action α).Adds P n done [] a where
  whole := by
    intro r ds os _ _ _ hos
    rw [List.forall₂_nil_left_iff.mp hos, List.append_nil]
    rfl
  undone := by
    intro r ds before c after err _ _ _ hcs
    simp at hcs

theorem exists_forall₂ {l : List Component} (h : ∀ c ∈ l, ∃ o, c.Imports P o) :
    ∃ os, List.Forall₂ (Component.Imports P) l os := by
  induction l with
  | nil => exact ⟨[], .nil⟩
  | cons c rest ih =>
    obtain ⟨o, ho⟩ := h c List.mem_cons_self
    obtain ⟨os, hos⟩ := ih fun b hb => h b (List.mem_cons_of_mem c hb)
    exact ⟨o :: os, .cons ho hos⟩

theorem retained_of_forall₂ {l : List Component} {os : List NativeObject}
    (h : List.Forall₂ (Component.Imports P) l os) : ∀ o ∈ os, o.retained = [] := by
  induction h with
  | nil => simp
  | cons hc _ ih => exact List.forall_mem_cons.mpr ⟨hc.retained_eq_nil, ih⟩

theorem exists_append_of_forall₂ {γ δ : Type} {R : γ → δ → Prop} {l₁ l₂ : List γ} {m : List δ}
    (h : List.Forall₂ R (l₁ ++ l₂) m) :
    ∃ m₁ m₂, m = m₁ ++ m₂ ∧ List.Forall₂ R l₁ m₁ ∧ List.Forall₂ R l₂ m₂ := by
  have hfirst := List.forall₂_take l₁.length h
  have hrest := List.forall₂_drop l₁.length h
  rw [List.take_left] at hfirst
  rw [List.drop_left] at hrest
  exact ⟨_, _, (List.take_append_drop ..).symm, hfirst, hrest⟩

theorem Adds.bind (hx : x.Adds P n done cs a) (hf : (f a).Adds P n (done ++ cs) cs' b) :
    (x >>= f).Adds P n done (cs ++ cs') b where
  whole := by
    intro r ds os hr hn hds hos
    obtain ⟨os₁, os₂, rfl, h₁, h₂⟩ := exists_append_of_forall₂ hos
    rw [run_bind_ok (hx.whole hr hn hds h₁), hf.whole hr hn (List.rel_append hds h₁) h₂,
      List.append_assoc]
  undone := by
    intro r ds before c after err hr hn hds hcs hbefore hfails
    -- the component that fails belongs to the first call or to the second
    have hwhere : (∃ mid, before = cs ++ mid ∧ cs' = mid ++ c :: after) ∨
        ∃ mid, cs = before ++ c :: mid := by
      rcases List.append_eq_append_iff.mp hcs with hrest | ⟨mid, hfirst, hmid⟩
      · exact .inl hrest
      cases mid with
      | nil => exact .inl ⟨[], by simpa using hfirst.symm, hmid.symm⟩
      | cons c' mid =>
        cases hmid
        exact .inr ⟨mid, hfirst⟩
    rcases hwhere with ⟨mid, rfl, hrest⟩ | ⟨mid, hfirst⟩
    · -- the first call imports all it has to
      obtain ⟨os, hos⟩ := exists_forall₂ fun c hc => hbefore c (List.mem_append_left _ hc)
      rw [run_bind_ok (hx.whole hr hn hds hos), hf.undone hr hn (List.rel_append hds hos) hrest
        (fun c hc => hbefore c (List.mem_append_right _ hc)) hfails,
        List.length_append, List.length_append, Nat.add_assoc, Nat.add_assoc, Nat.add_assoc]
    · exact run_bind_error (hx.undone hr hn hds hfirst hbefore hfails)

theorem last_insertAll {ds : List NativeObject} (hn : r.last = n)
    (hds : List.Forall₂ (Component.Imports P) done ds) :
    (r.insertAll ds).last = n + done.length := by
  rw [← hn, hds.length_eq]
  rfl

/-- What was imported before is given back if a call fails. -/
theorem Adds.onError {m : Ref} {l : List Handle} (hx : x.Adds P m [] cs a)
    (hm : m = n + done.length) (hl : l.Perm (Component.handles n done)) :
    (x.onError (releaseHandles l)).Adds P n done cs a where
  whole := by
    intro r ds os hr hn hds hos
    subst hm
    have hrun := hx.whole (hr.insertAll ds) (last_insertAll hn hds) .nil hos
    rw [insertAll_nil, List.nil_append, ← insertAll_append] at hrun
    exact bind_run_ok hrun
  undone := by
    intro r ds before c after err hr hn hds hcs hbefore hfails
    subst hm
    have hlast := last_insertAll hn hds
    have hrun := hx.undone (hr.insertAll ds) hlast .nil hcs hbefore hfails
    rw [insertAll_nil] at hrun
    have howns := hl.flatMap_right Handle.owns
    rw [Component.flatMap_owns_handles, ← hn, hds.length_eq] at howns
    have hrelease := releaseHandles_insertAll (n := n + done.length + before.length) hr
      (hlast ▸ Nat.le_add_right _ _) (retained_of_forall₂ hds) howns
    exact (bind_run_ok hrun).trans (bind_run_ok hrelease)

/-- A single component is imported under the next reference. -/
theorem adds_singleton {c : Component} {f : Ref → α}
    (himports : ∀ o, c.Imports P o → ∀ r, x.run r = .ok (.ok (f (r.last + 1))) (r.insert o))
    (hfails : ∀ err, c.Fails P err → ∀ r, x.run r = .ok (.error err) r) :
    x.Adds P n [] [c] (f (n + 1)) where
  whole := by
    rintro r ds os _ rfl hds hos
    obtain ⟨o, os', ho, hnil, rfl⟩ := List.forall₂_cons_left_iff.mp hos
    cases hds
    cases hnil
    rw [insertAll_nil]
    exact himports o ho r
  undone := by
    rintro r ds before c' after err _ rfl hds hcs _ hc
    obtain ⟨rfl, hcs⟩ | ⟨before', rfl, hcs⟩ := List.cons_eq_append_iff.mp hcs
    · cases hds
      cases hcs
      rw [insertAll_nil]
      exact hfails err hc r
    · simp at hcs

/-- What may be missing is imported if it is there. -/
theorem adds_mapM {ι : Type} {f : ι → Action α} {c : ι → Component} {mk : ι → α}
    (hf : ∀ i, (f i).Adds P n [] [c i] (mk i)) (i : Option ι) :
    (i.mapM f).Adds P n [] (i.toList.map c) (i.map mk) := by
  cases i with
  | none => exact adds_pure none
  | some i => exact (hf i).bind (adds_pure (some (mk i)))

end Action

open Keyring.Action

variable (P) (n : Ref)

theorem adds_importPrivate (i : PrivateInfo) :
    (importPrivate P i).Adds P n [] [.privateKey i] ⟨some (n + 1), i⟩ :=
  adds_singleton (c := .privateKey i) (f := fun x => (⟨some x, i⟩ : PrivateHandle))
    (fun _ h => h) fun _ h => h

theorem adds_importCertificate (i : CertificateInfo) :
    (importCertificate P i).Adds P n [] [.certificate i] { ref := some (n + 1), info := i } :=
  adds_singleton (c := .certificate i)
    (f := fun x => ({ ref := some x, info := i } : CertificateHandle)) (fun _ h => h) fun _ h => h

/-- The handles of certificates under successive references after `n`. -/
def certificateHandles (is : List CertificateInfo) : List CertificateHandle :=
  is.mapIdx fun j i => { ref := some (n + 1 + j), info := i }

theorem certificateHandles_concat (is : List CertificateInfo) (i : CertificateInfo) :
    certificateHandles n (is ++ [i]) =
      certificateHandles n is ++ [{ ref := some (n + is.length + 1), info := i }] := by
  rw [certificateHandles, List.mapIdx_concat, Nat.add_right_comm]
  rfl

theorem map_certificateHandles (is : List CertificateInfo) :
    (certificateHandles n is).map Handle.certificate =
      Component.handles n (is.map .certificate) :=
  List.ext_getElem (by simp [certificateHandles, Component.handles]) fun j _ _ => by
    simp [certificateHandles, Component.handles, Component.handle]

theorem map_info_certificateHandles (is : List CertificateInfo) :
    (certificateHandles n is).map (·.info) = is :=
  List.ext_getElem (by simp [certificateHandles]) fun j _ _ => by simp [certificateHandles]

theorem adds_importCertificates (is rest : List CertificateInfo) :
    (importCertificates P (certificateHandles n is) rest).Adds P n (is.map .certificate)
      (rest.map .certificate) (certificateHandles n (is ++ rest)) := by
  induction rest generalizing is with
  | nil =>
    rw [List.append_nil]
    exact adds_pure _
  | cons i rest ih =>
    have hnext := (adds_importCertificate P (n + is.length) i).onError
      (by rw [List.length_map]) (.of_eq (map_certificateHandles n is))
    have hrest := ih (is ++ [i])
    rw [certificateHandles_concat, List.map_append, List.append_assoc] at hrest
    exact hnext.bind hrest

/-- What a container is made of, in order. -/
def ContainerInfo.components (i : ContainerInfo) : List Component :=
  i.privateKey.toList.map .privateKey ++
    (i.certificate.toList.map .certificate ++ i.others.map .certificate)

/-- The handles of a container under successive references after `n`. -/
def ContainerInfo.bundle (i : ContainerInfo) : Bundle where
  privateKey := i.privateKey.map fun k => ⟨some (n + 1), k⟩
  certificate := i.certificate.map fun c =>
    { ref := some (n + i.privateKey.toList.length + 1), info := c }
  others := certificateHandles (n + i.privateKey.toList.length + i.certificate.toList.length)
    i.others

/-- The handles are those of the components, in order. -/
theorem ContainerInfo.all_bundle (i : ContainerInfo) :
    (i.bundle n).all = Component.handles n i.components := by
  obtain ⟨key, certificate, others⟩ := i
  rw [Bundle.all, bundle, components, Component.handles_append, Component.handles_append,
    map_certificateHandles, List.append_assoc, List.length_map, List.length_map]
  cases key <;> cases certificate <;> rfl

/-- **The components of a container are imported one after the other.** -/
theorem adds_importContainer (i : ContainerInfo) :
    (importContainer P i).Adds P n [] i.components (i.bundle n) := by
  obtain ⟨key, certificate, others⟩ := i
  have hkey := adds_mapM (adds_importPrivate P n) key
  have hcertificate := adds_mapM (adds_importCertificate P (n + key.toList.length)) certificate
  have hothers := adds_importCertificates P (n + key.toList.length + certificate.toList.length) []
    others
  have hkeys : (key.map fun k => (⟨some (n + 1), k⟩ : PrivateHandle)).toList.map
      Handle.privateKey = Component.handles n (key.toList.map .privateKey) := by
    cases key <;> rfl
  have hcertificates : (certificate.map fun c =>
      ({ ref := some (n + key.toList.length + 1), info := c } : CertificateHandle)).toList.map
        Handle.certificate = Component.handles (n + key.toList.length)
          (certificate.toList.map .certificate) := by
    cases certificate <;> rfl
  rw [ContainerInfo.components, ← List.append_nil (others.map _)]
  refine hkey.bind ((hcertificate.onError ?_ (.of_eq hkeys)).bind
    ((hothers.onError ?_ ?_).bind (adds_pure _)))
  · simp
  · simp [Nat.add_assoc]
  · show (_ ++ _ : List Handle).Perm (Component.handles n (_ ++ _))
    rw [Component.handles_append, List.length_map, ← hkeys, ← hcertificates]
    exact List.perm_append_comm

/-- **A container is imported whole and in order, or not at all.**  Every component is imported
or fails, whatever else there is.  If all are imported, there is a handle for each, with what is
known of the component, and each owns a new object of its own under the next reference.
Otherwise the first component that fails gives the error, whatever comes after it; what there was
before is what there is afterwards, and only references are used up. -/
theorem loadContainer_all_or_nothing {r : Registry} {s : Source ContainerInfo}
    {password : Option Bytes} {i : ContainerInfo} (hr : r.Ordered)
    (hs : s.resolve (fun b => parseContainer P b password) = .ok i) :
    ((∃ os, List.Forall₂ (Component.Imports P) i.components os) ∨
      ∃ before c after err, i.components = before ++ c :: after ∧
        (∀ b ∈ before, ∃ o, b.Imports P o) ∧ c.Fails P err) ∧
    (∀ os, List.Forall₂ (Component.Imports P) i.components os →
      ∃ b r', (loadContainer P s password).run r = .ok (.ok b) r' ∧
        b.privateKey.map (·.info) = i.privateKey ∧ b.certificate.map (·.info) = i.certificate ∧
        b.others.map (·.info) = i.others ∧ b.all = Component.handles r.last i.components ∧
        r'.entries = r.entries ++ os.mapIdx fun j o => (r.last + 1 + j, ⟨o, 1⟩)) ∧
    ∀ before c after err, i.components = before ++ c :: after →
      (∀ b ∈ before, ∃ o, b.Imports P o) → c.Fails P err →
        ∃ r', (loadContainer P s password).run r = .ok (.error err) r' ∧
          r'.entries = r.entries ∧ r'.last = r.last + before.length := by
  have hrun : (loadContainer P s password).run r = (importContainer P i).run (r.insertAll []) := by
    rw [insertAll_nil, loadContainer, hs]
    rfl
  have hadds := adds_importContainer P r.last i
  rw [hrun]
  refine ⟨Component.all_import_or_first_fails i.components, fun os hos => ?_,
    fun before c after err hcs hbefore hc => ?_⟩
  · refine ⟨_, _, hadds.whole hr rfl .nil hos, ?_, ?_, map_info_certificateHandles _ _,
      i.all_bundle r.last, rfl⟩
    · rw [ContainerInfo.bundle, Option.map_map]
      exact Option.map_id'
    · rw [ContainerInfo.bundle, Option.map_map]
      exact Option.map_id'
  · exact ⟨_, hadds.undone hr rfl .nil hcs hbefore hc, rfl, rfl⟩

/-! ### A container with duplicates -/

section Sample

open Rsa

/-- A private key, a certificate of it and further certificates, put together by hand. -/
def mersenneContainer (others : List Bytes) : ContainerInfo where
  privateKey := some ⟨.rsa, mersenneKey.publicKey.bitSize, [], mersenneKey.write⟩
  certificate := some ⟨mersenneCertificate, mersenneInfo⟩
  others := others.map (⟨·, mersenneInfo⟩)

theorem imports_mersenneKey :
    (Component.privateKey ⟨.rsa, mersenneKey.publicKey.bitSize, [], mersenneKey.write⟩).Imports
      .standard (.key ⟨.ofPrivate (.rsa mersenneKey), true, true⟩) := by
  have hdecode : Service.decodeKey .standard .rsa true mersenneKey.write =
      some (.ofPrivate (.rsa mersenneKey)) := by
    have hread := Provider.standard_mersenne.1.2.2.2
    rw [Service.decodeKey, if_pos rfl, Service.decodePrivate, hread]
    rfl
  exact fun _ => importPrivate_run rfl hdecode rfl

theorem imports_mersenneCertificate :
    (Component.certificate ⟨mersenneCertificate, mersenneInfo⟩).Imports .standard
      (.certificate ⟨mersenneCertificate, some (.rsa mersenneKey.publicKey)⟩) :=
  fun _ => importCertificate_run Provider.standard_certificate_mersenneCertificate

theorem fails_empty :
    (Component.certificate ⟨[], mersenneInfo⟩).Fails .standard (.service .undecodable) := by
  have hdecode : Provider.standard.certificate [] = none := rfl
  intro r
  refine Action.run_bind_error (Action.run_ofService (Service.create_error ?_))
  rw [hdecode]
  rfl

/-- A certificate that is there twice is imported twice.  If there is none at the end of a list,
everything before it is undone. -/
theorem loadContainer_mersenne :
    (∃ b r', (loadContainer .standard
        (.parsed (mersenneContainer [mersenneCertificate, mersenneCertificate])) none).run {} =
          .ok (.ok b) r' ∧
      b.all.map Handle.ref = [some 1, some 2, some 3, some 4] ∧ r'.entries.length = 4) ∧
    ∃ r', (loadContainer .standard (.parsed (mersenneContainer [mersenneCertificate, []]))
        none).run {} = .ok (.error (.service .undecodable)) r' ∧ r'.entries = [] := by
  have hresolve : ∀ i : ContainerInfo, (Source.parsed i).resolve
      (fun b => parseContainer .standard b none) = .ok i := fun _ => rfl
  obtain ⟨-, hwhole, -⟩ := loadContainer_all_or_nothing .standard .empty
    (hresolve (mersenneContainer [mersenneCertificate, mersenneCertificate]))
  obtain ⟨-, -, hundone⟩ := loadContainer_all_or_nothing .standard .empty
    (hresolve (mersenneContainer [mersenneCertificate, []]))
  have hcertificate := imports_mersenneCertificate
  constructor
  · obtain ⟨b, r', hrun, -, -, -, hall, hentries⟩ := hwhole _
      (.cons imports_mersenneKey
        (.cons hcertificate (.cons hcertificate (.cons hcertificate .nil))))
    refine ⟨b, r', hrun, ?_, ?_⟩
    · rw [hall]
      rfl
    · rw [hentries]
      rfl
  · obtain ⟨r', hrun, hentries, -⟩ := hundone
      [.privateKey _, .certificate _, .certificate _] (.certificate ⟨[], mersenneInfo⟩) [] _ rfl
      (by
        intro b hb
        simp only [List.mem_cons, List.not_mem_nil, or_false] at hb
        rcases hb with rfl | rfl | rfl
        · exact ⟨_, imports_mersenneKey⟩
        · exact ⟨_, hcertificate⟩
        · exact ⟨_, hcertificate⟩) fails_empty
    exact ⟨r', hrun, hentries⟩

end Sample

end Keyring
