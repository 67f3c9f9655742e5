import Keyring.Proofs.Service.Calls

/-!
# What calls of the service change

A call that fails changes nothing.  A call that succeeds changes what its arguments name and
nothing else: it adds an object, adds or takes single owners, or sets one attribute of one
transform.  All of this holds whatever was called before, also if references were given back
too often or used after they were freed.

## Main definitions

* `Change` — a change of a registry, entry by entry; `Change.Leads` — what it leads to.
* `Call.Makes` — the change that each call makes when it succeeds.
* `Registry.configure` — a transform is set, before anything is given back.
* `Registry.Loose` — slots name references that were given out, and nothing with slots.
* `Service.Arises` — the registries that calls of any kind lead to.

## Main results

* `releaseAll_leaves` — giving back references of objects without slots takes single owners.
* `Call.loose` — **a registry stays loose whatever is called.**
* `Call.changes` — the change that a call makes of a loose registry.
* `Service.Arises.changes_exactly` — **a failing call changes nothing, any other only what it
  names.**
-/

namespace Keyring

open Registry

variable {P : Provider} {r r' : Registry} {x y : Ref} {o : NativeObject} {e : Entry}

/-! ### Changes -/

/-- An entry with owners added, then taken away; the last one takes the entry with it. -/
def Entry.adjust (e : Entry) (gained lost : Nat) : Option Entry :=
  if e.count + gained ≤ lost then none else some { e with count := e.count + gained - lost }

theorem Entry.adjust_zero (h : 0 < e.count) : e.adjust 0 0 = some e := by
  rw [adjust, if_neg (by omega)]
  rfl

/-- Owners may be taken away in two goes. -/
theorem Entry.adjust_bind (e : Entry) (m n : Nat) :
    ((e.adjust 0 m).bind fun e => e.adjust 0 n) = e.adjust 0 (m + n) := by
  simp only [adjust]
  by_cases hm : e.count + 0 ≤ m
  · rw [if_pos hm, if_pos (by omega), Option.bind_none]
  · rw [if_neg hm, Option.bind_some]
    by_cases hn : e.count + 0 ≤ m + n
    · rw [if_pos hn, if_pos (by dsimp only; omega)]
    · rw [if_neg hn, if_neg (by dsimp only; omega)]
      dsimp only
      rw [Nat.add_zero, Nat.add_zero, Nat.sub_sub]

/-- A change of a registry. -/
structure Change where
  /-- An object that is new. -/
  created : Option NativeObject := none
  /-- A transform that is set, as it is afterwards. -/
  set : Option (Ref × Transform) := none
  /-- What gets an owner, once for every time it is listed. -/
  gained : List Ref := []
  /-- What loses an owner, once for every time it is listed. -/
  lost : List Ref := []

namespace Change

/-- The object of a reference after a change. -/
def objectAt (d : Change) (y : Ref) (o : NativeObject) : NativeObject :=
  match d.set with
  | some (x, t) => if y = x then .transform t else o
  | none => o

/-- What a change leaves of an entry. -/
def kept (d : Change) (r : Registry) (y : Ref) : Option Entry :=
  (r.find? y).bind fun e =>
    Entry.adjust { e with object := d.objectAt y e.object } (d.gained.count y) (d.lost.count y)

/-- The entry of a reference after a change: a new object has one owner, under the next
reference. -/
def entry (d : Change) (r : Registry) (y : Ref) : Option Entry :=
  match d.created with
  | some o => if y = r.last + 1 then some ⟨o, 1⟩ else d.kept r y
  | none => d.kept r y

/-- A change leads from one registry to another. -/
structure Leads (d : Change) (r r' : Registry) : Prop where
  /-- A reference is given out for a new object only. -/
  last_eq : r'.last = r.last + d.created.toList.length
  /-- The entries are those after the change. -/
  find?_eq : ∀ y, r'.find? y = d.entry r y

/-- A change leads to one registry at most. -/
theorem Leads.unique {r'' : Registry} {d : Change} (h : d.Leads r r') (h' : d.Leads r r'')
    (hr' : r'.Ordered) (hr'' : r''.Ordered) : r' = r'' :=
  hr'.ext hr'' (h.last_eq.trans h'.last_eq.symm) fun y => (h.find?_eq y).trans (h'.find?_eq y).symm

end Change

/-- The change that a call makes of a registry when it succeeds, with its answer.  An object
that is not a transform holds on to nothing.  A transform that is created becomes an owner of
its key and its signature; one that is set becomes an owner of what it names now and stops being
one of what it named in its place.  Giving a reference back takes an owner away, and the last
owner of a transform takes with it one of everything that the transform held on to. -/
def Call.Makes (r : Registry) (d : Change) (reply : Reply) : Call → Prop
  | keyEncrypt .. | keyDecrypt .. | dataBytes _ | booleanValue _ => d = {}
  | certificateCreate _ | certificateCopyPublicKey _ | keyCreate .. | dataCreate _
  | numberCreate _ | transformExecute _ =>
    reply = .ref (r.last + 1) ∧ ∃ o, o.retained = [] ∧ d = { created := some o }
  | transformCreate kind x s => reply = .ref (r.last + 1) ∧
    d = { created := some (.transform (.fresh kind x s))
          gained := x :: (Transform.fresh kind x s).signature.toList }
  | transformSet x a => ∃ t, r.object x = .ok (.transform t) ∧ a.Named r ∧
    d = { set := some (x, t.assign a), gained := a.ref?.toList, lost := (t.slot a).toList }
  | release x => ∃ e, r.find? x = some e ∧
    d = { lost := if 1 < e.count then [x] else x :: e.object.slots.reduceOption }

/-- A transform is set and holds on to what it names now; what it named before is still to be
given back. -/
def Registry.configure (r : Registry) (x : Ref) (t : Transform) (a : Attribute) : Registry :=
  (a.ref?.toList.foldl Registry.retain r).replace x (.transform (t.assign a))

/-! ### Loose registries -/

namespace Registry

/-- A registry as calls of any kind leave it.  Slots may name references whose objects are
gone, but no reference that is still to be given out. -/
structure Loose (r : Registry) : Prop where
  /-- References ascend, and every entry has an owner. -/
  sound : r.Sound
  /-- What a slot names was given out. -/
  slot_le : ∀ x o, r.object x = .ok o → ∀ y ∈ o.retained, y ≤ r.last
  /-- What a slot names has no slots, if it is there. -/
  slot_leaf : ∀ x o, r.object x = .ok o → ∀ y ∈ o.retained, ∀ o', r.object y = .ok o' →
    o'.retained = []

theorem Ordered.le_last_of_object (hr : r.Ordered) (h : r.object x = .ok o) : x ≤ r.last := by
  obtain ⟨e, he, -⟩ := object_eq_ok_iff.mp h
  exact hr.find?_le_last he

theorem IsLeaf.retained (h : r.IsLeaf x) (ho : r.object x = .ok o) : o.retained = [] := by
  obtain ⟨o', ho', hnil⟩ := h
  rw [ho] at ho'
  cases ho'
  exact hnil

theorem Balanced.loose {owned : Multiset Ref} (hr : r.Balanced owned) : r.Loose where
  sound := hr.sound
  slot_le := by
    intro x o ho y hy
    obtain ⟨o', ho', -⟩ := hr.shallow x o ho y hy
    exact hr.ordered.le_last_of_object ho'
  slot_leaf := fun x o ho y hy o' ho' => (hr.shallow x o ho y hy).retained ho'

namespace Loose

theorem empty : Loose {} := Balanced.empty.loose

/-- Entries may go, and counts may change. -/
theorem shrink (hr : r.Loose) (hsound : r'.Sound) (hlast : r'.last = r.last)
    (hobject : ∀ y o, r'.object y = .ok o → r.object y = .ok o) : r'.Loose where
  sound := hsound
  slot_le := fun x o ho y hy => hlast ▸ hr.slot_le x o (hobject x o ho) y hy
  slot_leaf := fun x o ho y hy o' ho' =>
    hr.slot_leaf x o (hobject x o ho) y hy o' (hobject y o' ho')

/-- A transform does not name itself. -/
theorem notMem_retained {t : Transform} (hr : r.Loose) (hx : r.object x = .ok (.transform t)) :
    x ∉ t.retained :=
  fun hmem => absurd (hr.slot_leaf x _ hx x hmem _ hx) (List.cons_ne_nil _ _)

theorem retainAll (hr : r.Loose) (refs : List Ref) : (refs.foldl Registry.retain r).Loose := by
  induction refs generalizing r with
  | nil => exact hr
  | cons x rest ih =>
    refine ih (hr.shrink (hr.sound.modify fun _ _ => Nat.succ_pos _) rfl fun y o ho => ?_)
    rwa [object_retain] at ho

theorem insert (hr : r.Loose) (ho : ∀ y ∈ o.retained, r.IsLeaf y) : (r.insert o).Loose where
  sound := hr.sound.insert o
  slot_le := by
    intro x o' hx y hy
    refine Nat.le_succ_of_le ?_
    rcases (object_insert_eq_ok_iff hr.sound.ordered).mp hx with ⟨-, rfl⟩ | hx
    · obtain ⟨o'', ho'', -⟩ := ho y hy
      exact hr.sound.ordered.le_last_of_object ho''
    · exact hr.slot_le x o' hx y hy
  slot_leaf := by
    intro x o' hx y hy o'' hy'
    have hx := (object_insert_eq_ok_iff hr.sound.ordered).mp hx
    rcases (object_insert_eq_ok_iff hr.sound.ordered).mp hy' with ⟨rfl, rfl⟩ | hy'
    · -- nothing names the new object
      exfalso
      rcases hx with ⟨-, rfl⟩ | hx
      · obtain ⟨o'', ho'', -⟩ := ho _ hy
        exact Nat.not_succ_le_self _ (hr.sound.ordered.le_last_of_object ho'')
      · exact Nat.not_succ_le_self _ (hr.slot_le x o' hx _ hy)
    · rcases hx with ⟨-, rfl⟩ | hx
      · exact (ho y hy).retained hy'
      · exact hr.slot_leaf x o' hx y hy o'' hy'

theorem replace (hr : r.Loose) (o' : NativeObject) (hx : r.object x = .ok o)
    (hne : o.retained ≠ []) (hle : ∀ y ∈ o'.retained, y ≤ r.last)
    (hleaf : ∀ y ∈ o'.retained, ∀ o, r.object y = .ok o → o.retained = []) :
    (r.replace x o').Loose := by
  obtain ⟨e, he, rfl⟩ := object_eq_ok_iff.mp hx
  -- the objects afterwards are those before, but for the one that is replaced
  have hobject : ∀ y o, (r.replace x o').object y = .ok o →
      y = x ∧ o = o' ∨ y ≠ x ∧ r.object y = .ok o := by
    intro y o hy
    by_cases hyx : y = x
    · subst hyx
      rw [object_replace_self he] at hy
      cases hy
      exact .inl ⟨rfl, rfl⟩
    · rw [object_replace_of_ne hyx] at hy
      exact .inr ⟨hyx, hy⟩
  have hslot : ∀ y o, (r.replace x o').object y = .ok o → ∀ z ∈ o.retained,
      z ≤ r.last ∧ ∀ o, r.object z = .ok o → o.retained = [] := by
    intro y o hy z hz
    rcases hobject y o hy with ⟨-, rfl⟩ | ⟨-, hy⟩
    · exact ⟨hle z hz, hleaf z hz⟩
    · exact ⟨hr.slot_le y o hy z hz, hr.slot_leaf y o hy z hz⟩
  refine ⟨hr.sound.replace x o',
    fun y o hy z hz => (hslot y o hy z hz).1, fun y o hy z hz o'' hz' => ?_⟩
  rcases hobject z o'' hz' with ⟨rfl, -⟩ | ⟨-, hz'⟩
  · exact absurd ((hslot y o hy z hz).2 _ hx) hne
  · exact (hslot y o hy z hz).2 _ hz'

end Loose

end Registry

/-! ### Giving references back -/

/-- The registry that a call leaves, also if it is abandoned. -/
def finalState {α : Type} : EStateM.Result Halt Registry α → Registry
  | .ok _ r => r
  | .error _ r => r

/-- How a call ends whose last step gives references back. -/
def Service.afterRelease {α : Type} (a : α) :
    EStateM.Result Halt Registry Unit → EStateM.Result Halt Registry α
  | .ok _ r => .ok a r
  | .error h r => .error h r

@[simp] theorem finalState_afterRelease {α : Type} {a : α}
    (result : EStateM.Result Halt Registry Unit) :
    finalState (Service.afterRelease a result) = finalState result := by
  cases result <;> rfl

theorem Service.release_reply (x : Ref) :
    EStateM.map (fun _ => (.ok .done : Except ServiceError Reply)) (Service.release x) r =
      afterRelease (.ok .done) (r.releaseAll [x]) := by
  rw [EStateM.map, release]
  cases r.releaseAll [x] <;> rfl

/-- Giving references back adds nothing and changes no object, also if it is abandoned. -/
theorem Registry.releaseAll_object (r : Registry) (refs : List Ref) :
    (finalState (r.releaseAll refs)).last = r.last ∧
      ∀ y o, (finalState (r.releaseAll refs)).object y = .ok o → r.object y = .ok o := by
  -- along the calls of the release itself, whose list grows when a transform is taken down
  induction r, refs using Registry.releaseAll.induct with
  | case1 r =>
    rw [releaseAll_nil]
    exact ⟨rfl, fun _ _ h => h⟩
  | case2 r x rest h =>
    rw [releaseAll_none h]
    exact ⟨rfl, fun _ _ h => h⟩
  | case3 r x rest e h hc _ ih =>
    rw [releaseAll_disown h hc]
    exact ⟨ih.1, fun y o ho => by rw [← object_disown (x := x)]; exact ih.2 y o ho⟩
  | case4 r x rest e h hc _ ih =>
    rw [releaseAll_last h hc]
    exact ⟨ih.1, fun y o ho => (object_of_erase (ih.2 y o ho)).2⟩

theorem Registry.Sound.releaseAll (hr : r.Sound) (refs : List Ref) :
    (finalState (r.releaseAll refs)).Sound := by
  induction r, refs using Registry.releaseAll.induct with
  | case1 r => rwa [releaseAll_nil]
  | case2 r x rest h => rwa [releaseAll_none h]
  | case3 r x rest e h hc _ ih =>
    rw [releaseAll_disown h hc]
    exact ih (hr.disown h hc)
  | case4 r x rest e h hc _ ih =>
    rw [releaseAll_last h hc]
    exact ih (hr.erase x)

theorem Registry.Loose.releaseAll (hr : r.Loose) (refs : List Ref) :
    (finalState (r.releaseAll refs)).Loose :=
  hr.shrink (hr.sound.releaseAll refs) (releaseAll_object r refs).1 (releaseAll_object r refs).2

/-- An entry that loses nothing stays. -/
theorem bind_adjust_zero (hr : r.Sound) : ((r.find? y).bind fun e => e.adjust 0 0) = r.find? y := by
  cases hfind : r.find? y with
  | none => rfl
  | some e => exact Entry.adjust_zero (hr.count_pos y e hfind)

/-- A list of ownerships is taken from an entry one after the other. -/
theorem bind_adjust_cons (f : Option Entry) (refs : List Ref) :
    ((f.bind fun e => e.adjust 0 ([x].count y)).bind fun e => e.adjust 0 (refs.count y)) =
      f.bind fun e => e.adjust 0 ((x :: refs).count y) := by
  rw [Option.bind_assoc]
  refine congrArg (f.bind ·) (funext fun e => ?_)
  rw [Entry.adjust_bind, ← List.count_append, List.singleton_append]

theorem find?_disown (hr : r.Sound) (hx : r.find? x = some e) (hc : 1 < e.count) :
    (r.modify x Entry.disown).find? y =
      (r.find? y).bind fun e => e.adjust 0 ([x].count y) := by
  rw [find?_modify, List.count_singleton]
  by_cases hy : y = x
  · subst hy
    rw [if_pos rfl, hx, Option.map_some, Option.bind_some, Entry.adjust, if_neg (by simpa using hc)]
    simp [Entry.disown]
  · rw [if_neg hy, if_neg (by simpa using Ne.symm hy), bind_adjust_zero hr]

theorem find?_erase_last (hr : r.Sound) (hx : r.find? x = some e) (hc : ¬1 < e.count) :
    (r.erase x).find? y = (r.find? y).bind fun e => e.adjust 0 ([x].count y) := by
  rw [find?_erase, List.count_singleton]
  by_cases hy : y = x
  · subst hy
    rw [if_pos rfl, hx, Option.bind_some, Entry.adjust, if_pos (by simpa using hc)]
  · rw [if_neg hy, if_neg (by simpa using Ne.symm hy), bind_adjust_zero hr]

/-- Giving back references of objects without slots takes single owners away. -/
theorem releaseAll_leaves {refs : List Ref} (hr : r.Sound)
    (hleaf : ∀ y ∈ refs, ∀ o, r.object y = .ok o → o.retained = [])
    (h : r.releaseAll refs = .ok () r') :
    r'.last = r.last ∧
      ∀ y, r'.find? y = (r.find? y).bind fun e => e.adjust 0 (refs.count y) := by
  induction refs generalizing r with
  | nil =>
    rw [releaseAll_nil, EStateM.Result.ok.injEq] at h
    rw [← h.2]
    exact ⟨rfl, fun y => (bind_adjust_zero hr).symm⟩
  | cons x rest ih =>
    have hrest : ∀ y ∈ rest, ∀ o, r.object y = .ok o → o.retained = [] :=
      fun y hy => hleaf y (List.mem_cons_of_mem x hy)
    cases hx : r.find? x with
    | none =>
      rw [releaseAll_none hx] at h
      cases h
    | some e =>
      by_cases hc : 1 < e.count
      · rw [releaseAll_disown hx hc] at h
        obtain ⟨hlast, hfind⟩ := ih (hr.disown hx hc)
          (fun y hy o ho => hrest y hy o (by rwa [object_disown] at ho)) h
        exact ⟨hlast, fun y => by rw [hfind, find?_disown hr hx hc, bind_adjust_cons]⟩
      · -- without slots nothing is added to the list, so an induction on the list will do
        have hnil := hleaf x List.mem_cons_self _ (object_of_find? hx)
        rw [releaseAll_last hx hc, hnil, List.nil_append] at h
        obtain ⟨hlast, hfind⟩ := ih (hr.erase x)
          (fun y hy o ho => hrest y hy o (object_of_erase ho).2) h
        exact ⟨hlast, fun y => by rw [hfind, find?_erase_last hr hx hc, bind_adjust_cons]⟩

/-- What a slot named is given back, or is gone already. -/
theorem releaseAll_slot {slot : Option Ref} {err : Halt}
    (h : r.releaseAll slot.toList = .error err r')
    (hleaf : ∀ y ∈ slot.toList, ∀ o, r.object y = .ok o → o.retained = []) :
    r' = r ∧ ∃ y, slot = some y ∧ r.find? y = none := by
  cases slot with
  | none =>
    rw [Option.toList_none, releaseAll_nil] at h
    cases h
  | some y =>
    rw [Option.toList_some] at h hleaf
    cases hy : r.find? y with
    | none =>
      rw [releaseAll_none hy] at h
      cases h
      exact ⟨rfl, y, rfl, hy⟩
    | some e =>
      by_cases hc : 1 < e.count
      · rw [releaseAll_disown hy hc, releaseAll_nil] at h
        cases h
      · have hnil := hleaf y List.mem_cons_self _ (object_of_find? hy)
        rw [releaseAll_last hy hc, hnil, List.nil_append, releaseAll_nil] at h
        cases h

theorem find?_releaseAll_slot {slot : Option Ref} (hr : r.Sound)
    (hleaf : ∀ y ∈ slot.toList, ∀ o, r.object y = .ok o → o.retained = []) :
    (finalState (r.releaseAll slot.toList)).find? y =
      (r.find? y).bind fun e => e.adjust 0 (slot.toList.count y) := by
  cases hrelease : r.releaseAll slot.toList with
  | ok u r' => exact (releaseAll_leaves hr hleaf hrelease).2 y
  | error err r' =>
    obtain ⟨rfl, z, rfl, hz⟩ := releaseAll_slot hrelease hleaf
    rw [finalState, Option.toList_some, List.count_singleton]
    by_cases hy : y = z
    · rw [hy, hz, Option.bind_none]
    · rw [if_neg (by simpa using Ne.symm hy), bind_adjust_zero hr]

/-- The last owner of an object lets go of it and of some of what it held on to. -/
theorem Registry.Loose.leads_taken_down {front : List Ref} (hr : r.Loose) (hx : r.find? x = some e)
    (hc : ¬1 < e.count) (hfront : front ⊆ e.object.retained)
    (h : (r.erase x).releaseAll front = .ok () r') :
    Change.Leads { lost := x :: front } r r' := by
  obtain ⟨hlast, hfind⟩ := releaseAll_leaves (hr.sound.erase x)
    (fun y hy o ho => hr.slot_leaf x _ (object_of_find? hx) y (hfront hy) o (object_of_erase ho).2)
    h
  refine ⟨hlast, fun y => ?_⟩
  rw [hfind, find?_erase_last hr.sound hx hc]
  exact bind_adjust_cons _ _

/-! ### One call -/

namespace Service

/-- A call fails without a change, or makes a change that is wanted. -/
def Changes (s : Service Reply) (r : Registry) (wanted : Change → Reply → Prop) : Prop :=
  (∀ err r', s r = .ok (.error err) r' → r' = r) ∧
    ∀ reply r', s r = .ok (.ok reply) r' → ∃ d, wanted d reply ∧ d.Leads r r'

section Answers

variable {α : Type} {f : α → Reply} {s : Service α} {wanted : Change → Reply → Prop}

theorem changes_of_error {err : ServiceError} (h : s r = .ok (.error err) r) :
    Changes (s.reply f) r wanted := by
  have hreply := reply_eq_ok (f := f) h
  constructor
  · intro err' r' h'
    rw [hreply] at h'
    cases h'
    rfl
  · intro reply r' h'
    rw [hreply] at h'
    cases h'

theorem changes_of_ok {a : α} {d : Change} (h : s r = .ok (.ok a) r') (hwanted : wanted d (f a))
    (hd : d.Leads r r') : Changes (s.reply f) r wanted := by
  have hreply := reply_eq_ok (f := f) h
  constructor
  · intro err r'' h'
    rw [hreply] at h'
    cases h'
  · intro reply r'' h'
    rw [hreply] at h'
    cases h'
    exact ⟨d, hwanted, hd⟩

/-- A call that is abandoned has no answer. -/
theorem changes_of_abandoned {err : Halt} (h : s r = .error err r') :
    Changes (s.reply f) r wanted := by
  have hreply : s.reply f r = .error err r' := by rw [reply, EStateM.map, h]
  constructor
  · intro err' r'' h'
    rw [hreply] at h'
    cases h'
  · intro reply r'' h'
    rw [hreply] at h'
    cases h'

end Answers

theorem leads_nothing (hr : r.Sound) : Change.Leads {} r r :=
  ⟨rfl, fun _ => (bind_adjust_zero hr).symm⟩

theorem find?_retainAll (refs : List Ref) :
    (refs.foldl Registry.retain r).find? y =
      (r.find? y).map fun e => { e with count := e.count + refs.count y } := by
  induction refs generalizing r with
  | nil => simp
  | cons x rest ih =>
    rw [List.foldl_cons, ih, find?_retain, List.count_cons]
    by_cases hy : y = x
    · subst hy
      rw [if_pos rfl, Option.map_map]
      refine congrArg (fun f => (r.find? y).map f) (funext fun e => ?_)
      simp only [Function.comp_apply, beq_self_eq_true, if_true]
      rw [Nat.add_assoc, Nat.add_comm 1]
    · rw [if_neg hy, if_neg (by simpa using Ne.symm hy), Nat.add_zero]

@[simp] theorem last_retainAll (refs : List Ref) :
    (refs.foldl Registry.retain r).last = r.last := by
  induction refs generalizing r with
  | nil => rfl
  | cons x rest ih => rw [List.foldl_cons, ih, last_retain]

/-- An object is added after what it holds on to was retained. -/
theorem leads_insert (hr : r.Loose) (gained : List Ref) :
    Change.Leads { created := some o, gained := gained } r
      ((gained.foldl Registry.retain r).insert o) where
  last_eq := by rw [last_insert, last_retainAll]; rfl
  find?_eq := by
    intro y
    have hheld := (hr.retainAll gained).sound
    rw [find?_insert hheld.ordered, last_retainAll, find?_retainAll]
    show _ = if y = r.last + 1 then _ else (r.find? y).bind fun e => e.adjust (gained.count y) 0
    refine if_congr Iff.rfl rfl ?_
    cases hfind : r.find? y with
    | none => rfl
    | some e =>
      have hpos := hr.sound.count_pos y e hfind
      rw [Option.map_some, Option.bind_some, Entry.adjust, if_neg (by omega)]
      rfl

theorem changes_query {α : Type} {f : Registry → Except ServiceError α} {g : α → Reply}
    (hr : r.Sound) : Changes ((query f).reply g) r fun d _ => d = {} := by
  have hcall : query f r = .ok (f r) r := rfl
  cases ha : f r with
  | error e =>
    rw [ha] at hcall
    exact changes_of_error hcall
  | ok a =>
    rw [ha] at hcall
    exact changes_of_ok hcall rfl (leads_nothing hr)

theorem AddsLeaf.changes {s : Service Ref} (hs : AddsLeaf s) (hr : r.Loose) :
    Changes (s.reply .ref) r fun d reply => reply = .ref (r.last + 1) ∧
      ∃ o, o.retained = [] ∧ d = { created := some o } := by
  obtain ⟨f, rfl, hf⟩ := hs
  cases ho : f r with
  | error e => exact changes_of_error (create_error ho)
  | ok o => exact changes_of_ok (create_ok ho) ⟨rfl, o, hf r o ho, rfl⟩ (leads_insert hr [])

theorem changes_transformCreate (kind : TransformKind) (x : Ref) (s : Option Ref) (hr : r.Loose) :
    Changes ((transformCreate kind x s).reply .ref) r fun d reply => reply = .ref (r.last + 1) ∧
      d = { created := some (.transform (.fresh kind x s))
            gained := x :: (Transform.fresh kind x s).signature.toList } := by
  cases ht : newTransform r kind x s with
  | error e => exact changes_of_error (transformCreate_error ht)
  | ok t =>
    have hcall := transformCreate_ok ht
    rw [last_retainAll] at hcall
    obtain ⟨rfl, -⟩ := newTransform_eq_ok ht
    rw [Transform.retained_fresh] at hcall
    exact changes_of_ok hcall ⟨rfl, rfl⟩ (leads_insert hr _)

/-- What a transform names in the place of a setting has no slots, if it is there. -/
theorem slot_leaf_configure {t : Transform} {a : Attribute} (hr : r.Loose)
    (hx : r.object x = .ok (.transform t)) :
    ∀ y ∈ (t.slot a).toList, ∀ o, (r.configure x t a).object y = .ok o → o.retained = [] := by
  intro y hy o ho
  have hyt := Transform.mem_retained_of_slot hy
  have hyx : y ≠ x := ne_of_mem_of_not_mem hyt (hr.notMem_retained hx)
  rw [configure, object_replace_of_ne hyx, object_retainAll] at ho
  exact hr.slot_leaf x _ hx y hyt o ho

/-- What a transform is set to gets its owner before what it named in its place loses one, if
that is there. -/
theorem leads_set {t : Transform} {a : Attribute} (hr : r.Loose)
    (hx : r.object x = .ok (.transform t)) :
    Change.Leads { set := some (x, t.assign a), gained := a.ref?.toList,
                   lost := (t.slot a).toList } r
      (finalState ((r.configure x t a).releaseAll (t.slot a).toList)) := by
  have hsound : (r.configure x t a).Sound := (hr.retainAll a.ref?.toList).sound.replace x _
  refine ⟨?_, fun y => ?_⟩
  · rw [(releaseAll_object _ _).1, configure, last_replace, last_retainAll]
    rfl
  · rw [find?_releaseAll_slot hsound (slot_leaf_configure hr hx), configure, find?_replace,
      find?_retainAll, find?_retainAll]
    show _ = (r.find? y).bind _
    by_cases hy : y = x
    · subst hy
      rw [if_pos rfl, Option.map_map]
      cases r.find? y with
      | none => rfl
      | some e => simp [Change.objectAt, Entry.adjust]
    · rw [if_neg hy]
      cases r.find? y with
      | none => rfl
      | some e => simp [Change.objectAt, Entry.adjust, hy]

/-- How a setting that is not refused ends. -/
theorem transformSet_of_setting {t : Transform} {a : Attribute}
    (hs : setting r x a = .ok ⟨t.assign a, a.ref?, t.slot a⟩) :
    transformSet x a r =
      afterRelease (.ok ()) ((r.configure x t a).releaseAll (t.slot a).toList) := by
  rw [transformSet, hs]
  dsimp only
  rw [← configure]
  cases (r.configure x t a).releaseAll (t.slot a).toList <;> rfl

theorem changes_transformSet (x : Ref) (a : Attribute) (hr : r.Loose) :
    Changes ((transformSet x a).reply fun _ => .done) r fun d _ =>
      ∃ t, r.object x = .ok (.transform t) ∧ a.Named r ∧
        d = { set := some (x, t.assign a), gained := a.ref?.toList
              lost := (t.slot a).toList } := by
  cases hs : setting r x a with
  | error e => exact changes_of_error (transformSet_error hs)
  | ok s =>
    obtain ⟨t, ht, rfl, hnamed⟩ := setting_eq_ok hs
    have hcall := transformSet_of_setting hs
    have hleads := leads_set (a := a) hr ht
    generalize (r.configure x t a).releaseAll (t.slot a).toList = result at hcall hleads
    cases result with
    | error err r' => exact changes_of_abandoned hcall
    | ok u r' => exact changes_of_ok hcall ⟨t, ht, hnamed, rfl⟩ hleads

theorem changes_release (x : Ref) (hr : r.Loose) :
    Changes (EStateM.map (fun _ => .ok .done) (Service.release x)) r fun d _ =>
      ∃ e, r.find? x = some e ∧
        d = { lost := if 1 < e.count then [x] else x :: e.object.slots.reduceOption } := by
  unfold Changes EStateM.map Service.release
  cases hrelease : r.releaseAll [x] with
  | error h r'' => constructor <;> intro _ _ h <;> cases h
  | ok u r'' =>
    constructor <;> intro _ _ h <;> cases h
    cases hx : r.find? x with
    | none =>
      rw [releaseAll_none hx] at hrelease
      cases hrelease
    | some e =>
      refine ⟨_, ⟨e, rfl, rfl⟩, ?_⟩
      by_cases hc : 1 < e.count
      · rw [releaseAll_disown hx hc, releaseAll_nil, EStateM.Result.ok.injEq] at hrelease
        rw [if_pos hc, ← hrelease.2]
        exact ⟨rfl, fun y => find?_disown hr.sound hx hc⟩
      · rw [releaseAll_last hx hc, List.append_nil] at hrelease
        rw [if_neg hc, NativeObject.reduceOption_slots]
        exact hr.leads_taken_down hx hc (List.Subset.refl _) hrelease

/-! ### What is left of a loose registry -/

theorem finalState_reply {α : Type} (f : α → Reply) (s : Service α) :
    finalState (s.reply f r) = finalState (s r) := by
  unfold reply EStateM.map
  cases s r <;> rfl

theorem AddsLeaf.loose {s : Service Ref} (hs : AddsLeaf s) (hr : r.Loose) :
    (finalState (s.reply .ref r)).Loose := by
  obtain ⟨f, rfl, hf⟩ := hs
  rw [finalState_reply]
  cases ho : f r with
  | error e => rwa [create_error ho]
  | ok o =>
    rw [create_ok ho]
    exact hr.insert (by simp [hf r o ho])

theorem loose_transformCreate (kind : TransformKind) (x : Ref) (s : Option Ref) (hr : r.Loose) :
    (finalState ((transformCreate kind x s).reply .ref r)).Loose := by
  rw [finalState_reply]
  cases ht : newTransform r kind x s with
  | error e => rwa [transformCreate_error ht]
  | ok t =>
    rw [transformCreate_ok ht]
    refine (hr.retainAll _).insert fun y hy => ?_
    rw [IsLeaf, object_retainAll]
    exact isLeaf_of_newTransform ht y hy

/-- A transform may be set to what is there. -/
theorem loose_configure {t : Transform} {a : Attribute} (hr : r.Loose)
    (hx : r.object x = .ok (.transform t)) (ha : a.Named r) : (r.configure x t a).Loose := by
  have hheld := hr.retainAll a.ref?.toList
  have htheld : (a.ref?.toList.foldl Registry.retain r).object x = .ok (.transform t) := by
    rw [object_retainAll, hx]
  have hslot : ∀ y ∈ (t.assign a).retained, (a.ref?.toList.foldl Registry.retain r).IsLeaf y ∨
      y ∈ t.retained := by
    intro y hy
    rcases mem_retained_assign hy with hy | hy
    · rw [IsLeaf, object_retainAll]
      exact .inl (isLeaf_of_named ha y hy)
    · exact .inr hy
  refine hheld.replace (.transform (t.assign a)) htheld (List.cons_ne_nil _ _)
    (fun y hy => ?_) fun y hy o ho => ?_
  · rcases hslot y hy with ⟨o, ho, -⟩ | hy
    · exact hheld.sound.ordered.le_last_of_object ho
    · exact hheld.slot_le x _ htheld y hy
  · rcases hslot y hy with hleaf | hy
    · exact hleaf.retained ho
    · exact hheld.slot_leaf x _ htheld y hy o ho

theorem loose_transformSet (x : Ref) (a : Attribute) (hr : r.Loose) :
    (finalState ((transformSet x a).reply (fun _ => .done) r)).Loose := by
  rw [finalState_reply]
  cases hs : setting r x a with
  | error e => rwa [transformSet_error hs]
  | ok s =>
    obtain ⟨t, ht, rfl, hnamed⟩ := setting_eq_ok hs
    rw [transformSet_of_setting hs, finalState_afterRelease]
    exact (loose_configure hr ht hnamed).releaseAll _

theorem loose_release (x : Ref) (hr : r.Loose) :
    (finalState (EStateM.map (fun _ => (.ok .done : Except ServiceError Reply))
      (Service.release x) r)).Loose := by
  rw [release_reply, finalState_afterRelease]
  exact hr.releaseAll [x]

end Service

/-- **A registry stays loose whatever is called**, also by a call that is abandoned. -/
theorem Call.loose (c : Call) (e : Entropy) (hr : r.Loose) :
    (finalState (c.make P e r)).Loose := by
  cases c with
  | certificateCreate b => exact (Service.addsLeaf_certificateCreate b).loose hr
  | certificateCopyPublicKey x => exact (Service.addsLeaf_certificateCopyPublicKey x).loose hr
  | keyCreate a b => exact (Service.addsLeaf_keyCreate a b).loose hr
  | keyEncrypt x n b => exact hr
  | keyDecrypt x n b => exact hr
  | dataCreate b => exact (Service.addsLeaf_dataCreate b).loose hr
  | numberCreate v => exact (Service.addsLeaf_numberCreate v).loose hr
  | transformCreate kind x s => exact Service.loose_transformCreate kind x s hr
  | transformSet x a => exact Service.loose_transformSet x a hr
  | transformExecute x => exact (Service.addsLeaf_transformExecute x e).loose hr
  | dataBytes x => exact hr
  | booleanValue x => exact hr
  | release x => exact Service.loose_release x hr

/-- The change that a call makes of a loose registry. -/
theorem Call.changes (c : Call) (e : Entropy) (hr : r.Loose) :
    Service.Changes (c.make P e) r fun d reply => c.Makes r d reply := by
  cases c with
  | certificateCreate b => exact (Service.addsLeaf_certificateCreate b).changes hr
  | certificateCopyPublicKey x => exact (Service.addsLeaf_certificateCopyPublicKey x).changes hr
  | keyCreate a b => exact (Service.addsLeaf_keyCreate a b).changes hr
  | keyEncrypt x n b => exact Service.changes_query hr.sound
  | keyDecrypt x n b => exact Service.changes_query hr.sound
  | dataCreate b => exact (Service.addsLeaf_dataCreate b).changes hr
  | numberCreate v => exact (Service.addsLeaf_numberCreate v).changes hr
  | transformCreate kind x s => exact Service.changes_transformCreate kind x s hr
  | transformSet x a => exact Service.changes_transformSet x a hr
  | transformExecute x => exact (Service.addsLeaf_transformExecute x e).changes hr
  | dataBytes x => exact Service.changes_query hr.sound
  | booleanValue x => exact Service.changes_query hr.sound
  | release x => exact Service.changes_release x hr

/-! ### Histories of any kind -/

namespace Service

/-- A registry that calls lead to, whoever owns what: references may be given back too often
and used after they were freed, and a call that is abandoned leaves what it has done by then. -/
inductive Arises (P : Provider) : Registry → Prop where
  | start : Arises P {}
  | call {r : Registry} (c : Call) (e : Entropy) :
      Arises P r → Arises P (finalState (c.make P e r))

/-- The next registry of a history, after a call that comes to its end. -/
theorem Arises.next {a : Except ServiceError Reply} (h : Arises P r) (c : Call) (e : Entropy)
    (hmake : c.make P e r = .ok a r') : Arises P r' := by
  have hnext := h.call c e
  rwa [hmake] at hnext

theorem Arises.loose (h : Arises P r) : r.Loose := by
  induction h with
  | start => exact Loose.empty
  | call c e _ ih => exact c.loose e ih

/-- **A call that fails changes nothing; one that succeeds changes what it names and nothing
else**, whatever was called before.  What is created gets a reference that no object has, and one
owner. -/
theorem Arises.changes_exactly (h : Arises P r) (c : Call) (e : Entropy) :
    r.find? (r.last + 1) = none ∧
    (∀ err r', c.make P e r = .ok (.error err) r' → r' = r) ∧
    ∀ reply r', c.make P e r = .ok (.ok reply) r' → ∃ d, c.Makes r d reply ∧ d.Leads r r' := by
  have hr := h.loose
  obtain ⟨herror, hok⟩ := c.changes (P := P) e hr
  exact ⟨hr.sound.ordered.find?_eq_none (Nat.lt_succ_self _), herror, hok⟩

/-- A byte string that is given back twice by its creator is gone, though a transform names it
as its input.  Executing the transform fails and changes nothing. -/
theorem changes_exactly_freed : ∃ r t err r', Arises .standard r ∧
    r.object 3 = .ok (.transform t) ∧ t.input = some 2 ∧ r.find? 2 = none ∧
    Call.make .standard (fun _ => 0) (.transformExecute 3) r = .ok (.error err) r' ∧ r' = r := by
  let e : Entropy := fun _ => 0
  let bare : Transform := { kind := .encrypt, key := 1, signature := none }
  let full : Transform := { bare with input := some 2 }
  let held : Registry := ⟨3, [(1, ⟨sampleKey, 2⟩), (2, ⟨.data [7], 2⟩), (3, ⟨.transform full, 1⟩)]⟩
  have h₁ : Arises .standard ⟨1, [(1, ⟨sampleKey, 1⟩)]⟩ :=
    Arises.start.next createSample e (make_createSample e)
  have h₂ : Arises .standard ⟨2, [(1, ⟨sampleKey, 1⟩), (2, ⟨.data [7], 1⟩)]⟩ :=
    h₁.next (.dataCreate [7]) e rfl
  have h₃ : Arises .standard
      ⟨3, [(1, ⟨sampleKey, 2⟩), (2, ⟨.data [7], 1⟩), (3, ⟨.transform bare, 1⟩)]⟩ :=
    h₂.next (.transformCreate .encrypt 1 none) e rfl
  have h₄ : Arises .standard held :=
    h₃.next (.transformSet 3 (.input 2)) e
      (reply_eq_ok (transformSet_input (b := [7]) rfl rfl rfl))
  have hfirst : held.releaseAll [2] = .ok () (held.modify 2 Entry.disown) := by
    rw [releaseAll_disown (e := ⟨.data [7], 2⟩) rfl (by decide), releaseAll_nil]
  have h₅ : Arises .standard (held.modify 2 Entry.disown) :=
    h₄.next (.release 2) e (Call.make_release hfirst)
  -- the transform is not asked
  have hsecond : (held.modify 2 Entry.disown).releaseAll [2] =
      .ok () ((held.modify 2 Entry.disown).erase 2) := by
    rw [releaseAll_last (e := ⟨.data [7], 1⟩) rfl (by decide)]
    exact releaseAll_nil
  have h₆ : Arises .standard ((held.modify 2 Entry.disown).erase 2) :=
    h₅.next (.release 2) e (Call.make_release hsecond)
  have hmake : Call.make .standard e (.transformExecute 3)
      ((held.modify 2 Entry.disown).erase 2) = .ok (.error .unknownReference)
        ((held.modify 2 Entry.disown).erase 2) := rfl
  exact ⟨_, full, _, _, h₆, rfl, rfl, rfl, hmake,
    (h₆.changes_exactly (.transformExecute 3) e).2.1 _ _ hmake⟩

end Service

end Keyring
