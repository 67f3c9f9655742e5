import Keyring.Proofs.Service.Identity
import Mathlib.Data.List.Induction

/-!
# Setting transforms up

A transform is set up by one setting after the other, and any of them may be refused.  What
comes of it is told by the last setting of each place that was not refused: the transform, what
it holds on to and the owners of everything that was put in and replaced in between.  Whether a
setting is refused does not depend on those before it.

The settings are gone through with an invariant, `Service.Configured`: measured against the
registry of the beginning, the transform is what the settings so far make of it, and the counts
differ by what it is set to now and what it was set to then.  One more setting is a change on top
of a change, and the two are put together by `Change.Leads.set_again`; what was put in and replaced
in between cancels out.  Since a change leads to one registry, settings with the same last ones
lead to the same.

## Main definitions

* `Attribute.Place`, `Attribute.lastOf` — the places of a transform and their last settings.
* `Transform.attribute?`, `Transform.assignAll` — what a transform is set to, and a transform
  after several settings.
* `Attribute.Suits` — what a setting asks of the key.
* `Service.setAll` — settings of a transform, with those that were not refused.
* `Service.Configured` — what settings keep.

## Main results

* `Transform.attribute?_assignAll` — of several settings the last one of a place counts.
* `Change.Leads.set_again` — a transform that was set is set once more.
* `Service.Configured.set` — **one setting, refused or not.**
* `Service.capture_congr` — when an execution captures the same of two transforms.
* `Service.Arises.set_in_any_order` — **transforms are set up in any order, and the last setting
  of a place counts.**
-/

namespace Keyring

open Registry Service

variable {P : Provider} {r r' r'' : Registry} {x y : Ref} {o : NativeObject} {e : Entry}
  {t u : Transform} {a : Attribute} {as bs : List Attribute}
  {issued : List (Ref × NativeObject)}

/-! ### Places -/

/-- The places of a transform that can be set. -/
inductive Attribute.Place where
  | digestType
  | digestLength
  | padding
  | input
  deriving DecidableEq, Repr

namespace Attribute

/-- The place that a setting is for. -/
def place : Attribute → Place
  | digestType _ => .digestType
  | digestLength _ => .digestLength
  | padding _ => .padding
  | input _ => .input

/-- The last setting of a place. -/
def lastOf (p : Place) (as : List Attribute) : Option Attribute :=
  as.reverse.find? fun a => a.place = p

variable {p : Place}

theorem lastOf_concat :
    lastOf p (as ++ [a]) = if a.place = p then some a else lastOf p as := by
  rw [lastOf, List.reverse_append, List.reverse_singleton, List.singleton_append, List.find?_cons]
  by_cases hp : a.place = p <;> simp [hp, lastOf]

end Attribute

namespace Transform

variable {p : Attribute.Place}

/-- What a transform is set to in a place. -/
def attribute? (t : Transform) : Attribute.Place → Option Attribute
  | .digestType => t.digestType.map .digestType
  | .digestLength => t.digestLength.map .digestLength
  | .padding => t.padding.map .padding
  | .input => t.input.map .input

theorem attribute?_assign :
    (t.assign a).attribute? p = if a.place = p then some a else t.attribute? p := by
  cases a <;> cases p <;> rfl

/-- A transform after several settings. -/
def assignAll (t : Transform) (as : List Attribute) : Transform := as.foldl assign t

theorem assignAll_concat : t.assignAll (as ++ [a]) = (t.assignAll as).assign a :=
  List.foldl_concat _ _ _ _

/-- Settings leave what a transform was created for. -/
theorem assignAll_keeps (t : Transform) (as : List Attribute) : (t.assignAll as).kind = t.kind ∧
    (t.assignAll as).key = t.key ∧ (t.assignAll as).signature = t.signature := by
  induction as using List.reverseRecOn with
  | nil => exact ⟨rfl, rfl, rfl⟩
  | append_singleton as a ih =>
    rw [assignAll_concat, kind_assign, key_assign, signature_assign]
    exact ih

/-- Of several settings the last one of a place counts. -/
theorem attribute?_assignAll :
    (t.assignAll as).attribute? p = (Attribute.lastOf p as).or (t.attribute? p) := by
  induction as using List.reverseRecOn with
  | nil => rfl
  | append_singleton as a ih =>
    rw [assignAll_concat, attribute?_assign, Attribute.lastOf_concat, ih]
    by_cases hp : a.place = p
    · rw [if_pos hp, if_pos hp, Option.some_or]
    · rw [if_neg hp, if_neg hp]

/-! What a transform is set to in a place determines the place. -/

theorem digestType_eq (h : t.attribute? .digestType = u.attribute? .digestType) :
    t.digestType = u.digestType :=
  Option.map_injective (fun _ _ => Attribute.digestType.inj) h

theorem digestLength_eq (h : t.attribute? .digestLength = u.attribute? .digestLength) :
    t.digestLength = u.digestLength :=
  Option.map_injective (fun _ _ => Attribute.digestLength.inj) h

theorem padding_eq (h : t.attribute? .padding = u.attribute? .padding) : t.padding = u.padding :=
  Option.map_injective (fun _ _ => Attribute.padding.inj) h

theorem input_eq (h : t.attribute? .input = u.attribute? .input) : t.input = u.input :=
  Option.map_injective (fun _ _ => Attribute.input.inj) h

/-- The last settings of its places determine a transform that is set up. -/
theorem assignAll_congr
    (h : ∀ p, Attribute.lastOf p as = Attribute.lastOf p bs) : t.assignAll as = t.assignAll bs := by
  have hplace : ∀ p, (t.assignAll as).attribute? p = (t.assignAll bs).attribute? p := by
    intro p
    rw [attribute?_assignAll, attribute?_assignAll, h]
  obtain ⟨hkind, hkey, hsignature⟩ := t.assignAll_keeps as
  obtain ⟨hkind', hkey', hsignature'⟩ := t.assignAll_keeps bs
  rw [mk.injEq]
  exact ⟨hkind.trans hkind'.symm, hkey.trans hkey'.symm, hsignature.trans hsignature'.symm,
    digestType_eq (hplace _), digestLength_eq (hplace _), padding_eq (hplace _),
    input_eq (hplace _)⟩

/-- A setting puts one reference in and takes another one out. -/
theorem count_assign : (t.slot a).toList.count y + (t.assign a).attributes.count y =
    a.ref?.toList.count y + t.attributes.count y := by
  have hperm := (perm_assign t a).count_eq y
  rw [retained_eq, retained_eq, key_assign, signature_assign] at hperm
  simp only [List.count_append] at hperm
  omega

/-- What a transform is set to was put in, or it was set to it before. -/
theorem mem_attributes_assign (h : y ∈ (t.assign a).attributes) :
    y ∈ a.ref?.toList ∨ y ∈ t.attributes := by
  have hcount := count_assign (t := t) (a := a) (y := y)
  have hpos := List.count_pos_iff.mpr h
  rw [← List.count_pos_iff, ← List.count_pos_iff]
  omega

end Transform

/-! ### What is refused -/

/-- The algorithm of a key, if it is there. -/
def Registry.keyAlgorithm? (r : Registry) (x : Ref) : Option KeyAlgorithm :=
  match r.key x with
  | .ok k => k.material.algorithm?
  | .error _ => none

theorem Registry.keyAlgorithm?_congr (h : r'.find? x = r.find? x) :
    r'.keyAlgorithm? x = r.keyAlgorithm? x := by
  rw [keyAlgorithm?, keyAlgorithm?, key_congr (object_congr h)]

/-- What a setting asks of the key: only RSA keys are padded. -/
def Attribute.Suits (algorithm : Option KeyAlgorithm) : Attribute → Prop
  | padding p => p ≠ .raw → algorithm = some .rsa
  | _ => True

namespace Service

/-- A setting was not refused: it was made, also if what it replaced could not be given back. -/
def accepts : EStateM.Result Halt Registry (Except ServiceError Unit) → Bool
  | .ok (.error _) _ => false
  | _ => true

theorem accepts_afterRelease (result : EStateM.Result Halt Registry Unit) :
    accepts (afterRelease (.ok ()) result) = true := by
  cases result <;> rfl

/-- A setting is checked for what it names and for the key, not for other settings. -/
theorem exists_setting_iff (hx : r.object x = .ok (.transform t)) :
    (∃ s, setting r x a = .ok s) ↔ a.Named r ∧ a.Suits (r.keyAlgorithm? t.key) := by
  have ht := transform_eq_ok_iff.mpr hx
  cases a with
  | digestType family =>
    simp [setting, transformToChange_eq_ok_iff.mpr hx, Attribute.Named, Attribute.Suits]
  | digestLength number =>
    simp only [setting, ht, ok_bind, Attribute.Named, Attribute.Suits, ← number_eq_ok_iff]
    cases r.number number <;> simp
  -- the one setting that looks at the key
  | padding padding =>
    simp only [setting, ht, ok_bind, Attribute.Named, Attribute.Suits, keyAlgorithm?]
    by_cases hraw : padding = .raw
    · simp [hraw]
    · cases hk : r.key t.key with
      | error err => simp [hraw]
      | ok k => by_cases hrsa : k.material.algorithm? = some .rsa <;> simp [hraw, hrsa]
  | input data =>
    simp only [setting, ht, ok_bind, Attribute.Named, Attribute.Suits, ← data_eq_ok_iff]
    cases r.data data <;> simp

theorem accepts_iff : accepts (transformSet x a r) = true ↔ ∃ t,
    r.object x = .ok (.transform t) ∧ a.Named r ∧ a.Suits (r.keyAlgorithm? t.key) := by
  cases hs : setting r x a with
  | error err =>
    rw [transformSet_error hs]
    refine ⟨Bool.noConfusion, ?_⟩
    rintro ⟨t, hx, hsuits⟩
    obtain ⟨s, hs'⟩ := (exists_setting_iff hx).mpr hsuits
    rw [hs] at hs'
    cases hs'
  | ok s =>
    obtain ⟨t, hx, rfl, -⟩ := setting_eq_ok hs
    rw [transformSet_of_setting hs]
    exact iff_of_true (accepts_afterRelease _) ⟨t, hx, (exists_setting_iff hx).mp ⟨_, hs⟩⟩

/-- A setting of a transform is refused, and nothing happens, or it is made. -/
theorem transformSet_cases (hx : r.object x = .ok (.transform t)) (a : Attribute) :
    (∃ err, transformSet x a r = .ok (.error err) r) ∨ a.Named r ∧ transformSet x a r =
      afterRelease (.ok ()) ((r.configure x t a).releaseAll (t.slot a).toList) := by
  cases hs : setting r x a with
  | error err => exact .inl ⟨err, transformSet_error hs⟩
  | ok s =>
    obtain ⟨u, hu, rfl, hnamed⟩ := setting_eq_ok hs
    rw [hx] at hu
    cases hu
    exact .inr ⟨hnamed, transformSet_of_setting hs⟩

end Service

/-! ### Changes one after the other -/

theorem Entry.adjust_self (h : 0 < e.count) (n : Nat) : e.adjust n n = some e := by
  rw [adjust, if_neg (by omega), Nat.add_sub_cancel]

/-- An entry that is changed and then changed once more was changed at once, if it did not come
back. -/
theorem Entry.adjust_again {gained lost gained' lost' total : Nat} (e : Entry) (o : NativeObject)
    (f : NativeObject → NativeObject) (hswap : lost' + total = gained' + gained)
    (hlive : Entry.adjust { e with object := o } gained lost = none → gained' = 0) :
    ((Entry.adjust { e with object := o } gained lost).bind fun e =>
        Entry.adjust { e with object := f e.object } gained' lost') =
      Entry.adjust { e with object := f o } total lost := by
  simp only [adjust] at hlive ⊢
  -- an entry that went at the first change does not come back at the second
  by_cases hgone : e.count + gained ≤ lost
  · rw [if_pos hgone] at hlive ⊢
    have hnone := hlive rfl
    rw [Option.bind_none, if_pos (by omega)]
  · rw [if_neg hgone, Option.bind_some]
    by_cases hgone' : e.count + total ≤ lost
    · rw [if_pos hgone', if_pos (by dsimp only; omega)]
    · rw [if_neg hgone', if_neg (by dsimp only; omega)]
      have hcount : e.count + gained - lost + gained' - lost' = e.count + total - lost := by omega
      dsimp only
      rw [hcount]

namespace Change.Leads

theorem find?_set {gained lost : List Ref}
    (h : Change.Leads { set := some (x, t), gained := gained, lost := lost } r r') (y : Ref) :
    r'.find? y = (r.find? y).bind fun e =>
      Entry.adjust { e with object := if y = x then .transform t else e.object }
        (gained.count y) (lost.count y) :=
  h.find?_eq y

/-- To set a transform to what it is, giving owners and taking them again, changes nothing. -/
theorem same (hr : r.Sound) (hx : r.object x = .ok (.transform t)) (refs : List Ref) :
    Change.Leads { set := some (x, t), gained := refs, lost := refs } r r where
  last_eq := rfl
  find?_eq := by
    intro y
    show _ = (r.find? y).bind fun e =>
      Entry.adjust { e with object := if y = x then .transform t else e.object } _ _
    cases hfind : r.find? y with
    | none => rfl
    | some e =>
      -- under `x` is the transform, and elsewhere nothing is set
      have hobject : (if y = x then NativeObject.transform t else e.object) = e.object := by
        split
        · next hy =>
          have ho := object_of_find? hfind
          rw [hy, hx, Except.ok.injEq] at ho
          exact ho
        · rfl
      rw [Option.bind_some, hobject]
      exact (Entry.adjust_self (hr.count_pos y e hfind) _).symm

/-- A transform that was set is set once more.  What is put in is there. -/
theorem set_again {gained lost gained' lost' total : List Ref}
    (h : Change.Leads { set := some (x, t), gained := gained, lost := lost } r r')
    (h' : Change.Leads { set := some (x, u), gained := gained', lost := lost' } r' r'')
    (hswap : ∀ y, lost'.count y + total.count y = gained'.count y + gained.count y)
    (hlive : ∀ y ∈ gained', ∃ o, r'.object y = .ok o) :
    Change.Leads { set := some (x, u), gained := total, lost := lost } r r'' where
  last_eq := h'.last_eq.trans (congrArg (· + 0) h.last_eq)
  find?_eq := by
    intro y
    have hfirst := h.find?_set y
    show _ = (r.find? y).bind fun e =>
      Entry.adjust { e with object := if y = x then .transform u else e.object } _ _
    rw [h'.find?_set, hfirst]
    cases hfind : r.find? y with
    | none => rfl
    | some e =>
      rw [hfind, Option.bind_some] at hfirst
      -- what was gone is not put in
      have hgained : Entry.adjust { e with object := if y = x then .transform t else e.object }
          (gained.count y) (lost.count y) = none → gained'.count y = 0 := by
        intro hnone
        refine List.count_eq_zero.mpr fun hmem => ?_
        obtain ⟨o, ho⟩ := hlive y hmem
        obtain ⟨e', he', -⟩ := object_eq_ok_iff.mp ho
        rw [hfirst, hnone] at he'
        cases he'
      have hagain := Entry.adjust_again e _ (fun o => if y = x then .transform u else o)
        (hswap y) hgained
      rw [Option.bind_some, Option.bind_some, hagain]
      by_cases hy : y = x <;> simp [hy]

variable {gained lost : List Ref}

/-- What does not lose more than it gains stays, as it is. -/
theorem object_kept (h : Change.Leads { set := some (x, t), gained := gained, lost := lost } r r')
    (hr : r.Sound) (ho : r.object y = .ok o) (hcount : lost.count y ≤ gained.count y) :
    r'.object y = .ok (if y = x then .transform t else o) := by
  obtain ⟨e, he, rfl⟩ := object_eq_ok_iff.mp ho
  have hpos := hr.count_pos y e he
  have hentry := h.find?_set y
  rw [he, Option.bind_some, Entry.adjust, if_neg (by dsimp only; omega)] at hentry
  exact object_of_find? hentry

end Change.Leads

/-! ### What slots are for -/

namespace Transform.Names

/-- The slots that can be set do not name the key. -/
theorem key_notMem (ht : t.Names issued) (hu : u.Names issued) (hr : r.Traced issued) :
    t.key ∉ u.attributes := by
  intro hmem
  obtain ⟨k, hk⟩ := ht.key
  simp only [attributes, List.mem_append, Option.mem_toList] at hmem
  -- a key was not created as a number, nor as a byte string
  rcases hmem with hy | hy
  · obtain ⟨v, hv⟩ := hu.digestLength _ hy
    cases hr.eq_of_mem hk hv
  · obtain ⟨b, hb⟩ := hu.input _ hy
    cases hr.eq_of_mem hk hb

/-- What is not a number is not the length of a digest. -/
theorem count_attributes (ht : t.Names issued) (hr : r.Traced issued) (ho : (y, o) ∈ issued)
    (hnumber : ∀ v, o ≠ .number v) : t.attributes.count y = t.input.toList.count y := by
  have hlength : y ∉ t.digestLength.toList := by
    intro hmem
    obtain ⟨v, hv⟩ := ht.digestLength y (Option.mem_toList.mp hmem)
    exact hnumber v (hr.eq_of_mem ho hv)
  rw [attributes, List.count_append, List.count_eq_zero.mpr hlength, Nat.zero_add]

/-- The slots that can be set name different objects. -/
theorem nodup_attributes (ht : t.Names issued) (hr : r.Traced issued) : t.attributes.Nodup := by
  refine List.nodup_append.mpr ⟨?_, ?_, fun y hy z hz heq => ?_⟩
  · cases t.digestLength <;> simp
  · cases t.input <;> simp
  · obtain ⟨v, hv⟩ := ht.digestLength y (Option.mem_toList.mp hy)
    obtain ⟨b, hb⟩ := ht.input z (Option.mem_toList.mp hz)
    subst heq
    cases hr.eq_of_mem hv hb

end Transform.Names

/-! ### Settings one after the other -/

namespace Service

/-- A registry after settings of a transform, with those that were not refused. -/
structure Configuration where
  /-- The registry. -/
  registry : Registry
  /-- The settings that were not refused, in order. -/
  accepted : List Attribute := []

/-- One more setting.  One that is abandoned leaves what it has done by then. -/
def Configuration.set (x : Ref) (c : Configuration) (a : Attribute) : Configuration where
  registry := finalState (transformSet x a c.registry)
  accepted := if accepts (transformSet x a c.registry) then c.accepted ++ [a] else c.accepted

/-- Settings of a transform, one after the other. -/
def setAll (x : Ref) (as : List Attribute) (r : Registry) : Configuration :=
  as.foldl (Configuration.set x) { registry := r }

theorem setAll_concat : setAll x (as ++ [a]) r = (setAll x as r).set x a :=
  List.foldl_concat _ _ _ _

variable {c : Configuration}

theorem Configuration.set_of_refused {err : ServiceError}
    (h : transformSet x a c.registry = .ok (.error err) c.registry) : c.set x a = c := by
  rw [set, h]
  rfl

theorem Configuration.set_of_made
    (h : transformSet x a c.registry =
      afterRelease (.ok ()) ((c.registry.configure x t a).releaseAll (t.slot a).toList)) :
    c.set x a = ⟨finalState ((c.registry.configure x t a).releaseAll (t.slot a).toList),
      c.accepted ++ [a]⟩ := by
  rw [set, h, accepts_afterRelease, finalState_afterRelease, if_pos rfl]

/-- What settings keep: the transform is what those that were not refused make of it, it owns
what it is set to instead of what it was set to first, and everything is traced. -/
structure Configured (r : Registry) (x : Ref) (t : Transform) (issued : List (Ref × NativeObject))
    (c : Configuration) : Prop where
  /-- Everything goes back to what was created before. -/
  traced : c.registry.Traced issued
  /-- The transform is set up. -/
  object : c.registry.object x = .ok (.transform (t.assignAll c.accepted))
  /-- What was put in and replaced in between is as it was. -/
  leads : Change.Leads { set := some (x, t.assignAll c.accepted),
                         gained := (t.assignAll c.accepted).attributes,
                         lost := t.attributes } r c.registry
  /-- What the transform is set to was there, unless it had been set to it first. -/
  present : ∀ y ∈ (t.assignAll c.accepted).attributes,
    y ∈ t.attributes ∨ ∃ o, r.object y = .ok o

namespace Configured

theorem start (hr : r.Traced issued) (hx : r.object x = .ok (.transform t)) :
    Configured r x t issued { registry := r } where
  traced := hr
  object := hx
  leads := .same hr.loose.sound hx t.attributes
  present := fun _ hy => .inl hy

/-- **One setting, refused or not.** -/
theorem set (h : Configured r x t issued c) (a : Attribute) :
    Configured r x t issued (c.set x a) := by
  rcases transformSet_cases h.object a with ⟨err, hrefused⟩ | ⟨hnamed, hmade⟩
  · rw [Configuration.set_of_refused hrefused]
    exact h
  rw [Configuration.set_of_made hmade]
  have hx := h.traced.loose.notMem_retained h.object
  have hslot : x ∉ ((t.assignAll c.accepted).slot a).toList :=
    fun hmem => hx (Transform.mem_retained_of_slot hmem)
  have hlive : ∀ y ∈ a.ref?.toList, ∃ o, c.registry.object y = .ok o :=
    fun y hy => (isLeaf_of_named hnamed y hy).imp fun _ => And.left
  -- this setting alone, from the registry that the others have left
  have hstep := leads_set (a := a) h.traced.loose h.object
  have hkept := hstep.object_kept h.traced.loose.sound h.object
    (by rw [List.count_eq_zero.mpr hslot]; exact Nat.zero_le _)
  -- what is put in now was there at the beginning: no setting creates anything
  have hpresent : ∀ y ∈ ((t.assignAll c.accepted).assign a).attributes,
      y ∈ t.attributes ∨ ∃ o, r.object y = .ok o := by
    intro y hy
    rcases Transform.mem_attributes_assign hy with hy | hy
    · obtain ⟨o, ho⟩ := hlive y hy
      have hlast : c.registry.last = r.last := h.leads.last_eq
      have hle : y ≤ r.last := hlast ▸ h.traced.loose.sound.ordered.le_last_of_object ho
      obtain ⟨o', ho', -⟩ := h.leads.object_eq hle ho
      exact .inr ⟨o', ho'⟩
    · exact h.present y hy
  exact
    { traced := (h.traced.configure h.object hnamed).releaseAll _
      object := by rw [Transform.assignAll_concat, hkept, if_pos rfl]
      leads := by
        rw [Transform.assignAll_concat]
        exact h.leads.set_again hstep (fun y => Transform.count_assign) hlive
      present := by rwa [Transform.assignAll_concat] }

theorem setAll (hr : r.Traced issued) (hx : r.object x = .ok (.transform t))
    (as : List Attribute) : Configured r x t issued (setAll x as r) := by
  -- on the settings from behind, as they are made from the front
  induction as using List.reverseRecOn with
  | nil => exact start hr hx
  | append_singleton as a ih =>
    rw [setAll_concat]
    exact ih.set a

/-- What was not set to at first is where it was, if it is not what the transform is set to. -/
theorem find?_eq (h : Configured r x t issued c) (hr : r.Sound) (hx : y ≠ x)
    (hcount : (t.assignAll c.accepted).attributes.count y = t.attributes.count y) :
    c.registry.find? y = r.find? y := by
  rw [h.leads.find?_set, hcount]
  cases hfind : r.find? y with
  | none => rfl
  | some e =>
    rw [Option.bind_some, if_neg hx]
    exact Entry.adjust_self (hr.count_pos y e hfind) _

/-- The key is what it was. -/
theorem keyAlgorithm?_eq (h : Configured r x t issued c) (hr : r.Traced issued)
    (hx : r.object x = .ok (.transform t)) :
    c.registry.keyAlgorithm? t.key = r.keyAlgorithm? t.key := by
  have ht := hr.slots x t hx
  have ht' := h.traced.slots x _ h.object
  have hkey : t.key ≠ x :=
    ne_of_mem_of_not_mem List.mem_cons_self (hr.loose.notMem_retained hx)
  refine keyAlgorithm?_congr (h.find?_eq hr.loose.sound hkey ?_)
  rw [List.count_eq_zero.mpr (ht.key_notMem ht' hr), List.count_eq_zero.mpr (ht.key_notMem ht hr)]

/-- What the transform is set to is there. -/
theorem exists_object (h : Configured r x t issued c) (hr : r.Traced issued)
    (hx : r.object x = .ok (.transform t)) (hlive : ∀ y ∈ t.attributes, ∃ o, r.object y = .ok o)
    (hy : y ∈ (t.assignAll c.accepted).attributes) : ∃ o, c.registry.object y = .ok o := by
  have hbefore : ∃ o, r.object y = .ok o := (h.present y hy).elim (hlive y) id
  obtain ⟨o, ho⟩ := hbefore
  have hnodup := (hr.slots x t hx).nodup_attributes hr
  have hone : t.attributes.count y ≤ 1 := List.nodup_iff_count_le_one.mp hnodup y
  exact ⟨_, h.leads.object_kept hr.loose.sound ho (hone.trans (List.count_pos_iff.mpr hy))⟩

/-- A setting is made to its end if what it replaces is there. -/
theorem made (h : Configured r x t issued c)
    (hlive : ∀ y ∈ (t.assignAll c.accepted).attributes, ∃ o, c.registry.object y = .ok o)
    (haccepts : accepts (transformSet x a c.registry) = true) :
    ∃ r', transformSet x a c.registry = .ok (.ok ()) r' := by
  rcases transformSet_cases h.object a with ⟨err, hrefused⟩ | ⟨-, hmade⟩
  · rw [hrefused] at haccepts
    cases haccepts
  · rw [hmade]
    cases hrelease : (c.registry.configure x (t.assignAll c.accepted) a).releaseAll
        ((t.assignAll c.accepted).slot a).toList with
    | ok u r' => exact ⟨r', rfl⟩
    | error err r' =>
      -- giving back fails for what is gone, and what is replaced is there
      exfalso
      obtain ⟨-, y, hslot, hnone⟩ :=
        releaseAll_slot hrelease (slot_leaf_configure h.traced.loose h.object)
      have hy := Transform.mem_attributes_of_slot (Option.mem_toList.mpr hslot)
      have hyx : y ≠ x := ne_of_mem_of_not_mem (Transform.mem_retained_of_attribute hy)
        (h.traced.loose.notMem_retained h.object)
      obtain ⟨o, ho⟩ := hlive y hy
      have hthere : (c.registry.configure x (t.assignAll c.accepted) a).object y = .ok o := by
        rw [configure, object_replace_of_ne hyx, object_retainAll, ho]
      obtain ⟨e, he, -⟩ := object_eq_ok_iff.mp hthere
      rw [hnone] at he
      cases he

end Configured

/-! ### Lengths of digests -/

/-- Only the digests of SHA-2 have a length that can be chosen. -/
theorem digestOf_of_ne {family : Option DigestFamily} (h : family ≠ some .sha2)
    (length : Option Int) : digestOf family length = digestOf family none := by
  cases family with
  | none => rfl
  | some family =>
    cases family with
    | md5 => rfl
    | sha1 => rfl
    | sha2 => exact absurd rfl h

/-- A length that is a number is not asked for without SHA-2. -/
theorem transformDigest_of_ne (h : t.digestType ≠ some .sha2)
    (hlive : ∀ n, t.digestLength = some n → ∃ v, r.object n = .ok (.number v)) :
    transformDigest r t = digestOf t.digestType none := by
  -- the number is read in any case, so it has to be there
  have hlength : ∃ length, t.digestLength.mapM r.number = .ok length := by
    cases hn : t.digestLength with
    | none => exact ⟨none, rfl⟩
    | some n =>
      obtain ⟨v, hv⟩ := hlive n hn
      exact ⟨some v, mapM_eq_ok_iff.mpr (.inr ⟨n, v, rfl, number_eq_ok_iff.mpr hv, rfl⟩)⟩
  obtain ⟨length, hlength⟩ := hlength
  rw [transformDigest, hlength, ok_bind, digestOf_of_ne h]

/-- SHA-2 has digests of four lengths. -/
theorem transformDigest_error {n : Ref} {v : Int} (h : t.digestType = some .sha2)
    (hn : t.digestLength = some n) (hv : r.object n = .ok (.number v))
    (hlength : v ∉ [224, 256, 384, 512]) : transformDigest r t = .error (.digestLength v) := by
  simp only [List.mem_cons, List.not_mem_nil, or_false, not_or] at hlength
  obtain ⟨h224, h256, h384, h512⟩ := hlength
  have hread : t.digestLength.mapM r.number = .ok (some v) :=
    mapM_eq_ok_iff.mpr (.inr ⟨n, v, hn, number_eq_ok_iff.mpr hv, rfl⟩)
  rw [transformDigest, hread, ok_bind, h]
  simp [digestOf, h224, h256, h384, h512]

/-- Without a digest, signing and verifying fail. -/
theorem exists_error_of_capture {err : ServiceError} (hx : r.object x = .ok (.transform t))
    (hkind : t.kind = .sign ∨ t.kind = .verify) (h : transformDigest r t = .error err) :
    ∃ err, capture r x = .error err := by
  -- both kinds ask for the digest before they look at anything else
  have hdigest : ∃ err, captureDigest r t = .error err := by
    rcases hkind with hkind | hkind
    · exact ⟨err, by rw [captureDigest, hkind]; simp only [h, error_bind]⟩
    · cases hsignature : t.signature with
      | none => exact ⟨_, by rw [captureDigest, hkind]; simp only [hsignature]; rfl⟩
      | some s => exact ⟨err, by rw [captureDigest, hkind]; simp only [hsignature, h, error_bind]⟩
  obtain ⟨err', hdigest⟩ := hdigest
  rw [capture, transform_eq_ok_iff.mpr hx, ok_bind]
  cases t.input with
  | none => exact ⟨_, rfl⟩
  | some d => exact ⟨err', by simp only [hdigest, error_bind]⟩

/-- An execution captures the same of transforms that differ in the length of their digest
alone, if the digest is the same. -/
theorem capture_congr (hx : r.object x = .ok (.transform t))
    (hx' : r'.object x = .ok (.transform u))
    (hkeeps : u.kind = t.kind ∧ u.key = t.key ∧ u.signature = t.signature)
    (hpadding : u.padding = t.padding) (hinput : u.input = t.input)
    (hfind : ∀ y ∈ t.key :: (t.signature.toList ++ t.input.toList), r'.find? y = r.find? y)
    (hdigest : t.kind = .sign ∨ t.kind = .verify → transformDigest r' u = transformDigest r t) :
    capture r' x = capture r x := by
  obtain ⟨hkind, hkey, hsignature⟩ := hkeeps
  have hread : r'.key t.key = r.key t.key :=
    key_congr (object_congr (hfind t.key List.mem_cons_self))
  have hdata : ∀ y ∈ t.signature.toList ++ t.input.toList, r'.data y = r.data y := by
    intro y hy
    exact data_congr (object_congr (hfind y (List.mem_cons_of_mem _ hy)))
  -- the digests agree where they are asked for
  have hsame : captureDigest r' u = captureDigest r t := by
    rw [captureDigest, captureDigest, hkind, hsignature]
    cases hk : t.kind with
    | encrypt => rfl
    | decrypt => rfl
    | sign => simp only [hdigest (.inl hk)]
    | verify =>
      cases hs : t.signature with
      | none => rfl
      | some s => simp only [hdigest (.inr hk), hdata s (by simp [hs])]
  rw [capture, capture, transform_eq_ok_iff.mpr hx, transform_eq_ok_iff.mpr hx', ok_bind, ok_bind,
    hkind, hkey, hpadding, hinput, hsame, hread]
  cases hd : t.input with
  | none => rfl
  | some d => simp only [hdata d (by simp [hd])]

namespace Configured

variable {c c' : Configuration}

/-- A number that the transform is set to is there as a number. -/
theorem exists_number (h : Configured r x t issued c) (hr : r.Traced issued)
    (hx : r.object x = .ok (.transform t)) (hlive : ∀ y ∈ t.attributes, ∃ o, r.object y = .ok o)
    {n : Ref} (hn : (t.assignAll c.accepted).digestLength = some n) :
    ∃ v, c.registry.object n = .ok (.number v) := by
  obtain ⟨v, hv⟩ := (h.traced.slots x _ h.object).digestLength n hn
  obtain ⟨o, ho⟩ := h.exists_object hr hx hlive
    (List.mem_append_left _ (Option.mem_toList.mpr hn))
  obtain ⟨o', hmem, hremains⟩ := h.traced.object n o ho
  -- what is there under the reference was created as a number
  cases h.traced.eq_of_mem hv hmem
  cases hremains
  exact ⟨v, ho⟩

/-- What is no number does not depend on lengths of digests. -/
theorem find?_congr (h : Configured r x t issued c) (h' : Configured r x t issued c')
    (hinput : (t.assignAll c'.accepted).input = (t.assignAll c.accepted).input)
    (ho : (y, o) ∈ issued) (hnumber : ∀ v, o ≠ .number v) (hyx : y ≠ x) :
    c'.registry.find? y = c.registry.find? y := by
  have hcount := (h.traced.slots x _ h.object).count_attributes h.traced ho hnumber
  have hcount' := (h'.traced.slots x _ h'.object).count_attributes h.traced ho hnumber
  rw [h'.leads.find?_set, h.leads.find?_set, hcount, hcount', hinput]
  simp only [if_neg hyx]

/-- The length of a digest does not matter without SHA-2. -/
theorem capture_eq (h : Configured r x t issued c) (h' : Configured r x t issued c')
    (hr : r.Traced issued) (hx : r.object x = .ok (.transform t))
    (hlive : ∀ y ∈ t.attributes, ∃ o, r.object y = .ok o)
    (hlast : ∀ p, p ≠ .digestLength →
      Attribute.lastOf p c'.accepted = Attribute.lastOf p c.accepted)
    (hsha2 : t.kind = .sign ∨ t.kind = .verify →
      (t.assignAll c.accepted).digestType ≠ some .sha2) :
    capture c'.registry x = capture c.registry x := by
  -- but for the length of the digest, both are set to the same
  have hplace : ∀ p, p ≠ .digestLength →
      (t.assignAll c'.accepted).attribute? p = (t.assignAll c.accepted).attribute? p := by
    intro p hp
    rw [Transform.attribute?_assignAll, Transform.attribute?_assignAll, hlast p hp]
  obtain ⟨hkind, hkey, hsignature⟩ := t.assignAll_keeps c.accepted
  obtain ⟨hkind', hkey', hsignature'⟩ := t.assignAll_keeps c'.accepted
  have htype := Transform.digestType_eq (hplace .digestType (by decide))
  have hinput := Transform.input_eq (hplace .input (by decide))
  refine capture_congr h.object h'.object ⟨hkind'.trans hkind.symm, hkey'.trans hkey.symm,
    hsignature'.trans hsignature.symm⟩ (Transform.padding_eq (hplace .padding (by decide))) hinput
    (fun y hy => ?_) fun hsigns => ?_
  · have hnames := h.traced.slots x _ h.object
    have hretained : y ∈ (t.assignAll c.accepted).retained := by
      simp only [List.mem_cons, List.mem_append] at hy
      simp only [Transform.retained, List.mem_cons, List.mem_append]
      tauto
    have hyx := ne_of_mem_of_not_mem hretained (h.traced.loose.notMem_retained h.object)
    simp only [List.mem_cons, List.mem_append, Option.mem_toList] at hy
    rcases hy with rfl | hy | hy
    · obtain ⟨k, hk⟩ := hnames.key
      exact h.find?_congr h' hinput hk (fun _ => NativeObject.noConfusion) hyx
    · obtain ⟨b, hb⟩ := hnames.signature y hy
      exact h.find?_congr h' hinput hb (fun _ => NativeObject.noConfusion) hyx
    · obtain ⟨b, hb⟩ := hnames.input y hy
      exact h.find?_congr h' hinput hb (fun _ => NativeObject.noConfusion) hyx
  · have hne := hsha2 (hkind ▸ hsigns)
    rw [transformDigest_of_ne hne fun n => h.exists_number hr hx hlive, ← htype]
    rw [← htype] at hne
    rw [transformDigest_of_ne hne fun n => h'.exists_number hr hx hlive]

end Configured

/-- **Transforms are set up in any order, and the last setting of a place counts.**  Whatever was
called before: a setting is refused or not for the transform, its key and what the setting names,
never for other settings.  After settings of which any may be refused, the transform is set to
the last ones that were not, and owns what it is set to instead of what it was set to first; all
else has the owners it had, so that what was put in and replaced in between was given back once.
Other settings with the same last ones lead to the same registry, and so to the same execution.
Signing and verifying with SHA-2 fail for a length that is not one of four.  If what the transform
was first set to is there, as always if nobody gives back too often, no setting is abandoned, and
without signing or verifying with SHA-2 an execution captures the same for any length. -/
theorem Arises.set_in_any_order (h : Arises P r) :
    (∀ x a, accepts (transformSet x a r) = true ↔ ∃ t,
      r.object x = .ok (.transform t) ∧ a.Named r ∧ a.Suits (r.keyAlgorithm? t.key)) ∧
    ∀ x t, r.object x = .ok (.transform t) → ∀ as, ∃ t' : Transform,
      (setAll x as r).registry.object x = .ok (.transform t') ∧
      (t'.kind = t.kind ∧ t'.key = t.key ∧ t'.signature = t.signature) ∧
      (∀ p, t'.attribute? p =
        (Attribute.lastOf p (setAll x as r).accepted).or (t.attribute? p)) ∧
      Change.Leads { set := some (x, t'), gained := t'.attributes, lost := t.attributes } r
        (setAll x as r).registry ∧
      (∀ a, accepts (transformSet x a (setAll x as r).registry) = true ↔
        a.Named (setAll x as r).registry ∧ a.Suits (r.keyAlgorithm? t.key)) ∧
      (∀ bs, (∀ p, Attribute.lastOf p (setAll x bs r).accepted =
          Attribute.lastOf p (setAll x as r).accepted) →
        (setAll x bs r).registry = (setAll x as r).registry) ∧
      (t.kind = .sign ∨ t.kind = .verify → t'.digestType = some .sha2 → ∀ n v,
        t'.digestLength = some n → (setAll x as r).registry.object n = .ok (.number v) →
        v ∉ [224, 256, 384, 512] → ∀ e, ∃ err, transformExecute P x e (setAll x as r).registry =
          .ok (.error err) (setAll x as r).registry) ∧
      ((∀ y ∈ t.attributes, ∃ o, r.object y = .ok o) →
        (∀ a, accepts (transformSet x a (setAll x as r).registry) = true →
          ∃ r', transformSet x a (setAll x as r).registry = .ok (.ok ()) r') ∧
        ((t.kind = .sign ∨ t.kind = .verify → t'.digestType ≠ some .sha2) →
          ∀ bs, (∀ p, p ≠ .digestLength → Attribute.lastOf p (setAll x bs r).accepted =
              Attribute.lastOf p (setAll x as r).accepted) →
            capture (setAll x bs r).registry x = capture (setAll x as r).registry x)) := by
  obtain ⟨issued, hr⟩ := h.exists_traced
  refine ⟨fun x a => accepts_iff, fun x t hx as => ?_⟩
  have hset := Configured.setAll hr hx as
  obtain ⟨hkind, hkey, hsignature⟩ := t.assignAll_keeps (setAll x as r).accepted
  refine ⟨_, hset.object, ⟨hkind, hkey, hsignature⟩, fun p => Transform.attribute?_assignAll,
    hset.leads, fun a => ?_, fun bs hlast => ?_, fun hsigns hsha2 n v hn hv hlength e => ?_,
    fun hlive => ⟨fun a haccepts => ?_, fun hsha2 bs hlast => ?_⟩⟩
  · have halgorithm := hset.keyAlgorithm?_eq hr hx
    rw [accepts_iff]
    constructor
    · rintro ⟨u, hu, hnamed, hsuits⟩
      rw [hset.object] at hu
      cases hu
      rw [hkey, halgorithm] at hsuits
      exact ⟨hnamed, hsuits⟩
    · rintro ⟨hnamed, hsuits⟩
      refine ⟨_, hset.object, hnamed, ?_⟩
      rwa [hkey, halgorithm]
  · have hset' := Configured.setAll hr hx bs
    -- measured against the beginning, the two changes are one
    have hleads := hset'.leads
    rw [Transform.assignAll_congr hlast] at hleads
    exact hleads.unique hset.leads hset'.traced.loose.sound.ordered hset.traced.loose.sound.ordered
  · rw [← hkind] at hsigns
    obtain ⟨err, hcapture⟩ := exists_error_of_capture hset.object hsigns
      (transformDigest_error hsha2 hn hv hlength)
    exact ⟨err, create_error (by rw [hcapture, error_bind])⟩
  · exact hset.made (fun y hy => hset.exists_object hr hx hlive hy) haccepts
  · exact hset.capture_eq (Configured.setAll hr hx bs) hr hx hlive hlast hsha2

/-- An input that is replaced, or a setting that is refused, in front of the input that stays:
both lead to the same registry. -/
theorem set_in_any_order_replaced : ∃ r, Arises .standard r ∧
    (setAll 4 [.input 2, .input 3] r).accepted = [.input 2, .input 3] ∧
    (setAll 4 [.input 9, .input 3] r).accepted = [.input 3] ∧
    (setAll 4 [.input 9, .input 3] r).registry = (setAll 4 [.input 2, .input 3] r).registry := by
  let e : Entropy := fun _ => 0
  let bare : Transform := { kind := .encrypt, key := 1, signature := none }
  let r : Registry := ⟨4, [(1, ⟨sampleKey, 2⟩), (2, ⟨.data [7], 1⟩), (3, ⟨.data [8], 1⟩),
    (4, ⟨.transform bare, 1⟩)]⟩
  let r' : Registry := ⟨4, [(1, ⟨sampleKey, 2⟩), (2, ⟨.data [7], 2⟩), (3, ⟨.data [8], 1⟩),
    (4, ⟨.transform { bare with input := some 2 }, 1⟩)]⟩
  have h₁ : Arises .standard ⟨1, [(1, ⟨sampleKey, 1⟩)]⟩ :=
    Arises.start.next createSample e (make_createSample e)
  have h₂ : Arises .standard ⟨2, [(1, ⟨sampleKey, 1⟩), (2, ⟨.data [7], 1⟩)]⟩ :=
    h₁.next (.dataCreate [7]) e rfl
  have h₃ : Arises .standard
      ⟨3, [(1, ⟨sampleKey, 1⟩), (2, ⟨.data [7], 1⟩), (3, ⟨.data [8], 1⟩)]⟩ :=
    h₂.next (.dataCreate [8]) e rfl
  have h₄ : Arises .standard r := h₃.next (.transformCreate .encrypt 1 none) e rfl
  have hfirst : transformSet 4 (.input 2) r = .ok (.ok ()) r' :=
    transformSet_input (b := [7]) rfl rfl rfl
  have hreplaces : accepts (transformSet 4 (.input 3) r') = true :=
    accepts_iff.mpr ⟨_, rfl, ⟨[8], rfl⟩, trivial⟩
  have hsets : accepts (transformSet 4 (.input 3) r) = true :=
    accepts_iff.mpr ⟨_, rfl, ⟨[8], rfl⟩, trivial⟩
  have hmade : Configuration.set 4 { registry := r } (.input 2) = ⟨r', [.input 2]⟩ := by
    rw [Configuration.set, hfirst]
    rfl
  have herror : transformSet 4 (.input 9) r = .ok (.error .unknownReference) r := rfl
  have hrefused : Configuration.set 4 { registry := r } (.input 9) = { registry := r } :=
    Configuration.set_of_refused herror
  have has : (setAll 4 [.input 2, .input 3] r).accepted = [.input 2, .input 3] := by
    rw [setAll, List.foldl_cons, hmade, List.foldl_cons, Configuration.set, if_pos hreplaces]
    rfl
  have hbs : (setAll 4 [.input 9, .input 3] r).accepted = [.input 3] := by
    rw [setAll, List.foldl_cons, hrefused, List.foldl_cons, Configuration.set, if_pos hsets]
    rfl
  obtain ⟨t', -, -, -, -, -, hsame, -⟩ := h₄.set_in_any_order.2 4 bare rfl [.input 2, .input 3]
  refine ⟨r, h₄, has, hbs, hsame _ fun p => ?_⟩
  rw [has, hbs]
  cases p <;> rfl

end Service

end Keyring
