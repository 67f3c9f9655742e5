import Keyring.Proofs.Service.Effects

/-!
# What stays under a reference

Under a reference that was given out there is the object that it was given out for, or nothing
any more.  Only transforms are changed, and they stay transforms.  So whoever owns an object
that is no transform finds it as it was, whatever is called in the meantime.

`Follows` is this as a relation between registries.  It is a preorder, so it goes along histories
of any length, and it says nothing of owners: what is there is as it was, but it need not be
there.  That it is there is known of what one owns, by the balance, and the two are used together.

## Main definitions

* `Registry.Follows` — one registry comes after another.
* `Registry.LeadsTo` — the same, with the later registry sound.

## Main results

* `Change.Leads.object_eq` — what a change leaves of an object.
* `Call.object_of_make` — what a call does not set stays as it is.
* `Call.Makes.follows` — **a call leads to a registry that comes after.**
* `Service.exists_run` — a call by owners: it ends, keeps the balance and goes forward.
-/

namespace Keyring

open Registry

variable {P : Provider} {r r' r'' : Registry} {x y : Ref} {o o' : NativeObject}
  {owned : Multiset Ref}

namespace Registry

/-- A registry comes after another: references are not given out again, and an object is as it
was unless it is a transform. -/
structure Follows (r r' : Registry) : Prop where
  /-- References stay given out. -/
  last_le : r.last ≤ r'.last
  /-- What is there under an old reference was there, maybe as another transform. -/
  object : ∀ y o', y ≤ r.last → r'.object y = .ok o' →
    r.object y = .ok o' ∨ ∃ t t', r.object y = .ok (.transform t) ∧ o' = .transform t'

namespace Follows

theorem refl (r : Registry) : r.Follows r := ⟨Nat.le_refl _, fun _ _ _ h => .inl h⟩

theorem trans (h : r.Follows r') (h' : r'.Follows r'') : r.Follows r'' where
  last_le := Nat.le_trans h.last_le h'.last_le
  object := by
    intro y o'' hy ho''
    -- a transform later on was a transform all the time
    rcases h'.object y o'' (Nat.le_trans hy h.last_le) ho'' with ho' | ⟨t, t', ho', rfl⟩
    · exact h.object y o'' hy ho'
    · rcases h.object y _ hy ho' with ho | ⟨s, -, ho, -⟩
      · exact .inr ⟨t, t', ho, rfl⟩
      · exact .inr ⟨s, t', ho, rfl⟩

/-- What has no slots is no transform, so it was there before as it is. -/
theorem object_of_leaf (h : r.Follows r') (hy : y ≤ r.last) (ho : r'.object y = .ok o)
    (hnil : o.retained = []) : r.object y = .ok o := by
  rcases h.object y o hy ho with hbefore | ⟨-, t', -, rfl⟩
  · exact hbefore
  · exact absurd hnil (List.cons_ne_nil _ _)

end Follows

/-- Giving references back leaves what is still there as it was. -/
theorem follows_of_releaseAll {refs : List Ref} (h : r.releaseAll refs = .ok () r') :
    r.Follows r' := by
  obtain ⟨hlast, hobject⟩ := releaseAll_object r refs
  rw [h] at hlast hobject
  exact ⟨Nat.le_of_eq hlast.symm, fun y o' _ ho' => .inl (hobject y o' ho')⟩

/-- A new object leaves all others as they were. -/
theorem follows_insert (hr : r.Ordered) (o : NativeObject) : r.Follows (r.insert o) where
  last_le := Nat.le_succ _
  object := by
    intro y o' hy ho'
    rcases (object_insert_eq_ok_iff hr).mp ho' with ⟨rfl, -⟩ | hbefore
    · exact absurd hy (Nat.not_succ_le_self _)
    · exact .inl hbefore

/-- A registry comes after another and is sound. -/
structure LeadsTo (r r' : Registry) : Prop where
  sound : r'.Sound
  follows : r.Follows r'

namespace LeadsTo

theorem refl (hr : r.Sound) : r.LeadsTo r := ⟨hr, .refl r⟩

theorem trans (h : r.LeadsTo r') (h' : r'.LeadsTo r'') : r.LeadsTo r'' :=
  ⟨h'.sound, h.follows.trans h'.follows⟩

theorem insert (hr : r.Sound) (o : NativeObject) : r.LeadsTo (r.insert o) :=
  ⟨hr.insert o, follows_insert hr.ordered o⟩

theorem of_releaseAll {refs : List Ref} (hr : r.Sound) (h : r.releaseAll refs = .ok () r') :
    r.LeadsTo r' := by
  have hsound := hr.releaseAll refs
  rw [h] at hsound
  exact ⟨hsound, follows_of_releaseAll h⟩

end LeadsTo

end Registry

/-! ### One call -/

theorem Change.objectAt_of_none {d : Change} (h : d.set = none) : d.objectAt y o = o := by
  rw [objectAt, h]

theorem Change.objectAt_self {d : Change} {t : Transform} (h : d.set = some (x, t)) :
    d.objectAt x o = .transform t := by
  rw [objectAt, h]
  exact if_pos rfl

theorem Change.objectAt_of_ne {d : Change} {t : Transform} (h : d.set = some (x, t))
    (hy : y ≠ x) : d.objectAt y o = o := by
  rw [objectAt, h]
  exact if_neg hy

/-- What a change leaves under an old reference is what was there, as the change makes it. -/
theorem Change.Leads.object_eq {d : Change} (hd : d.Leads r r') (hy : y ≤ r.last)
    (h : r'.object y = .ok o') : ∃ o, r.object y = .ok o ∧ o' = d.objectAt y o := by
  obtain ⟨e', he', rfl⟩ := object_eq_ok_iff.mp h
  -- an old reference is not the one that a new object gets
  have hentry : d.entry r y = d.kept r y := by
    unfold entry
    split
    · rw [if_neg (Nat.ne_of_lt (Nat.lt_succ_of_le hy))]
    · rfl
  rw [hd.find?_eq, hentry, kept] at he'
  obtain ⟨e, he, hadjust⟩ := Option.bind_eq_some_iff.mp he'
  refine ⟨e.object, object_of_find? he, ?_⟩
  -- counts change, and an entry may go; the object is what the change makes it
  unfold Entry.adjust at hadjust
  split at hadjust <;> cases hadjust
  rfl

/-- The transform that a call sets was one before. -/
theorem Call.Makes.set_eq {c : Call} {d : Change} {reply : Reply} (hc : c.Makes r d reply) :
    d.set = none ∨ ∃ x a t, c = .transformSet x a ∧ r.object x = .ok (.transform t) ∧
      d.set = some (x, t.assign a) := by
  cases c with
  | transformSet x a =>
    obtain ⟨t, ht, -, rfl⟩ := hc
    exact .inr ⟨x, a, t, rfl, ht, rfl⟩
  | transformCreate kind x s =>
    obtain ⟨-, rfl⟩ := hc
    exact .inl rfl
  | release x =>
    obtain ⟨e, -, rfl⟩ := hc
    exact .inl rfl
  | keyEncrypt | keyDecrypt | dataBytes | booleanValue =>
    cases hc
    exact .inl rfl
  | certificateCreate | certificateCopyPublicKey | keyCreate | dataCreate | numberCreate
  | transformExecute =>
    obtain ⟨-, o, -, rfl⟩ := hc
    exact .inl rfl

/-- **A call leads to a registry that comes after.** -/
theorem Call.Makes.follows {c : Call} {d : Change} {reply : Reply} (hc : c.Makes r d reply)
    (hd : d.Leads r r') : r.Follows r' where
  last_le := by
    rw [hd.last_eq]
    exact Nat.le_add_right _ _
  object := by
    intro y o' hy ho'
    obtain ⟨o, ho, rfl⟩ := hd.object_eq hy ho'
    rcases hc.set_eq with hset | ⟨x, a, t, -, ht, hset⟩
    · exact .inl (by rw [Change.objectAt_of_none hset, ho])
    · -- the one transform that was set is a transform still
      by_cases hyx : y = x
      · subst hyx
        exact .inr ⟨t, t.assign a, ht, Change.objectAt_self hset⟩
      · exact .inl (by rw [Change.objectAt_of_ne hset hyx, ho])

theorem Call.follows_of_make {c : Call} {e : Entropy} {reply : Except ServiceError Reply}
    (hr : r.Loose) (h : c.make P e r = .ok reply r') : r.Follows r' := by
  obtain ⟨herror, hok⟩ := c.changes (P := P) e hr
  cases reply with
  | error err =>
    rw [herror err r' h]
    exact .refl r
  | ok reply =>
    obtain ⟨d, hmakes, hleads⟩ := hok reply r' h
    exact hmakes.follows hleads

/-- What is there under an old reference after a call was there before, unless the call has set
it. -/
theorem Call.object_of_make {c : Call} {e : Entropy} {reply : Except ServiceError Reply}
    (hr : r.Loose) (h : c.make P e r = .ok reply r') (hy : y ≤ r.last)
    (hset : ∀ a answer, c = .transformSet y a → reply ≠ .ok answer) (ho : r'.object y = .ok o) :
    r.object y = .ok o := by
  obtain ⟨herror, hok⟩ := c.changes (P := P) e hr
  cases reply with
  | error err => rwa [← herror err r' h]
  | ok reply =>
    obtain ⟨d, hmakes, hleads⟩ := hok reply r' h
    obtain ⟨o', ho', rfl⟩ := hleads.object_eq hy ho
    rcases hmakes.set_eq with hnone | ⟨x, a, t, rfl, -, hsome⟩
    · rwa [Change.objectAt_of_none hnone]
    · -- another transform was set
      have hne : y ≠ x := by
        rintro rfl
        exact hset a reply rfl rfl
      rwa [Change.objectAt_of_ne hsome hne]

/-- A call that gives nothing up ends, leaves what callers own theirs, and goes forward. -/
theorem Service.exists_run {α : Type} {s : Service α} {f : α → Reply} (c : Call) (e : Entropy)
    (hmake : c.make P e = s.reply f) (hgives : c.gives = 0) (hr : r.Balanced owned) :
    ∃ a r', s r = .ok a r' ∧ r.Follows r' ∧ r'.Balanced (owned + Reply.owns (a.map f)) := by
  -- a call that gives nothing up needs nothing to be owned
  have hkeeps := c.keeps (P := P) e r owned
  rw [hgives, Multiset.zero_add] at hkeeps
  obtain ⟨reply, r', hrun, hbal⟩ := hkeeps hr
  have hfollows := Call.follows_of_make hr.loose hrun
  rw [hmake, Service.reply, EStateM.map] at hrun
  cases hs : s r with
  | error h r'' =>
    rw [hs] at hrun
    cases hrun
  | ok a r'' =>
    rw [hs] at hrun
    cases hrun
    exact ⟨a, r', rfl, hfollows, hbal⟩

end Keyring
