import Keyring.Proofs.Service.Effects

/-!
# What one call can do

A call answers without touching the registry, adds an object, sets an attribute of a transform
or gives a reference back.  This is said once for all calls, whether they succeed, fail or are
abandoned, so that a property of registries has to be looked at for these few ways only.

`Call.changes` says of a call that has ended what has changed; the relation here says how the
registry is computed, and so covers calls that are abandoned on the way.  An invariant that every
kind of history keeps is proved by cases on `Call.Does`: one for calls that only answer, one for
new objects, one for transforms, and giving back for the rest.

## Main definitions

* `Call.Does` — the ways in which calls change a registry.

## Main results

* `Call.does` — **every call goes one of these ways.**
* `Call.Does.owns_or_new` — what callers are answered with is new.
-/

namespace Keyring

open Registry Service

variable {P : Provider} {r : Registry} {x : Ref} {c : Call} {e : Entropy}

theorem owns_of_afterRelease {result : EStateM.Result Halt Registry Unit} {r' : Registry}
    {reply : Except ServiceError Reply} (h : afterRelease (.ok .done) result = .ok reply r') :
    Reply.owns reply = 0 := by
  cases result with
  | ok u r'' =>
    cases h
    rfl
  | error err r'' => cases h

/-- What a call does to a registry, and how it ends. -/
inductive Call.Does (r : Registry) :
    Call → EStateM.Result Halt Registry (Except ServiceError Reply) → Prop
  /-- It fails or only looks. -/
  | answer {c : Call} {reply : Except ServiceError Reply} (hreply : Reply.owns reply = 0) :
      Does r c (.ok reply r)
  /-- It adds an object that holds on to nothing. -/
  | leaf {c : Call} {o : NativeObject} (ho : o.retained = []) :
      Does r c (.ok (.ok (.ref (r.last + 1))) (r.insert o))
  /-- It adds a transform, which holds on to its key and its signature. -/
  | transform {kind : TransformKind} {x : Ref} {s : Option Ref} {t : Transform}
      (ht : newTransform r kind x s = .ok t) :
      Does r (.transformCreate kind x s)
        (.ok (.ok (.ref (r.last + 1))) ((t.retained.foldl Registry.retain r).insert (.transform t)))
  /-- It sets a transform. -/
  | set {x : Ref} {a : Attribute} {t : Transform} (hx : r.object x = .ok (.transform t))
      (ha : a.Named r) :
      Does r (.transformSet x a)
        (afterRelease (.ok .done) ((r.configure x t a).releaseAll (t.slot a).toList))
  /-- It gives a reference back. -/
  | release (x : Ref) : Does r (.release x) (afterRelease (.ok .done) (r.releaseAll [x]))

/-- A call that answers hands out nothing, or a new reference with an object. -/
theorem Call.Does.owns_or_new {reply : Except ServiceError Reply} {r' : Registry}
    (h : c.Does r (.ok reply r')) (hr : r.Loose) : Reply.owns reply = 0 ∨
      reply = .ok (.ref (r.last + 1)) ∧ ∃ o, r'.object (r.last + 1) = .ok o := by
  -- the result is kept aside, since the cases compute it
  generalize hresult : EStateM.Result.ok reply r' = result at h
  cases h with
  | answer hreply =>
    cases hresult
    exact .inl hreply
  | leaf =>
    cases hresult
    exact .inr ⟨rfl, _, object_insert_last hr.sound.ordered⟩
  | @transform _ _ _ t =>
    cases hresult
    -- what the transform names was retained, which leaves the next reference
    have hobject := object_insert_last (o := .transform t)
      (hr.retainAll t.retained).sound.ordered
    rw [last_retainAll] at hobject
    exact .inr ⟨rfl, _, hobject⟩
  | set => exact .inl (owns_of_afterRelease hresult.symm)
  | release => exact .inl (owns_of_afterRelease hresult.symm)

namespace Service

theorem does_query {α : Type} (f : Registry → Except ServiceError α) {g : α → Reply}
    (hg : ∀ a, Reply.owns (.ok (g a)) = 0) : c.Does r ((query f).reply g r) := by
  have hcall : (query f).reply g r = .ok ((f r).map g) r := reply_eq_ok rfl
  rw [hcall]
  refine .answer ?_
  cases f r with
  | error err => rfl
  | ok a => exact hg a

theorem AddsLeaf.does {s : Service Ref} (hs : AddsLeaf s) : c.Does r (s.reply .ref r) := by
  obtain ⟨f, rfl, hf⟩ := hs
  cases ho : f r with
  | error err =>
    rw [reply_eq_ok (create_error ho)]
    exact .answer rfl
  | ok o =>
    rw [reply_eq_ok (create_ok ho)]
    exact .leaf (hf r o ho)

theorem does_transformCreate (kind : TransformKind) (x : Ref) (s : Option Ref) :
    Call.Does r (.transformCreate kind x s) ((transformCreate kind x s).reply .ref r) := by
  cases ht : newTransform r kind x s with
  | error err =>
    rw [reply_eq_ok (transformCreate_error ht)]
    exact .answer rfl
  | ok t =>
    rw [reply_eq_ok (transformCreate_ok ht), last_retainAll]
    exact .transform ht

theorem reply_afterRelease {α : Type} {f : α → Reply} {a : α} {s : Service α}
    {result : EStateM.Result Halt Registry Unit} (h : s r = afterRelease (.ok a) result) :
    s.reply f r = afterRelease (.ok (f a)) result := by
  rw [reply, EStateM.map, h]
  cases result <;> rfl

theorem does_transformSet (x : Ref) (a : Attribute) :
    Call.Does r (.transformSet x a) ((transformSet x a).reply (fun _ => .done) r) := by
  cases hs : setting r x a with
  | error err =>
    rw [reply_eq_ok (transformSet_error hs)]
    exact .answer rfl
  | ok s =>
    -- the setting was checked, so only giving back can fail
    obtain ⟨t, ht, rfl, hnamed⟩ := setting_eq_ok hs
    rw [reply_afterRelease (transformSet_of_setting hs)]
    exact .set ht hnamed

theorem does_release (x : Ref) :
    Call.Does r (.release x) (EStateM.map (fun _ => .ok .done) (Service.release x) r) := by
  rw [release_reply]
  exact .release x

end Service

/-- **Every call goes one of these ways.** -/
theorem Call.does (c : Call) (e : Entropy) (r : Registry) : c.Does r (c.make P e r) := by
  -- calls of one shape go by one lemma
  cases c with
  | certificateCreate b => exact (addsLeaf_certificateCreate b).does
  | certificateCopyPublicKey x => exact (addsLeaf_certificateCopyPublicKey x).does
  | keyCreate a b => exact (addsLeaf_keyCreate a b).does
  | keyEncrypt x n b => exact does_query _ fun _ => rfl
  | keyDecrypt x n b => exact does_query _ fun _ => rfl
  | dataCreate b => exact (addsLeaf_dataCreate b).does
  | numberCreate v => exact (addsLeaf_numberCreate v).does
  | transformCreate kind x s => exact does_transformCreate kind x s
  | transformSet x a => exact does_transformSet x a
  | transformExecute x => exact (addsLeaf_transformExecute x e).does
  | dataBytes x => exact does_query _ fun _ => rfl
  | booleanValue x => exact does_query _ fun _ => rfl
  | release x => exact does_release x

end Keyring
