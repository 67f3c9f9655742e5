import Keyring.Proofs.Service.Calls
import Keyring.Session.Scope

/-!
# Runs of operations put together from service calls

An operation is taken apart call by call: each ends with a result, the objects created
so far and a registry.  Without a failure an operation leaves the registry as it was,
but for the references it has used up.

## Main definitions

* `Scope.Ends` — how part of an operation ends.
* `Scope.Composed` — part of an operation is put together from calls of the service.
* `Configured`, `Prepared` — the registry once a transform is set up, and once it has its
  input.

## Main results

* `Scope.Ends.bind`, `Scope.ends_ask`, `Scope.ends_create` — the steps of an operation.
* `Scope.close_eq` — its end.
* `stagedCipher_eq` — **encrypting or decrypting gives what the key gives, and leaves no
  object behind.**
-/

namespace Keyring

open Registry

namespace Scope

/-! ### Parts of an operation -/

/-- Part of an operation ends: with a result, the objects created by then, the last one
first, and a registry. -/
def Ends {α : Type} (x : Scope (EStateM Halt Registry) α) (c : List Ref) (r : Registry)
    (result : Except CryptoError α) (c' : List Ref) (r' : Registry) : Prop :=
  x.run.run c r = .ok (result, c') r'

variable {α β : Type} {r r' r'' : Registry} {c c' c'' : List Ref}
  {x : Scope (EStateM Halt Registry) α} {f : α → Scope (EStateM Halt Registry) β}

theorem Ends.bind {a : α} {result : Except CryptoError β} (hx : x.Ends c r (.ok a) c' r')
    (hf : (f a).Ends c' r' result c'' r'') : (x >>= f).Ends c r result c'' r'' := by
  unfold Ends at *
  show EStateM.bind (x.run.run c) _ r = _
  rw [EStateM.bind, hx]
  exact hf

theorem Ends.bind_error {err : CryptoError} (hx : x.Ends c r (.error err) c' r') :
    (x >>= f).Ends c r (.error err) c' r' := by
  unfold Ends at *
  show EStateM.bind (x.run.run c) _ r = _
  rw [EStateM.bind, hx]
  rfl

theorem ends_ask {call : EStateM Halt Registry (Except ServiceError α)}
    {a : Except ServiceError α} (h : call r = .ok a r') :
    (ask call).Ends c r (a.mapError CryptoError.service) c r' := by
  have hlift : Scope.Ends (liftM (liftM call : StateT (List Ref) (EStateM Halt Registry) _)) c r
      (.ok a) c r' := by
    unfold Ends
    show EStateM.bind (EStateM.bind call _) _ r = _
    rw [EStateM.bind, EStateM.bind, h]
    rfl
  refine hlift.bind ?_
  cases a <;> rfl

theorem ends_create {call : EStateM Halt Registry (Except ServiceError Ref)} {y : Ref}
    (h : call r = .ok (.ok y) r') : (create call).Ends c r (.ok y) (y :: c) r' :=
  (ends_ask h).bind rfl

/-- An operation ends with the result of its body, once what it has created is given back. -/
theorem close_eq {P : Provider} {body : Scope (EStateM Halt Registry) α}
    {result : Except CryptoError α} (hbody : body.Ends [] r result c r')
    (hrelease : r'.releaseAll c = .ok () r'') : close (.registry P) body r = .ok result r'' := by
  show EStateM.bind (body.run.run []) _ r = _
  rw [EStateM.bind, hbody]
  show EStateM.bind (c.forM Service.release) _ r' = _
  rw [EStateM.bind, Registry.forM_release, hrelease]
  rfl

/-! ### What operations are put together from -/

/-- Part of an operation is put together from calls of the service, none of which gives a
reference back. -/
inductive Composed (P : Provider) : {α : Type} → Scope (EStateM Halt Registry) α → Prop where
  | pure {α : Type} (a : α) : Composed P (pure a)
  /-- A call that answers without a reference. -/
  | ask {α : Type} {s : Service α} {g : α → Reply} (call : Call) (e : Entropy) :
    call.make P e = s.reply g → call.gives = 0 → (∀ a, Reply.owns (.ok (g a)) = 0) →
      Composed P (ask s)
  /-- A call that answers with a reference. -/
  | create {s : Service Ref} (call : Call) (e : Entropy) :
    call.make P e = s.reply .ref → call.gives = 0 → Composed P (create s)
  | bind {α β : Type} {x : Scope (EStateM Halt Registry) α}
    {f : α → Scope (EStateM Halt Registry) β} :
    Composed P x → (∀ a, Composed P (f a)) → Composed P (x >>= f)

section Composed

variable (P : Provider)

theorem composed_dataCreate (b : Bytes) :
    Composed P (create ((StagedService.registry P).dataCreate b)) :=
  .create (.dataCreate b) (fun _ => 0) rfl rfl

theorem composed_transformCreate (kind : TransformKind) (key : Ref) (s : Option Ref) :
    Composed P (create ((StagedService.registry P).transformCreate kind key s)) :=
  .create (.transformCreate kind key s) (fun _ => 0) rfl rfl

theorem composed_transformSet (t : Ref) (a : Attribute) :
    Composed P (ask ((StagedService.registry P).transformSet t a)) :=
  .ask (.transformSet t a) (fun _ => 0) rfl rfl fun _ => rfl

theorem composed_transformExecute (t : Ref) (e : Entropy) :
    Composed P (create ((StagedService.registry P).transformExecute t e)) :=
  .create (.transformExecute t) e rfl rfl

theorem composed_dataBytes (x : Ref) :
    Composed P (ask ((StagedService.registry P).dataBytes x)) :=
  .ask (.dataBytes x) (fun _ => 0) rfl rfl fun _ => rfl

theorem composed_setInput (t : Ref) (b : Bytes) : Composed P (setInput (.registry P) t b) :=
  (composed_dataCreate P b).bind fun d => composed_transformSet P t (.input d)

theorem composed_setDigest (t : Ref) (a : HashAlgorithm) :
    Composed P (setDigest (.registry P) t a) := by
  refine (composed_transformSet P t _).bind fun _ => ?_
  cases a.lengthAttribute with
  | none => exact .pure ()
  | some bits =>
    have hnumber : Composed P (create ((StagedService.registry P).numberCreate bits)) :=
      .create (.numberCreate bits) (fun _ => 0) rfl rfl
    exact hnumber.bind fun n => composed_transformSet P t _

theorem composed_setSignaturePadding (t : Ref) (algorithm : KeyAlgorithm) :
    Composed P (setSignaturePadding (.registry P) t algorithm) := by
  unfold setSignaturePadding
  split
  · exact composed_transformSet P t _
  · exact .pure ()

end Composed

end Scope

section Staged

open Scope

variable (P : Provider)

theorem exists_composed_stagedCipher (kind : TransformKind) (key : Ref) (padding : RsaPadding)
    (input : Bytes) (e : Entropy) : ∃ body, Composed P body ∧
      stagedCipher (.registry P) kind key padding input e = close (.registry P) body :=
  ⟨_, (composed_transformCreate P _ _ _).bind fun t => (composed_transformSet P t _).bind fun _ =>
    (composed_setInput P t _).bind fun _ => (composed_transformExecute P t e).bind fun out =>
      composed_dataBytes P out, rfl⟩

theorem exists_composed_stagedSign (key : Ref) (algorithm : KeyAlgorithm) (a : HashAlgorithm)
    (message : Bytes) (e : Entropy) : ∃ body, Composed P body ∧
      stagedSign (.registry P) key algorithm a message e = close (.registry P) body :=
  ⟨_, (composed_transformCreate P _ _ _).bind fun t => (composed_setDigest P t a).bind fun _ =>
    (composed_setSignaturePadding P t algorithm).bind fun _ =>
      (composed_setInput P t message).bind fun _ =>
        (composed_transformExecute P t e).bind fun out => composed_dataBytes P out, rfl⟩

theorem exists_composed_stagedVerify (key : Ref) (algorithm : KeyAlgorithm) (a : HashAlgorithm)
    (signature message : Bytes) (e : Entropy) : ∃ body, Composed P body ∧
      stagedVerify (.registry P) key algorithm a signature message e =
        close (.registry P) body := by
  have hboolean : ∀ x, Composed P (ask ((StagedService.registry P).booleanValue x)) :=
    fun x => .ask (.booleanValue x) (fun _ => 0) rfl rfl fun _ => rfl
  exact ⟨_, (composed_dataCreate P signature).bind fun s =>
    (composed_transformCreate P _ _ (some s)).bind fun t => (composed_setDigest P t a).bind fun _ =>
      (composed_setSignaturePadding P t algorithm).bind fun _ =>
        (composed_setInput P t message).bind fun _ =>
          (composed_transformExecute P t e).bind hboolean, rfl⟩

end Staged

/-! ### Encrypting and decrypting -/

section Cipher

variable {P : Provider} {r s : Registry} {x : Ref} {k : KeyObject} {o : NativeObject}
  {t : Transform} {b out : Bytes}

/-- A registry with a transform for a key and the input of the transform besides. -/
structure Prepared (r s : Registry) (x : Ref) (t : Transform) (b : Bytes) : Prop where
  /-- References ascend. -/
  ordered : s.Ordered
  /-- No reference is given out again. -/
  last_le : r.last ≤ s.last
  /-- The transform is new. -/
  transform : s.find? (r.last + 1) = some ⟨.transform t, 1⟩
  /-- It holds on to its key and to its input. -/
  retained : t.retained = [x, r.last + 2]
  /-- The input is new. -/
  input : s.find? (r.last + 2) = some ⟨.data b, 2⟩
  /-- The key has one owner more. -/
  key : s.find? x = (r.find? x).map fun e => { e with count := e.count + 1 }
  /-- All else is as it was. -/
  rest : ∀ y, y ≠ x → y ≠ r.last + 1 → y ≠ r.last + 2 → s.find? y = r.find? y

/-- Giving back what is new leaves everything else as it was. -/
theorem Prepared.releaseAll (h : Prepared r s x t b) (hr : r.Sound) {e : Entry}
    (hx : r.find? x = some e) :
    s.releaseAll [r.last + 2, r.last + 1] = .ok () { r with last := s.last } := by
  have hle := hr.ordered.find?_le_last hx
  have hpos := hr.count_pos x e hx
  have hkey := h.key
  rw [hx, Option.map_some] at hkey
  -- the transform still owns its input when its creator has let go of both
  have htransform : (s.modify (r.last + 2) Entry.disown).find? (r.last + 1) =
      some ⟨.transform t, 1⟩ := by
    rw [find?_modify, if_neg (by simp), h.transform]
  rw [releaseAll_disown h.input Nat.one_lt_two, releaseAll_last htransform (Nat.lt_irrefl 1)]
  have hordered := (h.ordered.modify (r.last + 2) Entry.disown).erase (r.last + 1)
  generalize hs' : (s.modify (r.last + 2) Entry.disown).erase (r.last + 1) = s' at hordered ⊢
  have hfind : ∀ y, s'.find? y =
      if y = x then some { e with count := e.count + 1 }
      else if y = r.last + 2 then some ⟨.data b, 1⟩ else r.find? y := by
    intro y
    rw [← hs', find?_erase, find?_modify, h.input]
    have hnone := hr.ordered.find?_eq_none (x := y)
    have hrest := h.rest y
    grind [Entry.disown]
  -- so it lets go of the key and of the input
  show s'.releaseAll (t.retained ++ []) = _
  have hx' : s'.find? x = some { e with count := e.count + 1 } := by rw [hfind, if_pos rfl]
  have hinput : (s'.modify x Entry.disown).find? (r.last + 2) = some ⟨.data b, 1⟩ := by
    rw [find?_modify, if_neg (by grind), hfind, if_neg (by grind), if_pos rfl]
  rw [h.retained, List.append_nil, releaseAll_disown hx' (Nat.succ_lt_succ hpos),
    releaseAll_last hinput (Nat.lt_irrefl 1)]
  show Registry.releaseAll _ [] = _
  rw [releaseAll_nil]
  refine congrArg (EStateM.Result.ok ()) (Ordered.ext ((hordered.modify _ _).erase _)
    (hr.ordered.skip h.last_le) ?_ fun y => ?_)
  · rw [← hs']
    rfl
  · show _ = r.find? y
    rw [find?_erase, find?_modify, hfind x, hfind y]
    have hnone := hr.ordered.find?_eq_none (x := y)
    have hback : Entry.disown { e with count := e.count + 1 } = e := rfl
    grind

/-- The same with an output besides. -/
theorem Prepared.releaseAll_insert (h : Prepared r s x t b) (hr : r.Sound) {e : Entry}
    (hx : r.find? x = some e) (out : Bytes) :
    (s.insert (.data out)).releaseAll [s.last + 1, r.last + 2, r.last + 1] =
      .ok () { r with last := s.last + 1 } := by
  have houtput : (s.insert (.data out)).find? (s.last + 1) = some ⟨.data out, 1⟩ := by
    rw [find?_insert h.ordered, if_pos rfl]
  rw [releaseAll_last houtput (Nat.lt_irrefl 1), h.ordered.erase_insert]
  have h' : Prepared r { s with last := s.last + 1 } x t b :=
    ⟨h.ordered.skip (Nat.le_succ _), Nat.le_succ_of_le h.last_le, h.transform, h.retained, h.input,
      h.key, h.rest⟩
  exact h'.releaseAll hr hx

/-- A registry with a transform for a key besides, which holds on to nothing else. -/
structure Configured (r s : Registry) (x : Ref) (t : Transform) : Prop where
  /-- References ascend. -/
  ordered : s.Ordered
  /-- One reference is used up. -/
  last_eq : s.last = r.last + 1
  /-- The transform is new, the key has one owner more, and all else is as it was. -/
  find?_eq : ∀ y, s.find? y =
    if y = r.last + 1 then some ⟨.transform t, 1⟩
    else if y = x then (r.find? x).map fun e => { e with count := e.count + 1 }
    else r.find? y

/-- A transform for a key is created and set to a padding. -/
theorem exists_configured {kind : TransformKind} (padding : RsaPadding) (hr : r.Sound)
    (hx : r.object x = .ok (.key k)) (hrsa : k.material.algorithm? = some .rsa)
    (hkind : kind = .encrypt ∨ kind = .decrypt ∧ k.material.isPrivate = true) :
    ∃ s₁ s₂, Configured r s₂ x ⟨kind, x, none, none, none, some padding, none⟩ ∧
      (Scope.create (Service.transformCreate kind x none)).Ends [] r
        (.ok (r.last + 1)) [r.last + 1] s₁ ∧
      (Scope.ask (Service.transformSet (r.last + 1) (.padding padding))).Ends [r.last + 1] s₁
        (.ok ()) [r.last + 1] s₂ := by
  obtain ⟨e, he, hek⟩ := object_eq_ok_iff.mp hx
  have hle := hr.ordered.find?_le_last he
  have hneeds : kind.needsPrivate = true → k.material.isPrivate = true := by
    rcases hkind with rfl | ⟨rfl, h⟩
    · simp [TransformKind.needsPrivate]
    · exact fun _ => h
  have hcreate := Service.transformCreate_eq hx
    (by rcases hkind with rfl | ⟨rfl, -⟩ <;> decide) hneeds
  generalize hs₁ : (r.retain x).insert
    (.transform { kind, key := x, signature := none }) = s₁ at hcreate
  have hord₁ : s₁.Ordered := hs₁ ▸ (hr.ordered.retain x).insert _
  have hlast₁ : s₁.last = r.last + 1 := by rw [← hs₁]; rfl
  have hfind₁ : ∀ y, s₁.find? y =
      if y = r.last + 1 then some ⟨.transform { kind, key := x, signature := none }, 1⟩
      else if y = x then (r.find? x).map fun e => { e with count := e.count + 1 }
      else r.find? y := by
    intro y
    rw [← hs₁, find?_insert (hr.ordered.retain x), find?_retain]
    rfl
  have hkey : s₁.object x = .ok (.key k) := object_eq_ok_iff.mpr
    ⟨{ e with count := e.count + 1 }, by rw [hfind₁, if_neg (by grind), if_pos rfl, he]; rfl, hek⟩
  have hset := Service.transformSet_padding (k := k) (p := padding)
    (object_eq_ok_iff.mpr ⟨_, by rw [hfind₁, if_pos rfl], rfl⟩) hkey hrsa
  refine ⟨s₁, _, ⟨hord₁.replace _ _, hlast₁, fun y => ?_⟩, Scope.ends_create hcreate,
    Scope.ends_ask hset⟩
  rw [find?_replace, hfind₁, hfind₁, if_pos rfl]
  grind

/-- A transform that is set up is given an input. -/
theorem Configured.exists_prepared {t : Transform} (h : Configured r s x t)
    (hx : r.object x = .ok o) (hr : r.Sound) (hinput : t.input = none) (b : Bytes)
    (hretained : Transform.retained { t with input := some (r.last + 2) } = [x, r.last + 2]) :
    ∃ s', Prepared r s' x { t with input := some (r.last + 2) } b ∧ s'.last = r.last + 2 ∧
      (Scope.setInput (.registry P) (r.last + 1) b).Ends [r.last + 1] s
        (.ok ()) [r.last + 2, r.last + 1] s' := by
  obtain ⟨e, he, -⟩ := object_eq_ok_iff.mp hx
  have hle := hr.ordered.find?_le_last he
  have hlast : s.last + 1 = r.last + 2 := by rw [h.last_eq]
  -- the input is there, not yet held by the transform
  have hfind : ∀ y, (s.insert (.data b)).find? y =
      if y = r.last + 2 then some ⟨.data b, 1⟩ else s.find? y := by
    intro y
    rw [find?_insert h.ordered, hlast]
  have htransform : (s.insert (.data b)).find? (r.last + 1) = some ⟨.transform t, 1⟩ := by
    rw [hfind, if_neg (by simp), h.find?_eq, if_pos rfl]
  have hset := Service.transformSet_input (object_eq_ok_iff.mpr ⟨_, htransform, rfl⟩)
    (object_eq_ok_iff.mpr ⟨_, by rw [hfind, if_pos rfl], rfl⟩) hinput
  have hcreate : Service.dataCreate b s = .ok (.ok (r.last + 2)) (s.insert (.data b)) := by
    rw [← hlast]
    rfl
  have hafter : ∀ y, (((s.insert (.data b)).retain (r.last + 2)).replace (r.last + 1)
      (.transform { t with input := some (r.last + 2) })).find? y =
        if y = r.last + 1 then some ⟨.transform { t with input := some (r.last + 2) }, 1⟩
        else if y = r.last + 2 then some ⟨.data b, 2⟩ else s.find? y := by
    intro y
    rw [find?_replace, find?_retain, find?_retain, htransform, hfind, hfind]
    grind
  refine ⟨_, ⟨((h.ordered.insert _).retain _).replace _ _, ?_, ?_, hretained, ?_, ?_,
    fun y hy hT hD => ?_⟩, hlast, (Scope.ends_create hcreate).bind (Scope.ends_ask hset)⟩
  · show r.last ≤ s.last + 1
    rw [hlast]
    exact Nat.le_add_right _ 2
  · rw [hafter, if_pos rfl]
  · rw [hafter, if_neg (by simp), if_pos rfl]
  · rw [hafter, if_neg (by grind), if_neg (by grind), h.find?_eq, if_neg (by grind), if_pos rfl]
  · rw [hafter, if_neg hT, if_neg hD, h.find?_eq, if_neg hT, if_neg hy]

/-- **Encrypting or decrypting gives what the key gives, and leaves no object behind.** -/
theorem stagedCipher_eq {kind : TransformKind} {padding : RsaPadding} {e : Entropy}
    (hr : r.Sound) (hx : r.object x = .ok (.key k)) (hrsa : k.material.algorithm? = some .rsa)
    (hkind : kind = .encrypt ∨ kind = .decrypt ∧ k.material.isPrivate = true)
    (hrun : Service.Captured.run P ⟨kind, k, some padding, none, b, none⟩ e = .ok (.data out)) :
    stagedCipher (.registry P) kind x padding b e r =
      .ok (.ok out) { r with last := r.last + 3 } := by
  obtain ⟨s₁, s₂, hconfigured, hcreate, hset⟩ := exists_configured padding hr hx hrsa hkind
  obtain ⟨s, hprepared, hlast, hinput⟩ := hconfigured.exists_prepared (P := P) hx hr rfl b rfl
  obtain ⟨f, hf, hk⟩ := object_eq_ok_iff.mp hx
  have hkey : s.object x = .ok (.key k) := object_eq_ok_iff.mpr
    ⟨{ f with count := f.count + 1 }, by rw [hprepared.key, hf, Option.map_some], hk⟩
  have hexecute := Service.transformExecute_eq (P := P) (e := e)
    (object_eq_ok_iff.mpr ⟨_, hprepared.transform, rfl⟩) hkey rfl
    (object_eq_ok_iff.mpr ⟨_, hprepared.input, rfl⟩) (hkind.imp_right And.left) hrun
  have hout : Service.dataBytes (s.last + 1) (s.insert (.data out)) =
      .ok (.ok out) (s.insert (.data out)) := by
    show EStateM.Result.ok (Registry.data _ _) _ = _
    rw [data_eq_ok_iff.mpr (object_insert_last hprepared.ordered)]
  have hrelease := hprepared.releaseAll_insert hr hf out
  rw [hlast] at hexecute hout hrelease
  refine Scope.close_eq ?_ hrelease
  exact hcreate.bind (hset.bind (hinput.bind
    ((Scope.ends_create hexecute).bind (Scope.ends_ask hout))))

end Cipher

end Keyring
