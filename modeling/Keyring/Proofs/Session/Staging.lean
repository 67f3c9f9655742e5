import Keyring.Proofs.Service.Drafts
import Keyring.Proofs.Session.Scope

/-!
# What operations put together from calls give

An operation creates a transform, sets it up, gives it an input, executes it and reads what came
out.  On a key of the right kind no call on the way fails before the execution, so that the
operation gives what the key gives, an error included, and leaves everybody what they own.

## Main definitions

* `Staged` — an operation with its transform under way, and a draft of the transform.

## Main results

* `Staged.exists_set`, `Staged.exists_setDigest`, `Staged.exists_setInput` — the steps of an
  operation.
* `Staged.exists_execute` — **what is executed is what the draft says.**
* `exists_stagedEncrypt`, `exists_stagedDecrypt`, `exists_stagedSign`, `exists_stagedVerify` —
  **the operations, as functions of a key.**
-/

namespace Keyring

open Registry Service Scope

variable {α : Type} {P : Provider} {r s : Registry} {owned : Multiset Ref} {x t : Ref}
  {c : List Ref} {d : Draft} {k : KeyObject} {e : Entropy}

/-! ### Steps -/

/-- An operation has a transform under way: since it started in `r` it has created `c`, the
transform among it, and `d` is the draft of the transform. -/
structure Staged (r : Registry) (owned : Multiset Ref) (t : Ref) (d : Draft) (c : List Ref)
    (s : Registry) : Prop where
  follows : r.Follows s
  balanced : s.Balanced (c + owned)
  mem : t ∈ c
  covers : d.Covers s t

theorem Registry.Balanced.create {o : NativeObject} (hs : s.Balanced (c + owned))
    (ho : o.retained = []) : (s.insert o).Balanced (((s.last + 1) :: c : List Ref) + owned) := by
  rw [← Multiset.cons_coe, Multiset.cons_add]
  exact Balanced.insert (by simpa [ho] using hs) (by simp [ho])

/-- A transform is created. -/
theorem exists_staged {kind : TransformKind} {signature : Option Ref} {u : Transform}
    (P : Provider) (hfollows : r.Follows s) (hs : s.Balanced (c + owned))
    (hnew : newTransform s kind x signature = .ok u)
    (hd : Draft.fresh? s kind x signature = some d) :
    ∃ t s', (Scope.create ((StagedService.registry P).transformCreate kind x signature)).Ends c s
        (.ok t) (t :: c) s' ∧ Staged r owned t d (t :: c) s' := by
  obtain ⟨answer, s', hrun, hnext, hbal⟩ :=
    exists_run (P := P) (.transformCreate kind x signature) (fun _ => 0) rfl rfl hs
  have hmake := reply_eq_ok (f := Reply.ref) hrun
  have hcreate := transformCreate_ok hnew
  rw [hrun] at hcreate
  cases answer with
  | error err => cases hcreate
  | ok y =>
    obtain ⟨d', hd', hy, hcovers⟩ := Draft.exists_covers (P := P) (e := fun _ => 0) hs
      hbal.shallow hmake
    rw [hd] at hd'
    cases hd'
    cases hy
    refine ⟨s.last + 1, s', ends_create hrun, hfollows.trans hnext, ?_, List.mem_cons_self,
      hcovers⟩
    rw [← Multiset.cons_coe, Multiset.cons_add, ← Multiset.singleton_add, Multiset.add_comm]
    exact hbal

namespace Staged

theorem exists_transform (h : Staged r owned t d c s) :
    ∃ u, s.object t = .ok (.transform u) ∧ d.Describes s u := by
  have hmem : t ∈ (c : Multiset Ref) + owned := Multiset.mem_add.mpr (.inl h.mem)
  obtain ⟨e, he⟩ := h.balanced.exists_find?_of_mem hmem
  have ho := object_of_find? he
  obtain ⟨u, hu, hd⟩ := h.covers.2 _ ho
  rw [hu] at ho
  exact ⟨u, ho, hd⟩

/-- An object is created that holds on to nothing. -/
theorem create (h : Staged r owned t d c s) {o : NativeObject} (ho : o.retained = []) :
    Staged r owned t d ((s.last + 1) :: c) (s.insert o) := by
  have hordered := h.balanced.ordered
  have hnext := follows_insert hordered o
  have hbal := h.balanced.create ho
  refine ⟨h.follows.trans hnext, hbal, List.mem_cons_of_mem _ h.mem, ?_⟩
  refine h.covers.keep hordered hnext hbal.shallow fun o' ho' => ?_
  rcases (object_insert_eq_ok_iff hordered).mp ho' with ⟨ht, -⟩ | hbefore
  · exact absurd (ht ▸ h.covers.1) (Nat.not_succ_le_self _)
  · exact hbefore

/-- An attribute is set that can be set. -/
theorem exists_set (P : Provider) (h : Staged r owned t d c s) {a : Attribute} {new : Setting}
    (ha : setting s t a = .ok new) :
    ∃ s', (ask ((StagedService.registry P).transformSet t a)).Ends c s (.ok ()) c s' ∧
      Staged r owned t (d.assign s a) c s' := by
  obtain ⟨answer, s', hrun, hnext, hbal⟩ :=
    exists_run (P := P) (.transformSet t a) (fun _ => 0) rfl rfl h.balanced
  have hanswer : answer = .ok () := by
    have hset := hrun
    simp only [transformSet, ha] at hset
    split at hset <;> cases hset
    rfl
  subst hanswer
  have hmake := reply_eq_ok (f := fun _ => Reply.done) hrun
  exact ⟨s', ends_ask hrun, h.follows.trans hnext, by simpa [Reply.owns, Except.map] using hbal,
    h.mem, h.covers.set (P := P) (e := fun _ => 0) h.balanced hbal.shallow hmake⟩

/-- A transform is given its input. -/
theorem exists_setInput (P : Provider) (h : Staged r owned t d c s) (b : Bytes) :
    ∃ c' s', (setInput (.registry P) t b).Ends c s (.ok ()) c' s' ∧
      Staged r owned t { d with input := some b } c' s' := by
  have hcreated := h.create (o := .data b) rfl
  have hdata : (s.insert (.data b)).data (s.last + 1) = .ok b :=
    data_eq_ok_iff.mpr (object_insert_last h.balanced.ordered)
  obtain ⟨u, hu, -⟩ := hcreated.exists_transform
  have hsetting : setting (s.insert (.data b)) t (.input (s.last + 1)) =
      .ok ⟨{ u with input := some (s.last + 1) }, some (s.last + 1), u.input⟩ := by
    rw [setting, transform_eq_ok_iff.mpr hu, ok_bind, hdata]
    rfl
  -- the object of the input stays with the operation, which gives it back at its end
  obtain ⟨s', hset, hstaged⟩ := hcreated.exists_set P hsetting
  rw [Draft.assign, hdata] at hstaged
  have hends : (Scope.create ((StagedService.registry P).dataCreate b)).Ends c s
      (.ok (s.last + 1)) ((s.last + 1) :: c) (s.insert (.data b)) := ends_create rfl
  exact ⟨_, s', hends.bind hset, hstaged⟩

/-- A transform is set to a hash algorithm, by its family and its length. -/
theorem exists_setDigest (P : Provider) (h : Staged r owned t d c s) (hnone : d.digestLength = none)
    (a : HashAlgorithm) :
    ∃ c' s', (setDigest (.registry P) t a).Ends c s (.ok ()) c' s' ∧
      Staged r owned t { d with digestType := some a.family, digestLength := a.lengthAttribute }
        c' s' := by
  obtain ⟨u, hu, -⟩ := h.exists_transform
  have hfamily : setting s t (.digestType a.family) =
      .ok ⟨{ u with digestType := some a.family }, none, none⟩ := by
    rw [setting, transformToChange_eq_ok_iff.mpr hu]
    rfl
  obtain ⟨s₁, hset, hstaged⟩ := h.exists_set P hfamily
  rw [Draft.assign] at hstaged
  cases hlength : a.lengthAttribute with
  | none =>
    -- a family of one length has nothing more to be set
    refine ⟨c, s₁, hset.bind ?_, ?_⟩
    · rw [hlength]
      rfl
    · rw [← hnone]
      exact hstaged
  | some bits =>
    have hcreated := hstaged.create (o := .number bits) rfl
    have hnumber : (s₁.insert (.number bits)).number (s₁.last + 1) = .ok bits :=
      number_eq_ok_iff.mpr (object_insert_last hstaged.balanced.ordered)
    obtain ⟨u', hu', -⟩ := hcreated.exists_transform
    have hbits : setting (s₁.insert (.number bits)) t (.digestLength (s₁.last + 1)) =
        .ok ⟨{ u' with digestLength := some (s₁.last + 1) }, some (s₁.last + 1),
          u'.digestLength⟩ := by
      rw [setting, transform_eq_ok_iff.mpr hu', ok_bind, hnumber]
      rfl
    obtain ⟨s₂, hset', hstaged'⟩ := hcreated.exists_set P hbits
    rw [Draft.assign, hnumber] at hstaged'
    have hends : (Scope.create ((StagedService.registry P).numberCreate bits)).Ends c s₁
        (.ok (s₁.last + 1)) ((s₁.last + 1) :: c) (s₁.insert (.number bits)) :=
      ends_create rfl
    refine ⟨_, s₂, hset.bind ?_, hstaged'⟩
    rw [hlength]
    exact hends.bind hset'

/-- A padding is set: any for an RSA key. -/
theorem exists_setPadding (P : Provider) (h : Staged r owned t d c s) (padding : RsaPadding)
    (hrsa : d.key.material.algorithm? = some .rsa) :
    ∃ s', (ask ((StagedService.registry P).transformSet t (.padding padding))).Ends c s (.ok ())
        c s' ∧ Staged r owned t { d with padding := some padding } c s' := by
  obtain ⟨u, hu, hdescribes⟩ := h.exists_transform
  have hsetting : setting s t (.padding padding) =
      .ok ⟨{ u with padding := some padding }, none, none⟩ := by
    rw [setting, transform_eq_ok_iff.mpr hu]
    by_cases hraw : padding = .raw
    · simp [hraw]
    · simp [hraw, hdescribes.key, hrsa]
  exact h.exists_set P hsetting

/-- The padding of a signature is set. -/
theorem exists_setSignaturePadding (P : Provider) (h : Staged r owned t d c s)
    {algorithm : KeyAlgorithm} (hkey : d.key.material.algorithm? = some algorithm)
    (hnone : d.padding = none) :
    ∃ s', (setSignaturePadding (.registry P) t algorithm).Ends c s (.ok ()) c s' ∧
      Staged r owned t
        { d with padding := if algorithm = .rsa then some .pkcs1 else none } c s' := by
  unfold setSignaturePadding
  by_cases hrsa : algorithm = .rsa
  · rw [if_pos hrsa, if_pos hrsa]
    exact h.exists_setPadding P .pkcs1 (hkey.trans (congrArg some hrsa))
  · rw [if_neg hrsa, if_neg hrsa, ← hnone]
    exact ⟨s, rfl, h⟩

/-- **What is executed is what the draft says**, and what comes out is read. -/
theorem exists_execute (h : Staged r owned t d c s) (read : Ref → Service α)
    (wanted : Registry → Ref → Except ServiceError α) (make : α → NativeObject)
    (hread : ∀ y, read y = Service.query fun s => wanted s y)
    (hwanted : ∀ s y a, s.object y = .ok (make a) → wanted s y = .ok a)
    (hnil : ∀ a, (make a).retained = []) {result : Except ServiceError α}
    (hrun : (do (← d.captured).run P e) = result.map make) :
    ∃ (c' : List Ref) (s' : Registry), (do
        let y ← Scope.create ((StagedService.registry P).transformExecute t e)
        ask (read y)).Ends c s (result.mapError .service) c' s' ∧
      r.Follows s' ∧ s'.Balanced (c' + owned) := by
  obtain ⟨u, hu, -⟩ := h.exists_transform
  -- executing reads the transform, and the draft is what it reads
  rw [← h.covers.capture_eq hu] at hrun
  cases result with
  | error err =>
    have hfails : transformExecute P t e s = .ok (.error err) s := create_error hrun
    exact ⟨c, s, (ends_ask hfails).bind_error.bind_error, h.follows, h.balanced⟩
  | ok a =>
    have hgives : transformExecute P t e s = .ok (.ok (s.last + 1)) (s.insert (make a)) :=
      create_ok hrun
    have hout : read (s.last + 1) (s.insert (make a)) = .ok (.ok a) (s.insert (make a)) := by
      rw [hread, query, hwanted _ _ a (object_insert_last h.balanced.ordered)]
    exact ⟨_, _, (ends_create hgives).bind (ends_ask hout),
      h.follows.trans (follows_insert h.balanced.ordered _), h.balanced.create (hnil a)⟩

/-- Bytes come out. -/
theorem exists_executeData (h : Staged r owned t d c s) {result : Except ServiceError Bytes}
    (hrun : (do (← d.captured).run P e) = result.map .data) :
    ∃ (c' : List Ref) (s' : Registry), (do
        let y ← Scope.create ((StagedService.registry P).transformExecute t e)
        ask ((StagedService.registry P).dataBytes y)).Ends c s (result.mapError .service) c' s' ∧
      r.Follows s' ∧ s'.Balanced (c' + owned) :=
  h.exists_execute Service.dataBytes Registry.data .data (fun _ => rfl)
    (fun _ _ _ => data_eq_ok_iff.mpr) (fun _ => rfl) hrun

/-- A truth value comes out. -/
theorem exists_executeBoolean (h : Staged r owned t d c s) {result : Except ServiceError Bool}
    (hrun : (do (← d.captured).run P e) = result.map .boolean) :
    ∃ (c' : List Ref) (s' : Registry), (do
        let y ← Scope.create ((StagedService.registry P).transformExecute t e)
        ask ((StagedService.registry P).booleanValue y)).Ends c s (result.mapError .service) c' s' ∧
      r.Follows s' ∧ s'.Balanced (c' + owned) := by
  refine h.exists_execute Service.booleanValue Registry.boolean .boolean (fun _ => rfl)
    (fun s y v ho => ?_) (fun _ => rfl) hrun
  rw [Registry.boolean, ho]
  rfl

end Staged

/-- An operation that has ended gives back what it has created. -/
theorem Scope.exists_close {body : Scope (EStateM Halt Registry) α}
    {result : Except CryptoError α} (hbody : body.Ends [] r result c s) (hfollows : r.Follows s)
    (hs : s.Balanced (c + owned)) :
    ∃ r', close (.registry P) body r = .ok result r' ∧ r.Follows r' ∧ r'.Balanced owned := by
  obtain ⟨r', hrelease, hr'⟩ := hs.releaseAll
  exact ⟨r', close_eq hbody hrelease, hfollows.trans (follows_of_releaseAll hrelease), hr'⟩

/-! ### The operations -/

/-- The padding that a signature of a key is set to. -/
def signaturePadding (algorithm : KeyAlgorithm) : Option RsaPadding :=
  if algorithm = .rsa then some .pkcs1 else none

/-- Family and length denote the hash algorithm that they were taken from. -/
theorem digestOf_family (a : HashAlgorithm) :
    digestOf (some a.family) a.lengthAttribute = .ok a := by
  cases a <;> rfl

section Staged

variable (hr : r.Balanced owned) (hx : r.object x = .ok (.key k))

include hr hx

/-- Encrypting or decrypting with an RSA key. -/
theorem exists_stagedCipher {kind : TransformKind} (padding : RsaPadding) (b : Bytes) (e : Entropy)
    (hrsa : k.material.algorithm? = some .rsa)
    (hkind : kind = .encrypt ∨ kind = .decrypt ∧ k.material.isPrivate = true)
    {result : Except ServiceError Bytes}
    (hrun : Captured.run P ⟨kind, k, some padding, none, b, none⟩ e = result.map .data) :
    ∃ r', stagedCipher (.registry P) kind x padding b e r = .ok (result.mapError .service) r' ∧
      r.Follows r' ∧ r'.Balanced owned := by
  have hverify : kind ≠ .verify := by rcases hkind with rfl | ⟨rfl, -⟩ <;> decide
  have hneeds : kind.needsPrivate = true → k.material.isPrivate = true := by
    rcases hkind with rfl | ⟨rfl, hprivate⟩
    · nofun
    · exact fun _ => hprivate
  have hfresh : Draft.fresh? r kind x none = some { kind, key := k, signature := none } := by
    rw [Draft.fresh?, key_eq_ok_iff.mpr hx]
    cases kind <;> rfl
  have hempty : r.Balanced (([] : List Ref) + owned) := by simpa using hr
  obtain ⟨t, s₁, hcreate, h₁⟩ :=
    exists_staged P (.refl r) hempty (newTransform_eq hx hverify hneeds) hfresh
  obtain ⟨s₂, hset, h₂⟩ := h₁.exists_setPadding P padding hrsa
  obtain ⟨c₃, s₃, hinput, h₃⟩ := h₂.exists_setInput P b
  have hcaptured : Draft.captured
      { kind, key := k, signature := none, padding := some padding, input := some b } =
        .ok ⟨kind, k, some padding, none, b, none⟩ := by
    rcases hkind with rfl | ⟨rfl, -⟩ <;> rfl
  obtain ⟨c₄, s₄, hexecute, hfollows, hbal⟩ :=
    h₃.exists_executeData (P := P) (e := e) (by rw [hcaptured, ok_bind, hrun])
  exact exists_close (hcreate.bind (hset.bind (hinput.bind hexecute))) hfollows hbal

theorem exists_stagedEncrypt (padding : RsaPadding) (b : Bytes) (e : Entropy)
    (hrsa : k.material.algorithm? = some .rsa) :
    ∃ r', stagedCipher (.registry P) .encrypt x padding b e r =
        .ok ((encryptWith P k padding (outputSize k) e b).mapError .service) r' ∧
      r.Follows r' ∧ r'.Balanced owned :=
  exists_stagedCipher hr hx padding b e hrsa (.inl rfl) rfl

theorem exists_stagedDecrypt (padding : RsaPadding) (b : Bytes) (e : Entropy)
    (hrsa : k.material.algorithm? = some .rsa) (hprivate : k.material.isPrivate = true) :
    ∃ r', stagedCipher (.registry P) .decrypt x padding b e r =
        .ok ((decryptWith P k padding (outputSize k) b).mapError .service) r' ∧
      r.Follows r' ∧ r'.Balanced owned :=
  exists_stagedCipher hr hx padding b e hrsa (.inr ⟨rfl, hprivate⟩) rfl

theorem exists_stagedSign (algorithm : KeyAlgorithm) (a : HashAlgorithm) (b : Bytes) (e : Entropy)
    (halgorithm : k.material.algorithm? = some algorithm)
    (hprivate : k.material.isPrivate = true) :
    ∃ r', stagedSign (.registry P) x algorithm a b e r =
        .ok ((signWith P k a (signaturePadding algorithm) e b).mapError .service) r' ∧
      r.Follows r' ∧ r'.Balanced owned := by
  have hfresh : Draft.fresh? r .sign x none =
      some { kind := .sign, key := k, signature := none } := by
    rw [Draft.fresh?, key_eq_ok_iff.mpr hx]
    rfl
  have hempty : r.Balanced (([] : List Ref) + owned) := by simpa using hr
  obtain ⟨t, s₁, hcreate, h₁⟩ := exists_staged P (.refl r) hempty
    (newTransform_eq hx (by decide) fun _ => hprivate) hfresh
  obtain ⟨c₂, s₂, hdigest, h₂⟩ := h₁.exists_setDigest P rfl a
  obtain ⟨s₃, hpadding, h₃⟩ := h₂.exists_setSignaturePadding P halgorithm rfl
  obtain ⟨c₄, s₄, hinput, h₄⟩ := h₃.exists_setInput P b
  have hrun : (do
      let c ← Draft.captured ⟨.sign, k, none, some a.family, a.lengthAttribute,
        signaturePadding algorithm, some b⟩
      c.run P e) = (signWith P k a (signaturePadding algorithm) e b).map .data := by
    rw [Draft.captured, digestOf_family]
    exact bind_return_eq_map _ _
  obtain ⟨c₅, s₅, hexecute, hfollows, hbal⟩ := h₄.exists_executeData (P := P) hrun
  exact exists_close (hcreate.bind (hdigest.bind (hpadding.bind (hinput.bind hexecute)))) hfollows
    hbal

theorem exists_stagedVerify (algorithm : KeyAlgorithm) (a : HashAlgorithm) (signature b : Bytes)
    (e : Entropy) (halgorithm : k.material.algorithm? = some algorithm) :
    ∃ r', stagedVerify (.registry P) x algorithm a signature b e r =
        .ok ((verifyWith P k a (signaturePadding algorithm) b signature).mapError .service) r' ∧
      r.Follows r' ∧ r'.Balanced owned := by
  have hempty : r.Balanced (([] : List Ref) + owned) := by simpa using hr
  -- the signature is there before the transform
  have hsignature : (Scope.create ((StagedService.registry P).dataCreate signature)).Ends [] r
      (.ok (r.last + 1)) [r.last + 1] (r.insert (.data signature)) := ends_create rfl
  have hdata := object_insert_last (o := .data signature) hr.ordered
  have hkey := object_insert_of_ok (o := .data signature) hr.ordered hx
  have hfresh : Draft.fresh? (r.insert (.data signature)) .verify x (some (r.last + 1)) =
      some { kind := .verify, key := k, signature := some signature } := by
    rw [Draft.fresh?, key_eq_ok_iff.mpr hkey, if_pos rfl,
      mapM_eq_ok_iff.mpr (.inr ⟨_, signature, rfl, data_eq_ok_iff.mpr hdata, rfl⟩)]
  obtain ⟨t, s₁, hcreate, h₁⟩ := exists_staged P (follows_insert hr.ordered _) (hempty.create rfl)
    (newTransform_verify hkey hdata) hfresh
  obtain ⟨c₂, s₂, hdigest, h₂⟩ := h₁.exists_setDigest P rfl a
  obtain ⟨s₃, hpadding, h₃⟩ := h₂.exists_setSignaturePadding P halgorithm rfl
  obtain ⟨c₄, s₄, hinput, h₄⟩ := h₃.exists_setInput P b
  have hrun : (do
      let c ← Draft.captured ⟨.verify, k, some signature, some a.family, a.lengthAttribute,
        signaturePadding algorithm, some b⟩
      c.run P e) =
        (verifyWith P k a (signaturePadding algorithm) b signature).map .boolean := by
    rw [Draft.captured, digestOf_family]
    exact bind_return_eq_map _ _
  obtain ⟨c₅, s₅, hexecute, hfollows, hbal⟩ := h₄.exists_executeBoolean (P := P) hrun
  exact exists_close (hsignature.bind (hcreate.bind (hdigest.bind (hpadding.bind
    (hinput.bind hexecute))))) hfollows hbal

end Staged

end Keyring
