import Keyring.Proofs.Service.Identity

/-!
# What keys may be used for

A key may be used for what it was created for, whatever is called afterwards.  The checks are
made in several places, when transforms are created, set up and executed, and transforms name
their keys by references that may have been given back too often.  What comes out of a transform
is traced back to the call that created its key all the same.

Two facts meet in this.  An execution that puts something out has found a key with the flags for
it, under the reference that its transform names; the checks made earlier may all be forgotten.
And what is found under a reference is what was created under it, whatever has become of counts
and owners, so the flags that were found are those that the creating call gave.  A record is kept
of these calls, in the way that `Service.Issues` keeps one of the objects.

## Main definitions

* `Call.Brings` — what a call may create.
* `Service.Records` — the registries that calls of any kind lead to, with the calls that have
  created something.
* `Call.permits` — what the key that a call creates may be used for.
* `Service.after` — the registry after further calls.

## Main results

* `Call.brings` — **what a call creates is of the form that the call says.**
* `Service.Captured.allows_of_run` — **an execution that puts something out was allowed to.**
* `Service.Records.permits_only` — **over any history, keys are used only for what they were
  created for.**
-/

namespace Keyring

open Registry Service

variable {P : Provider} {r r' : Registry} {x y : Ref} {o : NativeObject} {t : Transform}
  {k : KeyObject} {c : Call} {e : Entropy} {made : List (Ref × Call)}
  {issued : List (Ref × NativeObject)} {padding : Option RsaPadding}

/-! ### What operations ask of keys -/

/-- What comes out of an execution: a truth value if it verifies, else a byte string. -/
def TransformKind.PutsOut : TransformKind → NativeObject → Prop
  | verify, o => ∃ v, o = .boolean v
  | _, o => ∃ b, o = .data b

theorem TransformKind.PutsOut.data_or_boolean {kind : TransformKind} (h : kind.PutsOut o) :
    (∃ b, o = .data b) ∨ ∃ v, o = .boolean v := by
  cases kind with
  | verify => exact .inr h
  | encrypt => exact .inl h
  | decrypt => exact .inl h
  | sign => exact .inl h

/-- A key is good for what a transform does. -/
def KeyObject.Serves (k : KeyObject) : TransformKind → Prop
  | .sign => k.canSign = true ∧ k.material.isPrivate = true
  | .verify => k.canVerify = true
  | .decrypt => k.material.isPrivate = true ∧ k.material.publicKey.rsa?.isSome
  | .encrypt => k.material.publicKey.rsa?.isSome

theorem KeyObject.Serves.isPrivate {kind : TransformKind} (h : k.Serves kind)
    (hneeds : kind.needsPrivate = true) : k.material.isPrivate = true := by
  cases kind with
  | sign => exact h.2
  | decrypt => exact h.1
  | verify => cases hneeds
  | encrypt => cases hneeds

/-- What a transform for signatures may be set to: the padding of PKCS #1, or nothing. -/
def IsSignaturePadding (padding : Option RsaPadding) : Prop :=
  padding = none ∨ padding = some .pkcs1

/-- What an execution that puts something out has found in order. -/
structure Service.Captured.Allows (captured : Captured) (o : NativeObject) : Prop where
  putsOut : captured.kind.PutsOut o
  serves : captured.key.Serves captured.kind
  padding : captured.kind = .sign ∨ captured.kind = .verify → IsSignaturePadding captured.padding

namespace Service

theorem isSignaturePadding_of_check (h : checkSignaturePadding k padding = .ok ()) :
    IsSignaturePadding padding := by
  unfold checkSignaturePadding at h
  split at h <;> split at h
  · exact .inl rfl
  · exact .inr rfl
  · cases h
  · exact .inl rfl
  · cases h

theorem serves_of_signWith {a : HashAlgorithm} {b s : Bytes}
    (h : signWith P k a padding e b = .ok s) : k.Serves .sign ∧ IsSignaturePadding padding := by
  unfold signWith at h
  split at h <;> dsimp only at h <;> split at h
  · cases h
  · cases h
  · cases h
  -- left is a private key that may sign
  next key hm hsign =>
    split at h
    · cases h
    · obtain ⟨u, hpadding, -⟩ := bind_eq_ok_iff.mp h
      exact ⟨⟨by simpa using hsign, by rw [hm]; rfl⟩, isSignaturePadding_of_check hpadding⟩

theorem serves_of_verifyWith {a : HashAlgorithm} {b s : Bytes} {v : Bool}
    (h : verifyWith P k a padding b s = .ok v) : k.Serves .verify ∧ IsSignaturePadding padding := by
  by_cases hverify : k.canVerify = true
  · by_cases hdigest : P.takesDigest k.material.publicKey = true
    · have hv : (checkSignaturePadding k padding >>= fun _ =>
          Except.ok ((P.verify k.material.publicKey a b s).getD false)) = Except.ok v := by
        simpa [verifyWith, hverify, hdigest] using h
      obtain ⟨u, hpadding, -⟩ := bind_eq_ok_iff.mp hv
      exact ⟨hverify, isSignaturePadding_of_check hpadding⟩
    · simp [verifyWith, hverify, hdigest] at h
  · simp [verifyWith, hverify] at h

theorem serves_of_decryptWith {p : RsaPadding} {n : Nat} {b b' : Bytes}
    (h : decryptWith P k p n b = .ok b') : k.Serves .decrypt := by
  unfold decryptWith at h
  split at h
  · cases h
  next key hm =>
    obtain ⟨rsa, hrsa, -⟩ := bind_eq_ok_iff.mp h
    rw [KeyObject.Serves, hm]
    -- of the private keys RSA keys alone have an RSA half
    cases key <;> first | exact ⟨rfl, rfl⟩ | cases hrsa

theorem serves_of_encryptWith {p : RsaPadding} {n : Nat} {b b' : Bytes}
    (h : encryptWith P k p n e b = .ok b') : k.Serves .encrypt := by
  obtain ⟨rsa, hrsa, -⟩ := bind_eq_ok_iff.mp h
  rw [KeyObject.Serves]
  cases hkey : k.material.publicKey.rsa? with
  | none =>
    rw [hkey] at hrsa
    cases hrsa
  | some rsa => rfl

/-- **An execution that puts something out was allowed to.** -/
theorem Captured.allows_of_run {captured : Captured} (h : captured.run P e = .ok o) :
    captured.Allows o := by
  unfold Captured.run at h
  -- by kind: encryption, decryption, signature and verification
  split at h
  next hkind =>
    obtain ⟨b, hb, rfl⟩ := map_eq_ok_iff.mp h
    refine ⟨?_, ?_, ?_⟩ <;> rw [hkind]
    · exact ⟨b, rfl⟩
    · exact serves_of_encryptWith hb
    · rintro (hne | hne) <;> cases hne
  next hkind =>
    obtain ⟨b, hb, rfl⟩ := map_eq_ok_iff.mp h
    refine ⟨?_, ?_, ?_⟩ <;> rw [hkind]
    · exact ⟨b, rfl⟩
    · exact serves_of_decryptWith hb
    · rintro (hne | hne) <;> cases hne
  next hkind =>
    obtain ⟨a, -, h⟩ := bind_eq_ok_iff.mp h
    obtain ⟨b, hb, h⟩ := bind_eq_ok_iff.mp h
    cases h
    obtain ⟨hserves, hpadding⟩ := serves_of_signWith hb
    exact ⟨hkind ▸ ⟨b, rfl⟩, hkind ▸ hserves, fun _ => hpadding⟩
  next hkind =>
    obtain ⟨a, -, h⟩ := bind_eq_ok_iff.mp h
    obtain ⟨s, -, h⟩ := bind_eq_ok_iff.mp h
    obtain ⟨v, hv, h⟩ := bind_eq_ok_iff.mp h
    cases h
    obtain ⟨hserves, hpadding⟩ := serves_of_verifyWith hv
    exact ⟨hkind ▸ ⟨v, rfl⟩, hkind ▸ hserves, fun _ => hpadding⟩

/-- Kind, key and padding are captured of a transform as they are. -/
theorem object_of_capture {captured : Captured} (h : capture r x = .ok captured) :
    ∃ t, r.object x = .ok (.transform t) ∧ r.object t.key = .ok (.key captured.key) ∧
      captured.kind = t.kind ∧ captured.padding = t.padding := by
  obtain ⟨t, ht, h⟩ := bind_eq_ok_iff.mp h
  split at h
  · cases h
  · obtain ⟨digest, -, h⟩ := bind_eq_ok_iff.mp h
    obtain ⟨k, hk, h⟩ := bind_eq_ok_iff.mp h
    obtain ⟨b, -, h⟩ := bind_eq_ok_iff.mp h
    cases h
    exact ⟨t, transform_eq_ok_iff.mp ht, key_eq_ok_iff.mp hk, rfl, rfl⟩

end Service

/-! ### What calls create -/

/-- What a call may create.  A key is of the class and the algorithm that the call asks for and
has the flags that the call gives; the key of a certificate is public and verifies. -/
inductive Call.Brings (P : Provider) : Call → NativeObject → Prop
  | certificate (b : Bytes) (c : X509) : Brings P (.certificateCreate b) (.certificate c)
  | copied (x : Ref) (key : PublicKey) :
      Brings P (.certificateCopyPublicKey x) (.key ⟨.ofPublic key, false, true⟩)
  | key {a : KeyAttributes} {b : Bytes} {m : KeyMaterial}
      (hm : decodeKey P a.algorithm a.isPrivate b = some m)
      (halgorithm : m.algorithm? = some a.algorithm) :
      Brings P (.keyCreate a b) (.key ⟨m, a.canSign, a.canVerify⟩)
  | data (b : Bytes) : Brings P (.dataCreate b) (.data b)
  | number (v : Int) : Brings P (.numberCreate v) (.number v)
  | transform (kind : TransformKind) (x : Ref) (s : Option Ref) :
      Brings P (.transformCreate kind x s) (.transform (.fresh kind x s))
  | output (x : Ref) {kind : TransformKind} {o : NativeObject} (ho : kind.PutsOut o) :
      Brings P (.transformExecute x) o

theorem Call.Brings.eq_of_transform (h : c.Brings P (.transform t)) :
    ∃ s, c = .transformCreate t.kind t.key s := by
  cases h with
  | transform kind x s => exact ⟨s, rfl⟩
  | output x ho =>
    obtain ⟨b, hb⟩ | ⟨v, hv⟩ := ho.data_or_boolean
    · cases hb
    · cases hv

namespace Service

theorem ref_of_create {f : Registry → Except ServiceError NativeObject}
    (h : (create f).reply .ref r = .ok (.ok (.ref y)) r') :
    ∃ o, f r = .ok o ∧ y = r.last + 1 ∧ r' = r.insert o := by
  cases ho : f r with
  | error err =>
    rw [reply_eq_ok (create_error ho)] at h
    cases h
  | ok o =>
    rw [reply_eq_ok (create_ok ho)] at h
    cases h
    exact ⟨o, rfl, rfl, rfl⟩

theorem ok_of_query {α : Type} {f : Registry → Except ServiceError α} {g : α → Reply}
    {reply : Reply} (h : (query f).reply g r = .ok (.ok reply) r') : ∃ a, f r = .ok a := by
  have hanswer : (query f).reply g r = .ok ((f r).map g) r := reply_eq_ok rfl
  rw [hanswer] at h
  injection h with hreply
  obtain ⟨a, ha, -⟩ := map_eq_ok_iff.mp hreply
  exact ⟨a, ha⟩

theorem reply_ne_ref {α : Type} {f : α → Reply} {s : Service α} (hf : ∀ a, f a ≠ .ref y) :
    s.reply f r ≠ .ok (.ok (.ref y)) r' := by
  intro h
  cases hs : s r with
  | error err r'' =>
    rw [reply, EStateM.map, hs] at h
    cases h
  | ok a r'' =>
    rw [reply_eq_ok hs] at h
    injection h with ha
    obtain ⟨a, -, ha⟩ := map_eq_ok_iff.mp ha
    exact hf a ha

theorem decoded_eq_ok {α : Type} {a : Option α} {b : α} (h : decoded a = .ok b) : a = some b := by
  cases a <;> cases h
  rfl

end Service

/-- **What a call creates is of the form that the call says**, under the reference that it answers
with. -/
theorem Call.brings (hr : r.Loose) (h : c.make P e r = .ok (.ok (.ref y)) r') :
    ∃ o, r'.object y = .ok o ∧ c.Brings P o := by
  have hordered := hr.sound.ordered
  cases c with
  | certificateCreate b =>
    obtain ⟨o, ho, rfl, rfl⟩ := ref_of_create h
    obtain ⟨c, -, rfl⟩ := map_eq_ok_iff.mp ho
    exact ⟨_, object_insert_last hordered, .certificate b c⟩
  | certificateCopyPublicKey x =>
    obtain ⟨o, ho, rfl, rfl⟩ := ref_of_create h
    obtain ⟨c, -, ho⟩ := bind_eq_ok_iff.mp ho
    obtain ⟨key, -, ho⟩ := bind_eq_ok_iff.mp ho
    cases ho
    exact ⟨_, object_insert_last hordered, .copied x key⟩
  | keyCreate a b =>
    obtain ⟨o, ho, rfl, rfl⟩ := ref_of_create h
    obtain ⟨m, hm, ho⟩ := bind_eq_ok_iff.mp ho
    split at ho
    next halgorithm =>
      cases ho
      exact ⟨_, object_insert_last hordered, .key (decoded_eq_ok hm) halgorithm⟩
    · cases ho
  | dataCreate b =>
    obtain ⟨o, ho, rfl, rfl⟩ := ref_of_create h
    cases ho
    exact ⟨_, object_insert_last hordered, .data b⟩
  | numberCreate v =>
    obtain ⟨o, ho, rfl, rfl⟩ := ref_of_create h
    cases ho
    exact ⟨_, object_insert_last hordered, .number v⟩
  | transformExecute x =>
    obtain ⟨o, ho, rfl, rfl⟩ := ref_of_create h
    obtain ⟨captured, -, ho⟩ := bind_eq_ok_iff.mp ho
    have hputsOut := (Captured.allows_of_run ho).putsOut
    exact ⟨o, object_insert_last hordered, .output x hputsOut⟩
  -- what is retained first gives out no reference
  | transformCreate kind x s =>
    cases ht : newTransform r kind x s with
    | error err =>
      rw [make, reply_eq_ok (transformCreate_error ht)] at h
      cases h
    | ok t =>
      rw [make, reply_eq_ok (transformCreate_ok ht)] at h
      cases h
      obtain ⟨rfl, -⟩ := newTransform_eq_ok ht
      exact ⟨_, object_insert_last (hr.retainAll _).sound.ordered, .transform kind x s⟩
  -- the rest answer with bytes, a truth value or nothing
  | keyEncrypt x n b => exact absurd h (reply_ne_ref fun _ => Reply.noConfusion)
  | keyDecrypt x n b => exact absurd h (reply_ne_ref fun _ => Reply.noConfusion)
  | transformSet x a => exact absurd h (reply_ne_ref fun _ => Reply.noConfusion)
  | dataBytes x => exact absurd h (reply_ne_ref fun _ => Reply.noConfusion)
  | booleanValue x => exact absurd h (reply_ne_ref fun _ => Reply.noConfusion)
  | release x =>
    rw [make, release_reply] at h
    exact absurd (owns_of_afterRelease h) (Multiset.singleton_ne_zero y)

/-! ### Records -/

/-- A registry that calls lead to, whoever owns what, with the calls that have created something,
under the references of what they created.  A call that is abandoned leaves what it has done by
then. -/
inductive Service.Records (P : Provider) : Registry → List (Ref × Call) → Prop
  | start : Records P {} []
  | call {r : Registry} {made : List (Ref × Call)} (c : Call) (e : Entropy) :
      Records P r made → Records P (finalState (c.make P e r))
        (made ++ (issuedBy (c.make P e r)).map fun p => (p.1, c))

namespace Service

/-- What a call creates is of the form that the call says. -/
theorem brings_of_issuedBy (hr : r.Loose) (h : (y, o) ∈ issuedBy (c.make P e r)) :
    c.Brings P o := by
  unfold issuedBy at h
  split at h
  next x r' hmake =>
    obtain ⟨o', ho', hbrings⟩ := Call.brings hr hmake
    rw [ho'] at h
    cases List.mem_singleton.mp h
    exact hbrings
  · cases h

/-- Everything that was created is recorded with the call that has created it. -/
theorem Records.exists_issues (h : Records P r made) : ∃ issued, Issues P r issued ∧
    made.map Prod.fst = issued.map Prod.fst ∧
    ∀ y o, (y, o) ∈ issued → ∃ c, (y, c) ∈ made ∧ c.Brings P o := by
  induction h with
  | start => exact ⟨[], .start, rfl, fun y o ho => by cases ho⟩
  | @call r made c e _ ih =>
    obtain ⟨issued, hissues, hrefs, hbrings⟩ := ih
    -- both lists grow by what the call has created, if anything
    refine ⟨_, hissues.call c e, ?_, fun y o ho => ?_⟩
    · rw [List.map_append, List.map_append, hrefs, List.map_map]
      rfl
    · rcases List.mem_append.mp ho with ho | ho
      · obtain ⟨c', hc', hbrings⟩ := hbrings y o ho
        exact ⟨c', List.mem_append_left _ hc', hbrings⟩
      · exact ⟨c, List.mem_append_right _ (List.mem_map_of_mem ho),
          brings_of_issuedBy hissues.traced.loose ho⟩

/-- No reference is given out twice. -/
theorem Records.nodup (h : Records P r made) : (made.map Prod.fst).Nodup := by
  obtain ⟨issued, hissues, hrefs, -⟩ := h.exists_issues
  rw [hrefs]
  exact hissues.traced.nodup

/-- An object without slots was created as it is, by one call. -/
theorem Records.exists_brings (h : Records P r made) (ho : r.object y = .ok o)
    (hnil : o.retained = []) : ∃ c, (y, c) ∈ made ∧ c.Brings P o := by
  obtain ⟨issued, hissues, -, hbrings⟩ := h.exists_issues
  exact hbrings y o (hissues.traced.mem_of_leaf ho hnil)

theorem Records.brings (h : Records P r made) (hc : (y, c) ∈ made) (ho : r.object y = .ok o)
    (hnil : o.retained = []) : c.Brings P o := by
  obtain ⟨c', hc', hbrings⟩ := h.exists_brings ho hnil
  -- of one reference one call is recorded
  cases List.inj_on_of_nodup_map h.nodup hc hc' rfl
  exact hbrings

/-- A transform is of the kind and for the key that it was created with. -/
theorem Records.exists_transformCreate (h : Records P r made)
    (ht : r.object x = .ok (.transform t)) : ∃ s, (x, .transformCreate t.kind t.key s) ∈ made := by
  obtain ⟨issued, hissues, -, hbrings⟩ := h.exists_issues
  obtain ⟨o, ho, hremains⟩ := hissues.traced.object x _ ht
  obtain ⟨c, hc, hbrings⟩ := hbrings x o ho
  -- settings leave kind and key alone
  cases hremains with
  | same =>
    obtain ⟨s, rfl⟩ := hbrings.eq_of_transform
    exact ⟨s, hc⟩
  | set hkind hkey =>
    obtain ⟨s, rfl⟩ := hbrings.eq_of_transform
    exact ⟨s, by rwa [hkind, hkey]⟩

end Service

/-! ### What keys may be used for -/

/-- What the key that a call creates may be used for.  Keys of certificates neither sign nor
decrypt. -/
def Call.permits : Call → TransformKind → Bool
  | keyCreate a _, .sign => a.isPrivate && a.canSign
  | keyCreate a _, .verify => a.canVerify
  | keyCreate a _, .decrypt => a.isPrivate && a.algorithm = .rsa
  | keyCreate a _, .encrypt => a.algorithm = .rsa
  | certificateCopyPublicKey _, kind => !kind.needsPrivate
  | _, _ => false

theorem Service.isPrivate_of_decodeKey {a : KeyAlgorithm} {p : Bool} {b : Bytes} {m : KeyMaterial}
    (h : decodeKey P a p b = some m) : m.isPrivate = p := by
  cases p
  · obtain ⟨key, -, rfl⟩ := Option.map_eq_some_iff.mp h
    rfl
  · obtain ⟨key, -, rfl⟩ := Option.map_eq_some_iff.mp h
    rfl

/-- RSA operations apply to no other keys of known algorithms than RSA keys. -/
theorem PublicKey.eq_rsa_of_isSome {key : PublicKey} {a : KeyAlgorithm}
    (ha : key.algorithm? = some a) (h : key.rsa?.isSome) : a = .rsa := by
  cases key with
  | rsa n => exact (Option.some.inj ha).symm
  | rsaPss n => cases ha
  | other name => cases ha
  | dsa n => cases h
  | ec n => cases h

/-- A key serves for nothing that the call does not permit by which it was created. -/
theorem Call.Brings.permits {kind : TransformKind} (h : c.Brings P (.key k))
    (hk : k.Serves kind) : c.permits kind = true := by
  cases h with
  -- a public key serves for nothing that takes a private one
  | copied x key =>
    cases kind with
    | sign => cases hk.2
    | decrypt => cases hk.1
    | verify => rfl
    | encrypt => rfl
  | @key a b m hm halgorithm =>
    -- flags, class and algorithm are those the call asked for
    have hprivate := isPrivate_of_decodeKey hm
    cases kind with
    | sign =>
      have hsign : a.canSign = true := hk.1
      simp [Call.permits, ← hprivate, hsign, hk.2]
    | verify => exact hk
    | decrypt =>
      simp [Call.permits, ← hprivate, hk.1, PublicKey.eq_rsa_of_isSome halgorithm hk.2]
    | encrypt => simp [Call.permits, PublicKey.eq_rsa_of_isSome halgorithm hk]
  | output x ho =>
    obtain ⟨b, hb⟩ | ⟨v, hv⟩ := ho.data_or_boolean
    · cases hb
    · cases hv

namespace Service

/-- The registry after further calls. -/
def after (P : Provider) (r : Registry) (calls : List (Call × Entropy)) : Registry :=
  calls.foldl (fun r p => finalState (p.1.make P p.2 r)) r

theorem Issues.exists_after (h : Issues P r issued) (calls : List (Call × Entropy)) :
    ∃ more, Issues P (after P r calls) (issued ++ more) := by
  induction calls generalizing r issued with
  | nil => exact ⟨[], by rwa [List.append_nil]⟩
  | cons p rest ih =>
    obtain ⟨more, hmore⟩ := ih (h.call p.1 p.2)
    rw [List.append_assoc] at hmore
    exact ⟨_, hmore⟩

/-- An object without slots stays what it is as long as it is there. -/
theorem Issues.object_after {o' : NativeObject} (h : Issues P r issued)
    (calls : List (Call × Entropy)) (ho : r.object y = .ok o) (hnil : o.retained = [])
    (ho' : (after P r calls).object y = .ok o') : o' = o := by
  obtain ⟨more, hmore⟩ := h.exists_after calls
  have hmem := List.mem_append_left more (h.traced.mem_of_leaf ho hnil)
  -- the object of then and the one of now go back to one that was created
  obtain ⟨o₀, hmem', hremains⟩ := hmore.traced.object y o' ho'
  cases hmore.traced.eq_of_mem hmem hmem'
  cases hremains with
  | same => rfl
  | set => exact absurd hnil (List.cons_ne_nil _ _)

theorem exists_error_of_ne_ok {ε α : Type} {a : Except ε α} (h : ∀ b, a ≠ .ok b) :
    ∃ err, a = .error err := by
  cases a with
  | error err => exact ⟨err, rfl⟩
  | ok b => exact absurd rfl (h b)

/-- What puts something out names a key that serves for it. -/
theorem serves_of_execute (h : (capture r x >>= fun captured => captured.run P e) = .ok o) :
    ∃ t k, r.object x = .ok (.transform t) ∧ r.object t.key = .ok (.key k) ∧ k.Serves t.kind ∧
      t.kind.PutsOut o ∧
      (t.kind = .sign ∨ t.kind = .verify → IsSignaturePadding t.padding) := by
  obtain ⟨captured, hcapture, hrun⟩ := bind_eq_ok_iff.mp h
  obtain ⟨t, ht, hk, hkind, hpadding⟩ := object_of_capture hcapture
  obtain ⟨hputsOut, hserves, hallowed⟩ := Captured.allows_of_run hrun
  rw [hkind] at hputsOut hserves hallowed
  rw [hpadding] at hallowed
  exact ⟨t, captured.key, ht, hk, hserves, hputsOut, hallowed⟩

theorem isPrivate_of_newTransform {kind : TransformKind} {s : Option Ref}
    (h : newTransform r kind x s = .ok t) (hneeds : kind.needsPrivate = true) :
    ∃ k, r.object x = .ok (.key k) ∧ k.material.isPrivate = true := by
  obtain ⟨k, hk, h⟩ := bind_eq_ok_iff.mp h
  dsimp only at h
  split at h
  · cases h
  next hprivate => exact ⟨k, key_eq_ok_iff.mp hk, by simpa [hneeds] using hprivate⟩

theorem serves_of_keyDecrypt {n : Nat} {b b' : Bytes}
    (h : (r.key x >>= fun k => decryptWith P k .pkcs1 n b) = .ok b') :
    ∃ k, r.object x = .ok (.key k) ∧ k.Serves .decrypt := by
  obtain ⟨k, hk, hb'⟩ := bind_eq_ok_iff.mp h
  exact ⟨k, key_eq_ok_iff.mp hk, serves_of_decryptWith hb'⟩

/-- A transform for signatures puts nothing out under any other padding. -/
theorem execute_of_padding {p : RsaPadding} (ht : r.object x = .ok (.transform t))
    (hkind : t.kind = .sign ∨ t.kind = .verify) (hp : t.padding = some p) (hne : p ≠ .pkcs1) :
    ∃ err, Call.make P e (.transformExecute x) r = .ok (.error err) r := by
  refine exists_error_of_create (exists_error_of_ne_ok fun o ho => ?_)
  obtain ⟨t', k, ht', -, -, -, hpadding⟩ := serves_of_execute ho
  cases ht.symm.trans ht'
  rcases hpadding hkind with hnone | hpkcs1
  · cases hp.symm.trans hnone
  · exact hne (Option.some.inj (hp.symm.trans hpkcs1))

namespace Records

/-- A key that serves for something was created by a call that permits it. -/
theorem exists_permits {kind : TransformKind} (h : Records P r made)
    (hk : r.object x = .ok (.key k)) (hserves : k.Serves kind) :
    ∃ c, (x, c) ∈ made ∧ c.permits kind = true := by
  obtain ⟨c, hc, hbrings⟩ := h.exists_brings hk rfl
  exact ⟨c, hc, hbrings.permits hserves⟩

/-- What a transform puts out, the call that created its key permits. -/
theorem permits_of_execute (h : Records P r made)
    (hmake : Call.make P e (.transformExecute x) r = .ok (.ok (.ref y)) r') :
    ∃ kind z s c o, (x, .transformCreate kind z s) ∈ made ∧ (z, c) ∈ made ∧
      c.permits kind = true ∧ r'.object y = .ok o ∧ kind.PutsOut o := by
  obtain ⟨issued, hissues, -⟩ := h.exists_issues
  obtain ⟨o, ho, rfl, rfl⟩ := ref_of_create hmake
  -- the transform and its key are each traced to the call that made them
  obtain ⟨t, k, ht, hk, hserves, hputsOut, -⟩ := serves_of_execute ho
  obtain ⟨s, hs⟩ := h.exists_transformCreate ht
  obtain ⟨c, hc, hpermits⟩ := h.exists_permits hk hserves
  exact ⟨t.kind, t.key, s, c, o, hs, hc, hpermits,
    object_insert_last hissues.traced.loose.sound.ordered, hputsOut⟩

section Copied

variable {z : Ref} (h : Records P r made) (hx : (x, .certificateCopyPublicKey z) ∈ made)

include h hx

/-- Keys of certificates are public. -/
theorem not_isPrivate_of_copied (hk : r.object x = .ok (.key k)) :
    k.material.isPrivate ≠ true := by
  cases h.brings hx hk rfl with
  | copied => exact Bool.noConfusion

/-- Keys of certificates get no transform that needs a private key. -/
theorem transformCreate_of_copied {kind : TransformKind} (hneeds : kind.needsPrivate = true)
    (s : Option Ref) : ∃ err, Call.make P e (.transformCreate kind x s) r = .ok (.error err) r := by
  cases ht : newTransform r kind x s with
  | error err => exact ⟨err, reply_eq_ok (transformCreate_error ht)⟩
  | ok t =>
    obtain ⟨k, hk, hprivate⟩ := isPrivate_of_newTransform ht hneeds
    exact absurd hprivate (h.not_isPrivate_of_copied hx hk)

theorem keyDecrypt_of_copied (n : Nat) (b : Bytes) :
    ∃ err, Call.make P e (.keyDecrypt x n b) r = .ok (.error err) r := by
  refine exists_error_of_query (exists_error_of_ne_ok fun out hout => ?_)
  obtain ⟨k, hk, hserves⟩ := serves_of_keyDecrypt hout
  exact h.not_isPrivate_of_copied hx hk (hserves.isPrivate rfl)

/-- Even if there were such a transform, it would put nothing out. -/
theorem execute_of_copied (ht : r.object y = .ok (.transform t)) (hkey : t.key = x)
    (hneeds : t.kind.needsPrivate = true) :
    ∃ err, Call.make P e (.transformExecute y) r = .ok (.error err) r := by
  -- an output would have found the key to be private
  refine exists_error_of_create (exists_error_of_ne_ok fun o ho => ?_)
  obtain ⟨t', k, ht', hk, hserves, -⟩ := serves_of_execute ho
  cases ht.symm.trans ht'
  exact h.not_isPrivate_of_copied hx (hkey ▸ hk) (hserves.isPrivate hneeds)

end Copied

/-- The records of a history, after a call that ends in a known way. -/
theorem next {result : EStateM.Result Halt Registry (Except ServiceError Reply)}
    (h : Records P r made) (hmake : c.make P e r = result) :
    Records P (finalState result) (made ++ (issuedBy result).map fun p => (p.1, c)) :=
  hmake ▸ h.call c e

/-- **Over any history, keys are used only for what they were created for.**  Whatever a
transform puts out, the call that created its key permits: a signature or plaintext is a byte
string and takes a private key, created to sign or for RSA, and a verdict is a truth value and
takes a key that was created to verify or is of a certificate.  A single call decrypts with private
RSA keys only.  Keys of certificates get no transform that signs or decrypts, and neither by
one nor in a single call do they sign or decrypt.  Nothing signs or verifies with another
padding than that of PKCS #1.  No further calls change a key, its flags included. -/
theorem permits_only (h : Records P r made) :
    (made.map Prod.fst).Nodup ∧
    (∀ x e y r', Call.make P e (.transformExecute x) r = .ok (.ok (.ref y)) r' →
      ∃ kind z s c o, (x, .transformCreate kind z s) ∈ made ∧ (z, c) ∈ made ∧
        c.permits kind = true ∧ r'.object y = .ok o ∧ kind.PutsOut o) ∧
    (∀ x n b e reply r', Call.make P e (.keyDecrypt x n b) r = .ok (.ok reply) r' →
      ∃ c, (x, c) ∈ made ∧ c.permits .decrypt = true) ∧
    (∀ x z, (x, .certificateCopyPublicKey z) ∈ made →
      (∀ kind s e, kind.needsPrivate = true →
        ∃ err, Call.make P e (.transformCreate kind x s) r = .ok (.error err) r) ∧
      (∀ n b e, ∃ err, Call.make P e (.keyDecrypt x n b) r = .ok (.error err) r) ∧
      ∀ y t e, r.object y = .ok (.transform t) → t.key = x → t.kind.needsPrivate = true →
        ∃ err, Call.make P e (.transformExecute y) r = .ok (.error err) r) ∧
    (∀ x t e p, r.object x = .ok (.transform t) → t.kind = .sign ∨ t.kind = .verify →
      t.padding = some p → p ≠ .pkcs1 →
      ∃ err, Call.make P e (.transformExecute x) r = .ok (.error err) r) ∧
    ∀ calls x k o, r.object x = .ok (.key k) → (after P r calls).object x = .ok o →
      o = .key k := by
  obtain ⟨issued, hissues, -⟩ := h.exists_issues
  refine ⟨h.nodup, fun x e y r' hmake => h.permits_of_execute hmake,
    fun x n b e reply r' hmake => ?_,
    fun x z hx => ⟨fun kind s e hneeds => h.transformCreate_of_copied hx hneeds s,
      fun n b e => h.keyDecrypt_of_copied hx n b,
      fun y t e ht hkey hneeds => h.execute_of_copied hx ht hkey hneeds⟩,
    fun x t e p ht hkind hp hne => execute_of_padding ht hkind hp hne,
    fun calls x k o hk ho => hissues.object_after calls hk rfl ho⟩
  obtain ⟨b', hb'⟩ := ok_of_query hmake
  obtain ⟨k, hk, hserves⟩ := serves_of_keyDecrypt hb'
  exact h.exists_permits hk hserves

/-- A key that was created to verify, and a transform by which it does. -/
theorem permits_only_verifying : ∃ r made r', Records .standard r made ∧
    Call.make .standard (fun _ => 0) (.transformExecute 3) r = .ok (.ok (.ref 4)) r' ∧
    ∃ kind z s c o, (3, .transformCreate kind z s) ∈ made ∧ (z, c) ∈ made ∧
      c.permits kind = true ∧ r'.object 4 = .ok o ∧ kind.PutsOut o := by
  let e : Entropy := fun _ => 0
  let bare : Transform := { kind := .verify, key := 1, signature := some 2 }
  let full : Transform := { bare with input := some 2 }
  let held : Registry := ⟨3, [(1, ⟨sampleKey, 2⟩), (2, ⟨.data [7], 3⟩), (3, ⟨.transform full, 1⟩)]⟩
  have h₁ : Records .standard ⟨1, [(1, ⟨sampleKey, 1⟩)]⟩ [(1, createSample)] :=
    Records.start.next (make_createSample e)
  have h₂ : Records .standard ⟨2, [(1, ⟨sampleKey, 1⟩), (2, ⟨.data [7], 1⟩)]⟩
      [(1, createSample), (2, .dataCreate [7])] := h₁.call (.dataCreate [7]) e
  have h₃ : Records .standard
      ⟨3, [(1, ⟨sampleKey, 2⟩), (2, ⟨.data [7], 2⟩), (3, ⟨.transform bare, 1⟩)]⟩
      [(1, createSample), (2, .dataCreate [7]), (3, .transformCreate .verify 1 (some 2))] :=
    h₂.call (.transformCreate .verify 1 (some 2)) e
  have h₄ : Records .standard held
      [(1, createSample), (2, .dataCreate [7]), (3, .transformCreate .verify 1 (some 2))] :=
    h₃.next (c := .transformSet 3 (.input 2)) (e := e)
      (reply_eq_ok (transformSet_input (b := [7]) rfl rfl rfl))
  have hmake : Call.make .standard e (.transformExecute 3) held =
      .ok (.ok (.ref 4)) (held.insert (.boolean false)) := rfl
  exact ⟨held, _, _, h₄, hmake, h₄.permits_only.2.1 3 e 4 _ hmake⟩

end Records

end Service

end Keyring
