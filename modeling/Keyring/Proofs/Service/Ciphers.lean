import Keyring.Proofs.Service.Transforms
import Keyring.Provider.Standard

/-!
# Encrypting in a single call and in steps

RSA keys encrypt and decrypt in a single call, into a buffer of the caller's, or in steps: a
transform is created for the key, gets its input and is executed.  Its padding may be left unset or
be set to that of PKCS #1, before the input or after it.  Both ways end in the same operation of the
key; they differ in the buffer, which a transform makes itself, and in who finds out that the key
is not a private one.

## Main definitions

* `inSteps` — encrypting or decrypting in steps.
* `Prepared` — a transform under way whose padding is that of PKCS #1.
* `Agrees` — a single call that leaves the registry alone, and what the steps have to say.

## Main results

* `Prepared.setPaddings`, `Prepared.setInput`, `Prepared.execute` — the steps.
* `exists_inSteps` — what the steps give is what the key gives.
* `single_call_agrees` — **a single call and the steps agree**, in the bytes and in the codes.
-/

namespace Keyring.Service

open Registry

variable {α β : Type} {P : Provider} {r s : Registry} {kind : TransformKind} {x t d : Ref}
  {k : KeyObject} {b : Bytes} {e : Entropy}

/-! ### Steps -/

/-- Calls of the service one after the other: the first failure ends them. -/
abbrev Steps := ExceptT ServiceError (EStateM Halt Registry)

/-- A call as a step. -/
def step (call : Service α) : Steps α := ExceptT.mk call

theorem run_step {call : Service α} {a : Except ServiceError α} {r' : Registry}
    (h : call r = .ok a r') : (step call).run r = .ok a r' := h

theorem Steps.run_bind_ok {first : Steps α} {f : α → Steps β} {a : α} {r' : Registry}
    (h : first.run r = .ok (.ok a) r') : (first >>= f).run r = (f a).run r' := by
  show EStateM.bind first.run _ r = _
  rw [EStateM.bind, h]
  rfl

theorem Steps.run_bind_error {first : Steps α} {f : α → Steps β} {err : ServiceError}
    {r' : Registry} (h : first.run r = .ok (.error err) r') :
    (first >>= f).run r = .ok (.error err) r' := by
  show EStateM.bind first.run _ r = _
  rw [EStateM.bind, h]
  rfl

/-- Makes settings one after the other. -/
def setEach (t : Ref) : List Attribute → Steps Unit
  | [] => pure ()
  | a :: rest => do
    step (transformSet t a)
    setEach t rest

/-- Encrypts or decrypts in steps.  The padding is set `i` times before the input and `j` times
after it. -/
def inSteps (P : Provider) (kind : TransformKind) (x : Ref) (i j : Nat) (input : Bytes)
    (e : Entropy) : Steps Bytes := do
  let t ← step (transformCreate kind x none)
  let d ← step (dataCreate input)
  setEach t (List.replicate i (.padding .pkcs1))
  step (transformSet t (.input d))
  setEach t (List.replicate j (.padding .pkcs1))
  let out ← step (transformExecute P t e)
  step (dataBytes out)

/-! ### A transform under way -/

/-- A transform is for a key, there is a byte string for it, and its padding is that of PKCS #1, if
it is set. -/
structure Prepared (s : Registry) (t : Ref) (kind : TransformKind) (k : KeyObject) (d : Ref)
    (b : Bytes) (u : Transform) : Prop where
  ordered : s.Ordered
  transform : s.object t = .ok (.transform u)
  kind_eq : u.kind = kind
  key : s.object u.key = .ok (.key k)
  padding : u.padding.getD .pkcs1 = .pkcs1
  data : s.object d = .ok (.data b)

namespace Prepared

variable {u : Transform}

/-- Another transform takes the place of the one under way. -/
theorem replace {v : Transform} (h : Prepared s t kind k d b u) (hkind : v.kind = u.kind)
    (hkey : v.key = u.key) (hpadding : v.padding.getD .pkcs1 = .pkcs1) :
    Prepared (s.replace t (.transform v)) t kind k d b v := by
  obtain ⟨entry, hentry, -⟩ := object_eq_ok_iff.mp h.transform
  -- neither the key nor the byte string is the transform
  have hne : v.key ≠ t := by
    intro heq
    have hobject := h.key
    rw [← hkey, heq, h.transform] at hobject
    cases hobject
  have hne' : d ≠ t := by
    intro heq
    have hobject := h.data
    rw [heq, h.transform] at hobject
    cases hobject
  exact ⟨h.ordered.replace _ _, object_replace_self hentry, hkind.trans h.kind_eq,
    by rw [object_replace_of_ne hne, hkey, h.key], hpadding,
    by rw [object_replace_of_ne hne', h.data]⟩

/-- The padding is set any number of times. -/
theorem setPaddings {n : Nat} (h : Prepared s t kind k d b u)
    (hrsa : n ≠ 0 → k.material.algorithm? = some .rsa) :
    ∃ s' u', (setEach t (List.replicate n (.padding .pkcs1))).run s = .ok (.ok ()) s' ∧
      Prepared s' t kind k d b u' ∧ u'.input = u.input := by
  induction n generalizing s u with
  | zero => exact ⟨s, u, rfl, h, rfl⟩
  | succ n ih =>
    have hset := transformSet_padding (p := .pkcs1) h.transform h.key (hrsa (Nat.succ_ne_zero n))
    have hnext := h.replace (v := { u with padding := some .pkcs1 }) rfl rfl rfl
    obtain ⟨s', u', hrest, h', hinput⟩ := ih hnext fun _ => hrsa (Nat.succ_ne_zero n)
    exact ⟨s', u', (Steps.run_bind_ok (run_step hset)).trans hrest, h', hinput⟩

/-- The byte string becomes the input. -/
theorem setInput (h : Prepared s t kind k d b u) (hnone : u.input = none) :
    ∃ s' u', transformSet t (.input d) s = .ok (.ok ()) s' ∧ Prepared s' t kind k d b u' ∧
      u'.input = some d := by
  have hset := transformSet_input h.transform h.data hnone
  have hretained : Prepared (s.retain d) t kind k d b u :=
    ⟨h.ordered.retain d, by rw [object_retain, h.transform], h.kind_eq,
      by rw [object_retain, h.key], h.padding, by rw [object_retain, h.data]⟩
  exact ⟨_, _, hset, hretained.replace rfl rfl h.padding, rfl⟩

/-- What is executed is what the key does with the byte string. -/
theorem execute {result : Except ServiceError Bytes} (h : Prepared s t kind k d b u)
    (hinput : u.input = some d) (hkind : kind = .encrypt ∨ kind = .decrypt)
    (hrun : ∀ padding, padding.getD .pkcs1 = .pkcs1 →
      Captured.run P ⟨kind, k, padding, none, b, none⟩ e = result.map .data) :
    ∃ s', (do
      let out ← step (transformExecute P t e)
      step (dataBytes out) : Steps Bytes).run s = .ok result s' := by
  have hcapture := capture_eq h.transform h.key hinput h.data (h.kind_eq.symm ▸ hkind)
  have hmake : (do (← capture s t).run P e) = result.map NativeObject.data := by
    rw [hcapture, ok_bind, h.kind_eq, hrun _ h.padding]
  cases result with
  | error err =>
    have hexecute : transformExecute P t e s = .ok (.error err) s := create_error hmake
    exact ⟨s, Steps.run_bind_error (run_step hexecute)⟩
  | ok out =>
    have hexecute : transformExecute P t e s = .ok (.ok (s.last + 1)) (s.insert (.data out)) :=
      create_ok hmake
    have hread : dataBytes (s.last + 1) (s.insert (.data out)) =
        .ok (.ok out) (s.insert (.data out)) := by
      rw [dataBytes, query, data_eq_ok_iff.mpr (object_insert_last h.ordered)]
    exact ⟨_, (Steps.run_bind_ok (run_step hexecute)).trans (run_step hread)⟩

end Prepared

/-- What the steps give is what the key gives. -/
theorem exists_inSteps {i j : Nat} {result : Except ServiceError Bytes} (hr : r.Ordered)
    (hx : r.object x = .ok (.key k)) (hkind : kind = .encrypt ∨ kind = .decrypt)
    (hprivate : kind.needsPrivate = true → k.material.isPrivate = true)
    (hrsa : i + j ≠ 0 → k.material.algorithm? = some .rsa)
    (hrun : ∀ padding, padding.getD .pkcs1 = .pkcs1 →
      Captured.run P ⟨kind, k, padding, none, b, none⟩ e = result.map .data) :
    ∃ r', (inSteps P kind x i j b e).run r = .ok result r' := by
  have hverify : kind ≠ .verify := by rcases hkind with rfl | rfl <;> decide
  have hcreate := transformCreate_eq hx hverify hprivate
  have hheld : (r.retain x).Ordered := hr.retain x
  have hx' : (r.retain x).object x = .ok (.key k) := by rw [object_retain, hx]
  have hdata : dataCreate b _ = .ok _ _ := create_ok (r := (r.retain x).insert
    (.transform { kind, key := x, signature := none })) rfl
  have h₀ : Prepared _ (r.last + 1) kind k (r.last + 2) b { kind, key := x, signature := none } := {
    ordered := (hheld.insert _).insert (.data b)
    transform := object_insert_of_ok (hheld.insert _) (object_insert_last hheld)
    kind_eq := rfl
    key := object_insert_of_ok (hheld.insert _) (object_insert_of_ok hheld hx')
    padding := rfl
    data := object_insert_last (hheld.insert _) }
  obtain ⟨s₁, u₁, hbefore, h₁, hnone⟩ := h₀.setPaddings (n := i) fun hi => hrsa (by omega)
  obtain ⟨s₂, u₂, hinput, h₂, hsome⟩ := h₁.setInput hnone
  obtain ⟨s₃, u₃, hafter, h₃, hsame⟩ := h₂.setPaddings (n := j) fun hj => hrsa (by omega)
  obtain ⟨s₄, hexecute⟩ := h₃.execute (hsame.trans hsome) hkind hrun
  refine ⟨s₄, ?_⟩
  calc (inSteps P kind x i j b e).run r
    _ = _ := Steps.run_bind_ok (run_step hcreate)
    _ = _ := Steps.run_bind_ok (run_step hdata)
    _ = _ := Steps.run_bind_ok hbefore
    _ = _ := Steps.run_bind_ok (run_step hinput)
    _ = _ := Steps.run_bind_ok hafter
    _ = .ok result s₄ := hexecute

/-! ### What the key gives -/

section Key

variable {capacity : Nat}

theorem exists_ofPrivate {m : KeyMaterial} (h : m.isPrivate = true) :
    ∃ key, m = .ofPrivate key := by
  cases m with
  | ofPublic key => cases h
  | ofPrivate key => exact ⟨key, rfl⟩

theorem performed_code_ne {x : Option α} {err : ServiceError} (h : performed x = .error err) :
    err.code ≠ ServiceError.smallBuffer := by
  cases x <;> cases h
  decide

/-- Encrypting with padding of PKCS #1: the buffer has to take the modulus. -/
theorem encryptWith_pkcs1 {rsa : Rsa.PublicKey} (hrsa : k.material.publicKey.rsa? = some rsa) :
    encryptWith P k .pkcs1 capacity e b =
      if capacity < outputSize k then .error .bufferTooSmall
      else performed (P.rsaEncrypt rsa .pkcs1 e b) := by
  rw [encryptWith, outputSize, hrsa, asRsa, ok_bind, Option.elim_some]
  split <;> rfl

theorem encryptWith_none (hrsa : k.material.publicKey.rsa? = none) :
    encryptWith P k .pkcs1 capacity e b = .error .notRsaKey := by
  rw [encryptWith, hrsa]
  rfl

/-- Decrypting with padding of PKCS #1: the buffer has to take the modulus. -/
theorem decryptWith_pkcs1 {key : PrivateKey} {rsa : Rsa.PrivateKey}
    (hkey : k.material = .ofPrivate key) (hrsa : key.rsa? = some rsa) :
    decryptWith P k .pkcs1 capacity b =
      if capacity < outputSize k then .error .bufferTooSmall
      else performed (P.rsaDecrypt rsa .pkcs1 b) := by
  have hsize : outputSize k = rsa.publicKey.byteSize := by
    rw [outputSize, hkey]
    cases key <;> cases hrsa <;> rfl
  rw [decryptWith, hkey, hsize]
  simp only [hrsa, asRsa, ok_bind]
  split <;> rfl

theorem decryptWith_none {key : PrivateKey} (hkey : k.material = .ofPrivate key)
    (hrsa : key.rsa? = none) : decryptWith P k .pkcs1 capacity b = .error .notRsaKey := by
  rw [decryptWith, hkey]
  simp only [hrsa, asRsa]
  rfl

/-- A buffer that takes the modulus is as good as one of its size. -/
theorem encryptWith_capacity (h : outputSize k ≤ capacity) :
    encryptWith P k .pkcs1 capacity e b = encryptWith P k .pkcs1 (outputSize k) e b := by
  cases hrsa : k.material.publicKey.rsa? with
  | none => rw [encryptWith_none hrsa, encryptWith_none hrsa]
  | some rsa =>
    rw [encryptWith_pkcs1 hrsa, encryptWith_pkcs1 hrsa, if_neg (Nat.not_lt.mpr h),
      if_neg (Nat.lt_irrefl _)]

theorem decryptWith_capacity (hprivate : k.material.isPrivate = true)
    (h : outputSize k ≤ capacity) :
    decryptWith P k .pkcs1 capacity b = decryptWith P k .pkcs1 (outputSize k) b := by
  obtain ⟨key, hkey⟩ := exists_ofPrivate hprivate
  cases hrsa : key.rsa? with
  | none => rw [decryptWith_none hkey hrsa, decryptWith_none hkey hrsa]
  | some rsa =>
    rw [decryptWith_pkcs1 hkey hrsa, decryptWith_pkcs1 hkey hrsa, if_neg (Nat.not_lt.mpr h),
      if_neg (Nat.lt_irrefl _)]

end Key

/-! ### Both ways -/

/-- A single call leaves the registry as it is.  It gives what the steps give, or both fail, with
the same code. -/
def Agrees (single : Service Bytes) (steps : Steps Bytes) (r : Registry) : Prop :=
  ∃ result result' r', single r = .ok result r ∧ steps.run r = .ok result' r' ∧
    result.mapError ServiceError.code = result'.mapError ServiceError.code

/-- A call fails for want of a larger buffer. -/
def LacksBuffer (call : Service Bytes) (r : Registry) : Prop :=
  ∃ err r', call r = .ok (.error err) r' ∧ err.code = ServiceError.smallBuffer

theorem keyEncrypt_run (hx : r.key x = .ok k) (capacity : Nat) :
    keyEncrypt P x capacity e b r = .ok (encryptWith P k .pkcs1 capacity e b) r := by
  rw [keyEncrypt, query, hx, ok_bind]

theorem keyDecrypt_run (hx : r.key x = .ok k) (capacity : Nat) :
    keyDecrypt P x capacity b r = .ok (decryptWith P k .pkcs1 capacity b) r := by
  rw [keyDecrypt, query, hx, ok_bind]

theorem exists_inSteps_encrypt {i j : Nat} (hr : r.Ordered) (hx : r.key x = .ok k)
    (hrsa : i + j ≠ 0 → k.material.algorithm? = some .rsa) :
    ∃ r', (inSteps P .encrypt x i j b e).run r =
      .ok (encryptWith P k .pkcs1 (outputSize k) e b) r' := by
  refine exists_inSteps hr (key_eq_ok_iff.mp hx) (.inl rfl) nofun hrsa fun padding h => ?_
  simp only [Captured.run, h]

theorem exists_inSteps_decrypt {i j : Nat} (hr : r.Ordered) (hx : r.key x = .ok k)
    (hprivate : k.material.isPrivate = true)
    (hrsa : i + j ≠ 0 → k.material.algorithm? = some .rsa) :
    ∃ r', (inSteps P .decrypt x i j b e).run r =
      .ok (decryptWith P k .pkcs1 (outputSize k) b) r' := by
  refine exists_inSteps hr (key_eq_ok_iff.mp hx) (.inr rfl) (fun _ => hprivate) hrsa
    fun padding h => ?_
  simp only [Captured.run, h]

theorem transformCreate_decrypt_public (hx : r.key x = .ok k)
    (hpublic : k.material.isPrivate = false) :
    transformCreate .decrypt x none r = .ok (.error .transformNeedsPrivateKey) r := by
  apply transformCreate_error
  rw [newTransform, hx, ok_bind, hpublic]
  rfl

theorem agrees_encrypt {i j capacity : Nat} (hr : r.Ordered) (hx : r.key x = .ok k)
    (hrsa : i + j ≠ 0 → k.material.algorithm? = some .rsa) (hcapacity : outputSize k ≤ capacity) :
    Agrees (keyEncrypt P x capacity e b) (inSteps P .encrypt x i j b e) r := by
  obtain ⟨r', hsteps⟩ := exists_inSteps_encrypt (P := P) (e := e) (b := b) hr hx hrsa
  exact ⟨_, _, r', keyEncrypt_run hx capacity, hsteps, by rw [encryptWith_capacity hcapacity]⟩

theorem agrees_decrypt {i j capacity : Nat} (hr : r.Ordered) (hx : r.key x = .ok k)
    (hrsa : i + j ≠ 0 → k.material.algorithm? = some .rsa) (hcapacity : outputSize k ≤ capacity) :
    Agrees (keyDecrypt P x capacity b) (inSteps P .decrypt x i j b e) r := by
  cases hprivate : k.material.isPrivate with
  | true =>
    obtain ⟨r', hsteps⟩ := exists_inSteps_decrypt (P := P) (e := e) (b := b) hr hx hprivate hrsa
    exact ⟨_, _, r', keyDecrypt_run hx capacity, hsteps,
      by rw [decryptWith_capacity hprivate hcapacity]⟩
  | false =>
    -- the steps do not get beyond the first one
    have hsteps : (inSteps P .decrypt x i j b e).run r =
        .ok (.error .transformNeedsPrivateKey) r :=
      Steps.run_bind_error (run_step (transformCreate_decrypt_public hx hprivate))
    refine ⟨_, _, r, keyDecrypt_run hx capacity, hsteps, ?_⟩
    cases hkey : k.material with
    | ofPrivate key =>
      rw [hkey] at hprivate
      cases hprivate
    | ofPublic key =>
      rw [decryptWith, hkey]
      rfl

theorem lacksBuffer_iff {call : Service Bytes} {r' : Registry} {capacity size : Nat}
    {out : Option Bytes}
    (hrun : call r = .ok (if capacity < size then .error .bufferTooSmall else performed out) r') :
    LacksBuffer call r ↔ capacity < size := by
  constructor
  · rintro ⟨err, r₁, herr, hcode⟩
    by_contra hle
    rw [hrun, if_neg hle] at herr
    exact performed_code_ne (EStateM.Result.ok.inj herr).1 hcode
  · intro hlt
    rw [if_pos hlt] at hrun
    exact ⟨_, r', hrun, rfl⟩

/-- An RSA key has the numbers of one. -/
theorem exists_rsa_of_algorithm (hrsa : k.material.algorithm? = some .rsa) :
    (∃ rsa, k.material.publicKey.rsa? = some rsa) ∧
      ∀ key, k.material = .ofPrivate key → ∃ rsa, key.rsa? = some rsa := by
  rw [KeyMaterial.algorithm?] at hrsa
  constructor
  · cases hkey : k.material.publicKey with
    | rsa key => exact ⟨key, rfl⟩
    | _ => rw [hkey] at hrsa; cases hrsa
  · rintro key hkey
    rw [hkey, KeyMaterial.publicKey] at hrsa
    cases key with
    | rsa key => exact ⟨key, rfl⟩
    | _ => cases hrsa

/-- **A single call and the steps agree.**  With padding of PKCS #1, which the steps may leave
unset, and a buffer that takes the modulus, single call and steps give the same bytes or fail with
the same code, for a key of any class; the padding can be set for RSA keys only.  To decrypt with a
public key fails at the first step.  With an RSA key of the right class the single call lacks room
exactly if the buffer does not take the modulus, and the steps never do.  A single call never
changes the registry. -/
theorem single_call_agrees (P : Provider) (hr : r.Ordered) (hx : r.key x = .ok k) (b : Bytes)
    (e : Entropy) :
    (∀ i j capacity, (i + j ≠ 0 → k.material.algorithm? = some .rsa) → outputSize k ≤ capacity →
      Agrees (keyEncrypt P x capacity e b) (inSteps P .encrypt x i j b e) r ∧
      Agrees (keyDecrypt P x capacity b) (inSteps P .decrypt x i j b e) r) ∧
    (k.material.isPrivate = false →
      transformCreate .decrypt x none r = .ok (.error .transformNeedsPrivateKey) r) ∧
    (k.material.algorithm? = some .rsa → ∀ capacity i j,
      (LacksBuffer (keyEncrypt P x capacity e b) r ↔ capacity < outputSize k) ∧
      ¬LacksBuffer (inSteps P .encrypt x i j b e).run r ∧
      (k.material.isPrivate = true →
        (LacksBuffer (keyDecrypt P x capacity b) r ↔ capacity < outputSize k) ∧
        ¬LacksBuffer (inSteps P .decrypt x i j b e).run r)) ∧
    ∀ y capacity, (∃ result, keyEncrypt P y capacity e b r = .ok result r) ∧
      ∃ result, keyDecrypt P y capacity b r = .ok result r := by
  refine ⟨fun i j capacity hrsa hcapacity => ?_, transformCreate_decrypt_public hx,
    fun hrsa capacity i j => ?_, fun y capacity => ⟨⟨_, rfl⟩, ⟨_, rfl⟩⟩⟩
  · exact ⟨agrees_encrypt hr hx hrsa hcapacity, agrees_decrypt hr hx hrsa hcapacity⟩
  obtain ⟨⟨rsa, hnumbers⟩, hprivateNumbers⟩ := exists_rsa_of_algorithm hrsa
  refine ⟨lacksBuffer_iff (by rw [keyEncrypt_run hx, encryptWith_pkcs1 hnumbers]), fun hlacks => ?_,
    fun hprivate => ?_⟩
  · obtain ⟨r', hsteps⟩ := exists_inSteps_encrypt (P := P) (b := b) (e := e) (i := i) (j := j) hr hx
      fun _ => hrsa
    rw [encryptWith_pkcs1 hnumbers] at hsteps
    exact Nat.lt_irrefl _ ((lacksBuffer_iff hsteps).mp hlacks)
  obtain ⟨key, hkey⟩ := exists_ofPrivate hprivate
  obtain ⟨rsa', hnumbers'⟩ := hprivateNumbers key hkey
  refine ⟨lacksBuffer_iff (by rw [keyDecrypt_run hx, decryptWith_pkcs1 hkey hnumbers']),
    fun hlacks => ?_⟩
  obtain ⟨r', hsteps⟩ := exists_inSteps_decrypt (P := P) (b := b) (e := e) (i := i) (j := j) hr hx
    hprivate fun _ => hrsa
  rw [decryptWith_pkcs1 hkey hnumbers'] at hsteps
  exact Nat.lt_irrefl _ ((lacksBuffer_iff hsteps).mp hlacks)

/-- A private RSA key of twelve bytes, from two Mersenne primes. -/
def cipherKey : KeyObject where
  material := .ofPrivate <| .rsa {
    version := 0
    modulus := (2 ^ 61 - 1) * (2 ^ 31 - 1)
    exponent := 65537
    privateExponent := 4181459486416926817284415673
    p := 2 ^ 61 - 1
    q := 2 ^ 31 - 1
    dp := 1690970304802162823
    dq := 1431677609
    qInverse := 2 ^ 31 + 1
    others := none }
  canSign := true
  canVerify := true

/-- Its buffers have twelve bytes at least. -/
theorem single_call_agrees_cipherKey :
    Agrees (keyEncrypt .standard 1 12 (fun _ => 1) [7])
      (inSteps .standard .encrypt 1 0 1 [7] fun _ => 1) (Registry.insert {} (.key cipherKey)) ∧
    LacksBuffer (keyDecrypt .standard 1 11 [7]) (Registry.insert {} (.key cipherKey)) ∧
    ¬LacksBuffer (keyDecrypt .standard 1 12 [7]) (Registry.insert {} (.key cipherKey)) := by
  have hsize : outputSize cipherKey = 12 := by decide
  obtain ⟨hagrees, -, hbuffer, -⟩ :=
    single_call_agrees .standard (Ordered.empty.insert (.key cipherKey)) (x := 1) rfl [7]
      fun _ => 1
  obtain ⟨-, -, hdecrypt⟩ := hbuffer rfl 11 0 1
  obtain ⟨-, -, hdecrypt'⟩ := hbuffer rfl 12 0 1
  refine ⟨(hagrees 0 1 12 (fun _ => rfl) (Nat.le_of_eq hsize)).1, ?_, fun hlacks => ?_⟩
  · exact (hdecrypt rfl).1.mpr (by rw [hsize]; decide)
  · exact absurd ((hdecrypt' rfl).1.mp hlacks) (by rw [hsize]; decide)

end Keyring.Service
