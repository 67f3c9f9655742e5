import Keyring.Service.Call
import Keyring.Session.Scope
import Mathlib.Data.List.Nodup

/-!
# The calls that operations make

An operation that is put together from calls gives back what it has created, whatever the service
is and however it answers.  To see this the calls are recorded: an operation makes calls until one
fails or the output is read, and then gives the objects back that it has created by then, the last
one first.  So an operation that has failed on the way leaves nothing behind either, and no object
is used any more once it was given back.

## Main definitions

* `Exchange` — a call with its answer; `created`, `released` — what is created and given back.
* `StagedService.recorded` — a service that keeps a journal of what is called.
* `Concludes` — how the calls of an operation go with its result.
* `Tidy` — the journal of an operation that cleans up.

## Main results

* `Scope.Recorded.bind`, `Scope.recorded_ask`, `Scope.recorded_create` — the steps of an operation.
* `Scope.Recorded.exists_close` — its end.
* `staged_cleansUp` — **operations clean up, for every service.**
-/

namespace Keyring

/-! ### Calls with their answers -/

/-- A call of a service and what it has answered. -/
structure Exchange where
  call : Call
  answer : Except ServiceError Reply

/-- The objects that an attribute refers to. -/
def Attribute.names : Attribute → List Ref
  | digestLength n => [n]
  | input d => [d]
  | digestType _ | padding _ => []

/-- The objects that a call uses. -/
def Call.names : Call → List Ref
  | certificateCreate _ | keyCreate _ _ | dataCreate _ | numberCreate _ => []
  | certificateCopyPublicKey x | keyEncrypt x _ _ | keyDecrypt x _ _ | transformExecute x
  | dataBytes x | booleanValue x | release x => [x]
  | transformCreate _ key signature => key :: signature.toList
  | transformSet t a => t :: a.names

namespace Exchange

/-- The object that a call has created. -/
def created? : Exchange → Option Ref
  | ⟨_, .ok (.ref x)⟩ => some x
  | _ => none

/-- The object that is given back. -/
def released? : Exchange → Option Ref
  | ⟨.release x, _⟩ => some x
  | _ => none

/-- A call has succeeded. -/
def Succeeded (ev : Exchange) : Prop := ∃ reply, ev.answer = .ok reply

/-- An object is given back. -/
def ofRelease (x : Ref) : Exchange := ⟨.release x, .ok .done⟩

end Exchange

/-- The objects that are created in a journal, in order. -/
def created (log : List Exchange) : List Ref := log.filterMap Exchange.created?

/-- The objects that are given back in a journal, in order. -/
def released (log : List Exchange) : List Ref := log.filterMap Exchange.released?

@[simp] theorem created_append (l l' : List Exchange) :
    created (l ++ l') = created l ++ created l' := List.filterMap_append

@[simp] theorem released_append (l l' : List Exchange) :
    released (l ++ l') = released l ++ released l' := List.filterMap_append

@[simp] theorem created_map_ofRelease (l : List Ref) : created (l.map .ofRelease) = [] := by
  simp [created, Exchange.ofRelease, Exchange.created?]

@[simp] theorem released_map_ofRelease (l : List Ref) : released (l.map .ofRelease) = l := by
  have hcomp : Exchange.released? ∘ Exchange.ofRelease = some := rfl
  rw [released, List.filterMap_map, hcomp, List.filterMap_some]

@[simp] theorem created_singleton (ev : Exchange) : created [ev] = ev.created?.toList := by
  cases h : ev.created? <;> simp [created, h]

@[simp] theorem released_singleton (ev : Exchange) : released [ev] = ev.released?.toList := by
  cases h : ev.released? <;> simp [released, h]

/-! ### Recording -/

section Record

variable {σ α : Type}

/-- A call that is recorded. -/
def record (call : Call) (reply : α → Reply) (x : StateM σ (Except ServiceError α)) :
    StateM (σ × List Exchange) (Except ServiceError α) := fun (s, log) =>
  ((x.run s).1, (x.run s).2, log ++ [⟨call, (x.run s).1.map reply⟩])

theorem run_record {call : Call} {reply : α → Reply} {x : StateM σ (Except ServiceError α)}
    {answer : Except ServiceError α} {s s' : σ} {log : List Exchange} (h : x.run s = (answer, s')) :
    (record call reply x).run (s, log) = (answer, s', log ++ [⟨call, answer.map reply⟩]) := by
  show ((x.run s).1, (x.run s).2, log ++ [⟨call, (x.run s).1.map reply⟩]) = _
  rw [h]

/-- The same service with a journal of what is called. -/
def StagedService.recorded (S : StagedService (StateM σ)) :
    StagedService (StateM (σ × List Exchange)) where
  dataCreate b := record (.dataCreate b) .ref (S.dataCreate b)
  numberCreate v := record (.numberCreate v) .ref (S.numberCreate v)
  transformCreate kind key signature :=
    record (.transformCreate kind key signature) .ref (S.transformCreate kind key signature)
  transformSet t a := record (.transformSet t a) (fun _ => .done) (S.transformSet t a)
  transformExecute t e := record (.transformExecute t) .ref (S.transformExecute t e)
  dataBytes x := record (.dataBytes x) .bytes (S.dataBytes x)
  booleanValue x := record (.booleanValue x) .boolean (S.booleanValue x)
  release x := fun (s, log) => ((), ((S.release x).run s).2, log ++ [.ofRelease x])

/-- How the calls of an operation go with its result: either all have succeeded and the result is
something that the calls account for, or the last one has failed and the result is its error. -/
inductive Concludes (Q : α → List Exchange → Prop) :
    List Exchange → Except CryptoError α → Prop where
  | done {a : α} {calls : List Exchange} :
    (∀ ev ∈ calls, ev.Succeeded) → Q a calls → Concludes Q calls (.ok a)
  | failed {calls : List Exchange} {call : Call} {err : ServiceError} :
    (∀ ev ∈ calls, ev.Succeeded) →
      Concludes Q (calls ++ [⟨call, .error err⟩]) (.error (.service err))

/-- A single call succeeds, or it fails. -/
theorem Concludes.single {Q : α → List Exchange → Prop} {call : Call} {reply : α → Reply}
    {answer : Except ServiceError α} (hQ : ∀ a, Q a [⟨call, .ok (reply a)⟩]) :
    Concludes Q [⟨call, answer.map reply⟩] (answer.mapError .service) := by
  cases answer with
  | ok a => exact .done (List.forall_mem_singleton.mpr ⟨reply a, rfl⟩) (hQ a)
  | error err =>
    rw [← List.nil_append [_]]
    exact .failed nofun

/-- What was done before goes before. -/
theorem Concludes.append {Q Q' : α → List Exchange → Prop} {before calls : List Exchange}
    {result : Except CryptoError α} (hbefore : ∀ ev ∈ before, ev.Succeeded)
    (h : Concludes Q calls result) (hQ : ∀ a, Q a calls → Q' a (before ++ calls)) :
    Concludes Q' (before ++ calls) result := by
  cases h with
  | done hall ha => exact .done (List.forall_mem_append.mpr ⟨hbefore, hall⟩) (hQ _ ha)
  | failed hall =>
    rw [← List.append_assoc]
    exact .failed (List.forall_mem_append.mpr ⟨hbefore, hall⟩)

theorem Concludes.mono {Q Q' : α → List Exchange → Prop} {calls : List Exchange}
    {result : Except CryptoError α} (h : Concludes Q calls result)
    (hQ : ∀ a, Q a calls → Q' a calls) : Concludes Q' calls result := by
  cases h with
  | done hall ha => exact .done hall (hQ _ ha)
  | failed hall => exact .failed hall

/-! ### Steps of an operation -/

namespace Scope

section Steps

variable {τ β : Type} {x : Scope (StateM τ) α} {f : α → Scope (StateM τ) β} {c c' : List Ref}
  {t t' : τ}

theorem run_bind_ok {a : α} (h : x.run.run c t = ((.ok a, c'), t')) :
    (x >>= f).run.run c t = (f a).run.run c' t' := by
  have hrun : (x.run.run c).run t = ((.ok a, c'), t') := h
  show ((x >>= f).run.run c).run t = ((f a).run.run c').run t'
  rw [ExceptT.run_bind, StateT.run_bind, StateT.run_bind, hrun]
  rfl

theorem run_bind_error {err : CryptoError} (h : x.run.run c t = ((.error err, c'), t')) :
    (x >>= f).run.run c t = ((.error err, c'), t') := by
  have hrun : (x.run.run c).run t = ((.error err, c'), t') := h
  show ((x >>= f).run.run c).run t = _
  rw [ExceptT.run_bind, StateT.run_bind, StateT.run_bind, hrun]
  rfl

theorem run_ask {z : StateM τ (Except ServiceError α)} {answer : Except ServiceError α}
    (h : z.run t = (answer, t')) : (ask z).run.run c t = ((answer.mapError .service, c), t') := by
  have hlift : ((liftM (liftM z : StateT (List Ref) (StateM τ) (Except ServiceError α)) :
      Scope (StateM τ) (Except ServiceError α)).run.run c) t = ((.ok answer, c), t') := by
    show ((Except.ok (z.run t).1, c), (z.run t).2) = _
    rw [h]
  exact (run_bind_ok hlift).trans (by cases answer <;> rfl)

/-- What a call creates is noted. -/
theorem run_create {call : Call} {z : StateM τ (Except ServiceError Ref)}
    {answer : Except ServiceError Ref} (h : z.run t = (answer, t')) :
    (create z).run.run c t =
      ((answer.mapError .service, (created [⟨call, answer.map .ref⟩]).reverse ++ c), t') := by
  cases answer with
  | ok y => exact run_bind_ok (run_ask h)
  | error err => exact run_bind_error (run_ask h)

end Steps

variable {β : Type} {x : Scope (StateM (σ × List Exchange)) α} {y : Scope (StateM σ) α}
  {Q : α → List Exchange → Prop}

/-- Part of an operation is recorded: `x` does what `y` does and enters its calls in the journal.
It gives nothing back, notes what it creates, and ends as its calls say. -/
def Recorded (x : Scope (StateM (σ × List Exchange)) α) (y : Scope (StateM σ) α)
    (Q : α → List Exchange → Prop) : Prop :=
  ∀ c s log, ∃ result s' calls,
    y.run.run c s = ((result, (created calls).reverse ++ c), s') ∧
    x.run.run c (s, log) = ((result, (created calls).reverse ++ c), (s', log ++ calls)) ∧
    released calls = [] ∧ Concludes Q calls result

theorem Recorded.mono {Q' : α → List Exchange → Prop} (h : Recorded x y Q)
    (hQ : ∀ a calls, Q a calls → Q' a calls) : Recorded x y Q' := by
  intro c s log
  obtain ⟨result, s', calls, hy, hx, hreleased, hconcludes⟩ := h c s log
  exact ⟨result, s', calls, hy, hx, hreleased, hconcludes.mono fun a => hQ a calls⟩

theorem recorded_pure (a : α) : Recorded (σ := σ) (pure a) (pure a) fun _ _ => True := by
  intro c s log
  refine ⟨.ok a, s, [], rfl, ?_, rfl, .done nofun trivial⟩
  rw [List.append_nil]
  rfl

/-- A call that answers without an object. -/
theorem recorded_ask {call : Call} {reply : α → Reply} (z : StateM σ (Except ServiceError α))
    (hreply : ∀ a, Exchange.created? ⟨call, .ok (reply a)⟩ = none)
    (hcall : ∀ answer, Exchange.released? ⟨call, answer⟩ = none) :
    Recorded (ask (record call reply z)) (ask z) fun a calls =>
      calls = [⟨call, .ok (reply a)⟩] := by
  intro c s log
  obtain ⟨answer, s', hz⟩ : ∃ answer s', z.run s = (answer, s') := ⟨_, _, rfl⟩
  have hcreated : created [⟨call, answer.map reply⟩] = [] := by
    rw [created_singleton]
    cases answer with
    | ok a => exact congrArg Option.toList (hreply a)
    | error err => rfl
  refine ⟨answer.mapError .service, s', [⟨call, answer.map reply⟩], ?_, ?_, ?_, ?_⟩
  · rw [run_ask hz, hcreated]
    rfl
  · rw [run_ask (run_record hz), hcreated]
    rfl
  · rw [released_singleton, hcall]
    rfl
  · exact .single fun _ => rfl

/-- A call that creates an object. -/
theorem recorded_create {call : Call} (z : StateM σ (Except ServiceError Ref))
    (hcall : ∀ answer, Exchange.released? ⟨call, answer⟩ = none) :
    Recorded (create (record call .ref z)) (create z) fun y calls =>
      calls = [⟨call, .ok (.ref y)⟩] := by
  intro c s log
  obtain ⟨answer, s', hz⟩ : ∃ answer s', z.run s = (answer, s') := ⟨_, _, rfl⟩
  refine ⟨answer.mapError .service, s', [⟨call, answer.map .ref⟩], ?_, ?_, ?_, ?_⟩
  · exact run_create hz
  · exact run_create (run_record hz)
  · rw [released_singleton, hcall]
    rfl
  · exact .single fun _ => rfl

/-- Parts follow each other for as long as calls succeed. -/
theorem Recorded.bind {f : α → Scope (StateM (σ × List Exchange)) β} {g : α → Scope (StateM σ) β}
    {Q' : α → β → List Exchange → Prop} {Q'' : β → List Exchange → Prop} (hx : Recorded x y Q)
    (hf : ∀ a, Recorded (f a) (g a) (Q' a))
    (hQ : ∀ a b before calls, Q a before → Q' a b calls → Q'' b (before ++ calls)) :
    Recorded (x >>= f) (y >>= g) Q'' := by
  intro c s log
  obtain ⟨result, s₁, before, hy, hx, hreleased, hconcludes⟩ := hx c s log
  cases hconcludes with
  | failed hall =>
    exact ⟨_, s₁, _, run_bind_error hy, run_bind_error hx, hreleased, .failed hall⟩
  | @done a _ hall ha =>
    obtain ⟨result', s₂, calls, hg, hf, hreleased', hconcludes'⟩ :=
      hf a ((created before).reverse ++ c) s₁ (log ++ before)
    -- what was created is noted with the last object first, so the second part goes in front
    have hcreated : (created calls).reverse ++ ((created before).reverse ++ c) =
        (created (before ++ calls)).reverse ++ c := by
      rw [created_append, List.reverse_append, List.append_assoc]
    rw [hcreated] at hg hf
    rw [List.append_assoc] at hf
    refine ⟨result', s₂, before ++ calls, (run_bind_ok hy).trans hg, (run_bind_ok hx).trans hf, ?_,
      hconcludes'.append hall fun b hb => hQ a b _ _ ha hb⟩
    rw [released_append, hreleased, hreleased', List.append_nil]

/-- The same if nothing is to be said of the calls. -/
theorem Recorded.seq {f : α → Scope (StateM (σ × List Exchange)) β} {g : α → Scope (StateM σ) β}
    {Q' : α → β → List Exchange → Prop} (hx : Recorded x y Q)
    (hf : ∀ a, Recorded (f a) (g a) (Q' a)) : Recorded (x >>= f) (y >>= g) fun _ _ => True :=
  hx.bind hf fun _ _ _ _ _ _ => trivial

/-! ### Its end -/

variable (S : StagedService (StateM σ))

theorem forM_release (l : List Ref) (s : σ) (log : List Exchange) : ∃ s',
    (l.forM S.release).run s = ((), s') ∧
    (l.forM S.recorded.release).run (s, log) = ((), s', log ++ l.map .ofRelease) := by
  induction l generalizing s log with
  | nil => exact ⟨s, rfl, by rw [List.map_nil, List.append_nil]; rfl⟩
  | cons y l ih =>
    obtain ⟨s', hplain, hrecorded⟩ := ih ((S.release y).run s).2 (log ++ [.ofRelease y])
    refine ⟨s', hplain, hrecorded.trans ?_⟩
    rw [List.append_assoc]
    rfl

/-- **At its end an operation gives back what its calls have created**, the last object first. -/
theorem Recorded.exists_close (h : Recorded x y Q) (s : σ) : ∃ result s' calls,
    (close S y).run s = (result, s') ∧
    (close S.recorded x).run (s, []) =
      (result, s', calls ++ (created calls).reverse.map .ofRelease) ∧
    released calls = [] ∧ Concludes Q calls result := by
  obtain ⟨result, s₁, calls, hy, hx, hreleased, hconcludes⟩ := h [] s []
  rw [List.append_nil] at hy hx
  rw [List.nil_append] at hx
  -- both runs are in the same state when they come to the releases
  obtain ⟨s₂, hplain, hrecorded⟩ := forM_release S (created calls).reverse s₁ calls
  refine ⟨result, s₂, calls, ?_, ?_, hreleased, hconcludes⟩
  · have hrun : (y.run.run []).run s = ((result, (created calls).reverse), s₁) := hy
    rw [close, StateT.run_bind, hrun]
    show (((created calls).reverse.forM S.release >>= fun _ => pure result).run s₁) = _
    rw [StateT.run_bind, hplain]
    rfl
  · have hrun : (x.run.run []).run (s, []) = ((result, (created calls).reverse), (s₁, calls)) := hx
    rw [close, StateT.run_bind, hrun]
    show (((created calls).reverse.forM S.recorded.release >>= fun _ => pure result).run
      (s₁, calls)) = _
    rw [StateT.run_bind, hrecorded]
    rfl

/-! ### What operations are put together from -/

theorem recorded_dataCreate (b : Bytes) : Recorded (create (S.recorded.dataCreate b))
    (create (S.dataCreate b)) fun x calls => calls = [⟨.dataCreate b, .ok (.ref x)⟩] :=
  recorded_create _ fun _ => rfl

theorem recorded_transformCreate (kind : TransformKind) (key : Ref) (signature : Option Ref) :
    Recorded (create (S.recorded.transformCreate kind key signature))
      (create (S.transformCreate kind key signature)) fun t calls =>
        calls = [⟨.transformCreate kind key signature, .ok (.ref t)⟩] :=
  recorded_create _ fun _ => rfl

theorem recorded_transformSet (t : Ref) (a : Attribute) :
    Recorded (ask (S.recorded.transformSet t a)) (ask (S.transformSet t a)) fun _ _ => True :=
  (recorded_ask _ (fun _ => rfl) fun _ => rfl).mono fun _ _ _ => trivial

theorem recorded_setInput (t : Ref) (b : Bytes) :
    Recorded (setInput S.recorded t b) (setInput S t b) fun _ _ => True :=
  (recorded_dataCreate S b).seq fun d => recorded_transformSet S t (.input d)

theorem recorded_setDigest (t : Ref) (a : HashAlgorithm) :
    Recorded (setDigest S.recorded t a) (setDigest S t a) fun _ _ => True := by
  refine (recorded_transformSet S t _).seq fun _ => (?_ : Recorded _ _ fun _ _ => True)
  cases a.lengthAttribute with
  | none => exact recorded_pure ()
  | some bits =>
    exact (recorded_create (S.numberCreate bits) fun _ => rfl).seq fun n =>
      recorded_transformSet S t (.digestLength n)

theorem recorded_setSignaturePadding (t : Ref) (algorithm : KeyAlgorithm) :
    Recorded (setSignaturePadding S.recorded t algorithm) (setSignaturePadding S t algorithm)
      fun _ _ => True := by
  unfold setSignaturePadding
  split
  · exact recorded_transformSet S t _
  · exact recorded_pure ()

end Scope

/-- The calls of an operation end with executing a transform and reading what has come out. -/
def ReadsOut (read : Ref → Call) (reply : α → Reply) (a : α) (calls : List Exchange) : Prop :=
  ∃ before t out, calls =
    before ++ [⟨.transformExecute t, .ok (.ref out)⟩, ⟨read out, .ok (reply a)⟩]

namespace Scope

variable {Q : α → List Exchange → Prop} (S : StagedService (StateM σ))

/-- The end of an operation, after which nothing is called. -/
theorem Recorded.reads {β : Type} {x : Scope (StateM (σ × List Exchange)) α}
    {y : Scope (StateM σ) α} {f : α → Scope (StateM (σ × List Exchange)) β}
    {g : α → Scope (StateM σ) β} {read : Ref → Call} {reply : β → Reply} (hx : Recorded x y Q)
    (hf : ∀ a, Recorded (f a) (g a) (ReadsOut read reply)) :
    Recorded (x >>= f) (y >>= g) (ReadsOut read reply) := by
  refine hx.bind hf ?_
  rintro a b before _ - ⟨before', t, out, rfl⟩
  exact ⟨before ++ before', t, out, (List.append_assoc _ _ _).symm⟩

theorem recorded_execute {read : Ref → Call} {reply : α → Reply}
    {z : Ref → StateM σ (Except ServiceError α)} (t : Ref) (e : Entropy)
    (hreply : ∀ out a, Exchange.created? ⟨read out, .ok (reply a)⟩ = none)
    (hcall : ∀ out answer, Exchange.released? ⟨read out, answer⟩ = none) :
    Recorded
      (create (S.recorded.transformExecute t e) >>=
        fun out => ask (record (read out) reply (z out)))
      (create (S.transformExecute t e) >>= fun out => ask (z out)) (ReadsOut read reply) := by
  refine (recorded_create (S.transformExecute t e) fun _ => rfl).bind
    (fun out => recorded_ask (z out) (hreply out) (hcall out)) ?_
  rintro out a _ _ rfl rfl
  exact ⟨[], t, out, rfl⟩

theorem recorded_executeData (t : Ref) (e : Entropy) :
    Recorded
      (create (S.recorded.transformExecute t e) >>= fun out => ask (S.recorded.dataBytes out))
      (create (S.transformExecute t e) >>= fun out => ask (S.dataBytes out))
      (ReadsOut .dataBytes .bytes) :=
  recorded_execute S t e (fun _ _ => rfl) fun _ _ => rfl

theorem recorded_executeBoolean (t : Ref) (e : Entropy) :
    Recorded
      (create (S.recorded.transformExecute t e) >>= fun out => ask (S.recorded.booleanValue out))
      (create (S.transformExecute t e) >>= fun out => ask (S.booleanValue out))
      (ReadsOut .booleanValue .boolean) :=
  recorded_execute S t e (fun _ _ => rfl) fun _ _ => rfl

/-- Signers and verifiers are set up in the same way. -/
theorem Recorded.configured {x : Scope (StateM (σ × List Exchange)) α} {y : Scope (StateM σ) α}
    {read : Ref → Call} {reply : α → Reply} (h : Recorded x y (ReadsOut read reply)) (t : Ref)
    (algorithm : KeyAlgorithm) (a : HashAlgorithm) (message : Bytes) :
    Recorded
      (do
        setDigest S.recorded t a
        setSignaturePadding S.recorded t algorithm
        setInput S.recorded t message
        x)
      (do
        setDigest S t a
        setSignaturePadding S t algorithm
        setInput S t message
        y)
      (ReadsOut read reply) :=
  (recorded_setDigest S t a).reads fun _ => (recorded_setSignaturePadding S t algorithm).reads
    fun _ => (recorded_setInput S t message).reads fun _ => h

end Scope

/-! ### Journals -/

/-- The journal of an operation on a key, with its result: the operation makes calls until one
fails or the output is read, and then gives back what it has created by then, each object once, the
last one first.  The key is not given back, and nothing is used after it was.  (The objects that a
service creates are taken to be new.) -/
structure Tidy (key : Ref) (Q : α → List Exchange → Prop) (result : Except CryptoError α)
    (log : List Exchange) : Prop where
  splits : ∃ calls, log = calls ++ (created calls).reverse.map .ofRelease ∧
    released calls = [] ∧ Concludes Q calls result
  released_eq : released log = (created log).reverse
  kept : key ∉ created log → key ∉ released log
  unused : (created log).Nodup → ∀ before x answer after,
    log = before ++ ⟨.release x, answer⟩ :: after → ∀ ev ∈ after, x ∉ ev.call.names

/-- After an object was given back only others are. -/
theorem notMem_names_of_release {l : List Ref} {before after : List Exchange} {x : Ref}
    {answer : Except ServiceError Reply} (hnodup : l.Nodup)
    (h : l.map .ofRelease = before ++ ⟨.release x, answer⟩ :: after) :
    ∀ ev ∈ after, x ∉ ev.call.names := by
  obtain ⟨l₁, l₂, rfl, -, hrest⟩ := List.map_eq_append_iff.mp h
  obtain ⟨y, l₃, rfl, hy, rfl⟩ := List.map_eq_cons_iff.mp hrest
  cases hy
  intro ev hev
  obtain ⟨z, hz, rfl⟩ := List.mem_map.mp hev
  have hne : x ≠ z := by
    rintro rfl
    exact (List.nodup_cons.mp (List.nodup_append.mp hnodup).2.1).1 hz
  exact fun hx => hne (List.mem_singleton.mp hx)

/-- Calls that give nothing back, and then what they have created, make a tidy journal. -/
theorem tidy_of_splits {key : Ref} {Q : α → List Exchange → Prop} {result : Except CryptoError α}
    {calls : List Exchange} (hreleased : released calls = [])
    (hconcludes : Concludes Q calls result) :
    Tidy key Q result (calls ++ (created calls).reverse.map .ofRelease) := by
  have hcreated : created (calls ++ (created calls).reverse.map .ofRelease) = created calls := by
    rw [created_append, created_map_ofRelease, List.append_nil]
  have heq : released (calls ++ (created calls).reverse.map .ofRelease) =
      (created calls).reverse := by
    rw [released_append, released_map_ofRelease, hreleased, List.nil_append]
  refine ⟨⟨calls, rfl, hreleased, hconcludes⟩, by rw [heq, hcreated], fun hkey => ?_, ?_⟩
  · rw [heq, List.mem_reverse]
    rwa [hcreated] at hkey
  · intro hnodup before x answer after hsplit
    rw [hcreated] at hnodup
    -- a release stands behind the calls, as they give nothing back
    rcases List.append_eq_append_iff.mp hsplit with ⟨l, -, hrest⟩ | ⟨l, hcalls, hrest⟩
    · exact notMem_names_of_release (List.nodup_reverse.mpr hnodup) hrest
    · cases l with
      | nil =>
        have hreleases : (created calls).reverse.map .ofRelease =
            [] ++ ⟨.release x, answer⟩ :: after := hrest.symm
        exact notMem_names_of_release (List.nodup_reverse.mpr hnodup) hreleases
      | cons ev l =>
        -- a release among the calls
        cases hrest
        rw [hcalls, released_append] at hreleased
        cases (List.append_eq_nil_iff.mp hreleased).2

/-! ### Operations -/

/-- An operation on a key cleans up: whatever the service is and however it answers, the operation
leaves a tidy journal when it is recorded, and recording it does not change what it does. -/
def CleansUp (key : Ref) (Q : α → List Exchange → Prop)
    (op : {m : Type → Type} → [Monad m] → StagedService m → m (Except CryptoError α)) : Prop :=
  ∀ {σ : Type} (S : StagedService (StateM σ)) (s : σ), ∃ result s' log,
    (op S).run s = (result, s') ∧ (op S.recorded).run (s, []) = (result, s', log) ∧
      Tidy key Q result log

theorem Scope.Recorded.tidy {x : Scope (StateM (σ × List Exchange)) α} {y : Scope (StateM σ) α}
    {Q : α → List Exchange → Prop} (h : Recorded x y Q) (S : StagedService (StateM σ)) (key : Ref)
    (s : σ) : ∃ result s' log, (close S y).run s = (result, s') ∧
      (close S.recorded x).run (s, []) = (result, s', log) ∧ Tidy key Q result log := by
  obtain ⟨result, s', calls, hplain, hrecorded, hreleased, hconcludes⟩ := h.exists_close S s
  exact ⟨result, s', _, hplain, hrecorded, tidy_of_splits hreleased hconcludes⟩

/-- **Operations clean up, for every service.**  Let every call of the service succeed or fail as it
may.  When a message is encrypted or decrypted step by step, signed, or verified, the operation
makes calls until one fails, and then its result is the error of that call, or until the output of
the transform is read, and then that is its result.  After that the objects whose creation has
succeeded by then, outputs included, are given back, each once and the last one first.  The key of
the caller is not given back, and no object is used after it was. -/
theorem staged_cleansUp (key : Ref) (e : Entropy) :
    (∀ kind padding input, CleansUp key (ReadsOut .dataBytes .bytes)
      fun S => stagedCipher S kind key padding input e) ∧
    (∀ algorithm a message, CleansUp key (ReadsOut .dataBytes .bytes)
      fun S => stagedSign S key algorithm a message e) ∧
    ∀ algorithm a signature message, CleansUp key (ReadsOut .booleanValue .boolean)
      fun S => stagedVerify S key algorithm a signature message e := by
  refine ⟨fun kind padding input σ S s => ?_, fun algorithm a message σ S s => ?_,
    fun algorithm a signature message σ S s => ?_⟩
  · have hbody := (Scope.recorded_transformCreate S kind key none).reads fun t =>
      (Scope.recorded_transformSet S t (.padding padding)).reads fun _ =>
        (Scope.recorded_setInput S t input).reads fun _ => Scope.recorded_executeData S t e
    exact hbody.tidy S key s
  · have hbody := (Scope.recorded_transformCreate S .sign key none).reads fun t =>
      (Scope.recorded_executeData S t e).configured S t algorithm a message
    exact hbody.tidy S key s
  · have hbody := (Scope.recorded_dataCreate S signature).reads fun x =>
      (Scope.recorded_transformCreate S .verify key (some x)).reads fun t =>
        (Scope.recorded_executeBoolean S t e).configured S t algorithm a message
    exact hbody.tidy S key s

end Record

end Keyring
