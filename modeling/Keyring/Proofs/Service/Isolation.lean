import Keyring.Proofs.Service.Clients
import Keyring.Proofs.Service.Drafts

/-!
# Executions are isolated

Whatever clients do at the same time, what is captured for the execution of a transform is what
its own client has put together, and what was captured is executed as it is.  Other clients can
neither change the transform nor what it names, and it does not matter whether anybody still
owns what it names, or whether the transform is still there when its execution comes to an end.

## Main definitions

* `draft` — a transform as a client has put it together, by what the client was answered.
* `Undisturbed` — no other client sets a transform.

## Main results

* `World.Drafted.moves` — **moves of any client keep a transform to its draft.**
* `World.execution_isolated` — **an execution is isolated from other clients.**
-/

namespace Keyring

open Registry Service

variable {P : Provider} {r r' : Registry} {a : Client} {t : Ref} {d : Draft} {w w' : World}
  {m : Move} {ev : Event}

/-! ### What clients were answered -/

/-- A call has created a transform. -/
def Event.Creates (ev : Event) (t : Ref) : Prop :=
  ∃ kind x s, ev.call = .transformCreate kind x s ∧ ev.reply = .ok (.ref t)

/-- A call has set a transform. -/
def Event.Sets (ev : Event) (t : Ref) : Prop :=
  ∃ v reply, ev.call = .transformSet t v ∧ ev.reply = .ok reply

/-- What the answer of a call makes of a draft that a client has of a transform. -/
def Event.revise (a : Client) (t : Ref) (d : Option Draft) (ev : Event) : Option Draft :=
  if ev.client = a then
    match ev.call, ev.reply with
    | .transformCreate kind x s, .ok (.ref y) =>
      if y = t then Draft.fresh? ev.registry kind x s else d
    | .transformSet x v, .ok _ => if x = t then d.map (·.assign ev.registry v) else d
    | _, _ => d
  else d

/-- A transform as a client has put it together: created and set by calls of its own, with the
contents that objects had when they were named. -/
def draft (a : Client) (t : Ref) (log : List Event) : Option Draft :=
  log.foldl (Event.revise a t) none

/-- No other client sets a transform. -/
def Undisturbed (a : Client) (t : Ref) (log : List Event) : Prop :=
  ∀ ev ∈ log, ev.Sets t → ev.client = a

/-- A draft that there is after an answer was there before, or was set, or is new. -/
theorem Event.revise_cases {d₀ : Option Draft} (h : ev.revise a t d₀ = some d) :
    (d₀ = some d ∧ (ev.client = a → ¬ev.Sets t)) ∨
    (∃ v reply d', ev.call = .transformSet t v ∧ ev.reply = .ok reply ∧ d₀ = some d' ∧
      d'.assign ev.registry v = d) ∨
    ∃ kind x s, ev.call = .transformCreate kind x s ∧ ev.reply = .ok (.ref t) ∧
      Draft.fresh? ev.registry kind x s = some d := by
  unfold revise at h
  split at h
  · split at h
    · next kind x s y hcall hreply =>
      split at h
      · next hy => exact .inr (.inr ⟨kind, x, s, hcall, hy ▸ hreply, h⟩)
      · refine .inl ⟨h, fun _ => ?_⟩
        rintro ⟨v, reply, hset, -⟩
        rw [hcall] at hset
        cases hset
    · next x v answer hcall hreply =>
      split at h
      · next hx =>
        obtain ⟨d', hd', hassign⟩ := Option.map_eq_some_iff.mp h
        exact .inr (.inl ⟨v, answer, d', hx ▸ hcall, hreply, hd', hassign⟩)
      · next hx =>
        refine .inl ⟨h, fun _ => ?_⟩
        rintro ⟨v', reply, hset, -⟩
        rw [hcall] at hset
        cases hset
        exact hx rfl
    · next hother =>
      refine .inl ⟨h, fun _ => ?_⟩
      rintro ⟨v, reply, hset, hreply⟩
      exact hother _ _ _ hset hreply
  · next hclient => exact .inl ⟨h, fun hown => absurd hown hclient⟩

/-- There is a draft once the client has created the transform. -/
theorem Event.exists_revise {d₀ : Option Draft}
    (hfresh : ∀ kind x s, ev.call = .transformCreate kind x s → ev.reply = .ok (.ref t) →
      ∃ d, Draft.fresh? ev.registry kind x s = some d)
    (h : (∃ d, d₀ = some d) ∨ ev.client = a ∧ ev.Creates t) : ∃ d, ev.revise a t d₀ = some d := by
  unfold revise
  rcases h with ⟨d, rfl⟩ | ⟨hclient, kind, x, s, hcall, hreply⟩
  · split
    · split
      · next kind x s y hcall hreply =>
        split
        · next hy => exact hfresh kind x s hcall (hy ▸ hreply)
        · exact ⟨d, rfl⟩
      · split
        · exact ⟨_, rfl⟩
        · exact ⟨d, rfl⟩
      · exact ⟨d, rfl⟩
    · exact ⟨d, rfl⟩
  · rw [if_pos hclient, hcall, hreply]
    dsimp only
    rw [if_pos rfl]
    exact hfresh kind x s hcall hreply

namespace World

/-! ### Moves -/

/-- A transform that a client has created has a draft, and if it was put together undisturbed, the
draft says what it is. -/
structure Drafted (w : World) (a : Client) (t : Ref) : Prop where
  exists_draft : (∃ ev ∈ w.log, ev.client = a ∧ ev.Creates t) → ∃ d, draft a t w.log = some d
  covers : Undisturbed a t w.log → ∀ d, draft a t w.log = some d → d.Covers w.registry t

/-- A call is answered: if it has set the transform, the draft is set. -/
theorem Drafted.answer {b : Client} {c : Call} {reply : Except ServiceError Reply}
    (hd : w.Drafted a t)
    (hkeep : ∀ d : Draft, d.Covers w.registry t → ¬Event.Sets ⟨b, c, w.registry, reply⟩ t →
      d.Covers r t)
    (hset : ∀ (d : Draft) v answer, c = .transformSet t v → reply = .ok answer →
      d.Covers w.registry t → (d.assign w.registry v).Covers r t)
    (hcreate : ∀ kind x s, c = .transformCreate kind x s → reply = .ok (.ref t) →
      ∃ d, Draft.fresh? w.registry kind x s = some d ∧ d.Covers r t) :
    (w.answer b c reply r).Drafted a t := by
  have hlog : draft a t (w.answer b c reply r).log =
      Event.revise a t (draft a t w.log) ⟨b, c, w.registry, reply⟩ := by
    rw [draft, World.answer, List.foldl_append, List.foldl_cons, List.foldl_nil, draft]
  refine ⟨?_, fun hundisturbed d hdraft => ?_⟩
  · rintro ⟨ev, hev, hclient, hcreates⟩
    rw [hlog]
    refine Event.exists_revise (fun kind x s hc hreply => ?_) ?_
    · obtain ⟨d, hfresh, -⟩ := hcreate kind x s hc hreply
      exact ⟨d, hfresh⟩
    · rcases List.mem_append.mp hev with hev | hev
      · exact .inl (hd.exists_draft ⟨ev, hev, hclient, hcreates⟩)
      · rw [List.mem_singleton] at hev
        subst hev
        exact .inr ⟨hclient, hcreates⟩
  · have hbefore : Undisturbed a t w.log :=
      fun ev hev => hundisturbed ev (List.mem_append_left _ hev)
    have hlast := hundisturbed ⟨b, c, w.registry, reply⟩
      (List.mem_append_right _ List.mem_cons_self)
    rw [hlog] at hdraft
    rcases Event.revise_cases hdraft with ⟨hsame, hnot⟩ | ⟨v, answer, d', hc, hreply, hd', rfl⟩ |
      ⟨kind, x, s, hc, hreply, hfresh⟩
    · exact hkeep d (hd.covers hbefore d hsame) fun hsets => hnot (hlast hsets) hsets
    · exact hset d' v answer hc hreply (hd.covers hbefore d' hd')
    · obtain ⟨d', hfresh', hcovers⟩ := hcreate kind x s hc hreply
      rw [show Draft.fresh? w.registry kind x s = some d from hfresh] at hfresh'
      cases hfresh'
      exact hcovers

/-- **Moves of any client keep a transform to its draft.** -/
theorem Drafted.moves (hd : w.Drafted a t) (hw : w.Sound) (h : w.Moves P m w') :
    w'.Drafted a t := by
  have hshallow := (hw.moves h).balanced.shallow
  have hfollows := hw.follows h
  have hordered := hw.balanced.ordered
  cases h with
  | begun hbegin => exact ⟨hd.exists_draft, hd.covers⟩
  | answered hallows hmake =>
    refine hd.answer (fun d hcovers hnot => ?_) ?_ ?_
    · exact hcovers.keep hordered hfollows hshallow fun o ho =>
        Call.object_of_make hw.balanced.loose hmake hcovers.1
          (fun v answer hc hreply => hnot ⟨v, answer, hc, hreply⟩) ho
    · rintro d v answer rfl rfl hcovers
      exact hcovers.set hw.balanced hshallow hmake
    · rintro kind x s rfl rfl
      obtain ⟨d, hfresh, hlast, hcovers⟩ := Draft.exists_covers hw.balanced hshallow hmake
      cases hlast
      exact ⟨d, hfresh, hcovers⟩
  | @finished n e p reply r hp hfinish =>
    -- what computes neither creates nor sets a transform
    obtain ⟨r₀, x, hx⟩ := hw.computes n p hp
    have hstop : (w.stop n).Drafted a t := ⟨hd.exists_draft, hd.covers⟩
    refine hstop.answer (fun d hcovers _ => ?_) ?_ ?_
    · exact hcovers.keep hordered hfollows hshallow fun o ho =>
        (Activity.object_of_finish hordered hfinish).2 t o hcovers.1 ho
    · intro d v answer hc
      rw [hc] at hx
      cases hx
    · intro kind x s hc
      rw [hc] at hx
      cases hx

/-! ### Runs -/

/-- A world that moves of clients lead to: counts are exact, and transforms are what their drafts
say. -/
theorem sound_of_run {moves : List Move} (h : World.run P {} moves = some w) :
    w.Sound ∧ ∀ a t, w.Drafted a t := by
  refine invariant_of_run (I := fun w => w.Sound ∧ ∀ a t, w.Drafted a t) ?_ h ?_
  · exact fun w m w' _ hw hmoves => ⟨hw.1.moves hmoves, fun a t => (hw.2 a t).moves hw.1 hmoves⟩
  · refine ⟨.empty, fun a t => ⟨?_, fun _ d hdraft => ?_⟩⟩
    · rintro ⟨ev, hev, -⟩
      cases hev
    · cases hdraft

/-- What has begun to compute is under way until it is answered. -/
theorem pending_of_run {moves : List Move} {n : Nat} {p : Pending}
    (h : w.run P moves = some w') (hfinish : ∀ e, .finish n e ∉ moves) (hn : n < w.begun)
    (hp : w.pending n = some p) : w'.pending n = some p := by
  refine (invariant_of_run (I := fun w => n < w.begun ∧ w.pending n = some p) ?_ h ⟨hn, hp⟩).2
  rintro w m w' hm ⟨hn, hp⟩ hmoves
  cases hmoves with
  | begun hbegin =>
    refine ⟨Nat.lt_succ_of_lt hn, ?_⟩
    rw [pending_start, if_neg (Nat.ne_of_lt hn), hp]
  | answered hallows hmake => exact ⟨hn, hp⟩
  | @finished k e q reply r hq hrun =>
    have hne : n ≠ k := by
      rintro rfl
      exact hfinish e hm
    refine ⟨hn, ?_⟩
    show (w.stop k).pending n = some p
    rw [pending_stop, if_neg hne, hp]

/-- A move that does not set a transform leaves it as it is. -/
theorem object_of_moves (hw : w.Sound) (h : w.Moves P m w') (ht : t ≤ w.registry.last)
    (hset : ∀ b v e, m ≠ .call b (.transformSet t v) e) {o : NativeObject}
    (ho : w'.registry.object t = .ok o) : w.registry.object t = .ok o := by
  cases h with
  | begun hbegin => exact ho
  | answered hallows hmake =>
    refine Call.object_of_make hw.balanced.loose hmake ht ?_ ho
    rintro v answer rfl
    exact absurd rfl (hset _ v _)
  | finished hp hfinish =>
    exact (Activity.object_of_finish hw.balanced.ordered hfinish).2 t o ht ho

/-- A transform that nobody sets stays as it is. -/
theorem covers_of_run {moves : List Move} (h : w.run P moves = some w') (hw : w.Sound)
    (hd : d.Covers w.registry t) (hset : ∀ b v e, .call b (.transformSet t v) e ∉ moves) :
    d.Covers w'.registry t ∧
      ∀ o, w'.registry.object t = .ok o → w.registry.object t = .ok o := by
  refine (invariant_of_run (I := fun w₁ => w₁.Sound ∧ d.Covers w₁.registry t ∧
    ∀ o, w₁.registry.object t = .ok o → w.registry.object t = .ok o) ?_ h
    ⟨hw, hd, fun _ ho => ho⟩).2
  rintro w₁ m w₂ hm ⟨hw₁, hd₁, hobject⟩ hmoves
  have hkeep : ∀ o, w₂.registry.object t = .ok o → w₁.registry.object t = .ok o := fun o ho =>
    object_of_moves hw₁ hmoves hd₁.1 (fun b v e heq => hset b v e (heq ▸ hm)) ho
  exact ⟨hw₁.moves hmoves, hd₁.keep hw₁.balanced.ordered (hw₁.follows hmoves)
    (hw₁.moves hmoves).balanced.shallow hkeep, fun o ho => hobject o (hkeep o ho)⟩

/-! ### Executions -/

/-- An execution under way is answered by what was captured for it: with the output, which is new,
or with a failure.  Nothing else becomes of the registry. -/
def Executes (P : Provider) (w : World) (n : Nat) (b : Client) (t : Ref) (c : Captured) : Prop :=
  ∀ e, ∃ w', w.step P (.finish n e) = some w' ∧
    (∀ o, c.run P e = .ok o → w'.registry = w.registry.insert o ∧ w'.log = w.log ++
      [⟨b, .transformExecute t, w.registry, .ok (.ref (w.registry.last + 1))⟩]) ∧
    ∀ err, c.run P e = .error err → w'.registry = w.registry ∧
      w'.log = w.log ++ [⟨b, .transformExecute t, w.registry, .error err⟩]

theorem executes_of_pending {n : Nat} {b : Client} {c : Captured}
    (h : w.pending n = some ⟨b, .transformExecute t, .executing c⟩) : w.Executes P n b t c := by
  intro e
  cases hrun : c.run P e with
  | error err =>
    refine ⟨_, by rw [step, h, Option.bind_eq_bind, Option.bind_some,
      Activity.finish_executing_error hrun], fun o ho => ?_, fun err' herr => ?_⟩
    · cases ho
    · cases herr
      exact ⟨rfl, rfl⟩
  | ok o =>
    refine ⟨_, by rw [step, h, Option.bind_eq_bind, Option.bind_some,
      Activity.finish_executing_ok hrun], fun o' ho => ?_, fun err herr => ?_⟩
    · cases ho
      exact ⟨rfl, rfl⟩
    · cases herr

/-- **An execution is isolated from other clients.**  Clients make moves in any order, and give
back only what they own.  A transform that a client has created, that no other client has set, and
that is still there, is captured as its client has put it together, whoever still owns what it
names.  If it cannot be captured, its execution fails at once.  Otherwise it is answered by what
was captured, whatever moves are made meanwhile, also if the transform is gone by then.  Executing
does not change a transform: as long as nobody sets it, the same is captured again. -/
theorem execution_isolated {before : List Move} (hbefore : World.run P {} before = some w)
    (hcreated : ∃ ev ∈ w.log, ev.client = a ∧ ev.Creates t)
    (hundisturbed : Undisturbed a t w.log) (hlive : ∃ o, w.registry.object t = .ok o) :
    ∃ d, draft a t w.log = some d ∧ capture w.registry t = d.captured ∧
    (∀ b e err, d.captured = .error err → w.step P (.call b (.transformExecute t) e) =
      some (w.answer b (.transformExecute t) (.error err) w.registry)) ∧
    (∀ b e c, d.captured = .ok c → ∃ w₁,
      w.step P (.call b (.transformExecute t) e) = some w₁ ∧ w₁.registry = w.registry ∧
      ∀ meanwhile w₂, w₁.run P meanwhile = some w₂ → (∀ e', .finish w.begun e' ∉ meanwhile) →
        w₂.Executes P w.begun b t c) ∧
    ∀ later w', w.run P later = some w' → (∀ b v e, .call b (.transformSet t v) e ∉ later) →
      ∀ o, w'.registry.object t = .ok o →
        w.registry.object t = .ok o ∧ capture w'.registry t = d.captured := by
  obtain ⟨hw, hdrafted⟩ := sound_of_run hbefore
  obtain ⟨d, hdraft⟩ := (hdrafted a t).exists_draft hcreated
  have hcovers := (hdrafted a t).covers hundisturbed d hdraft
  obtain ⟨o, ho⟩ := hlive
  have hcapture := hcovers.capture_eq ho
  refine ⟨d, hdraft, hcapture, fun b e err herr => ?_, fun b e c hc => ?_,
    fun later w' hlater hset o' ho' => ?_⟩
  · have hbegin : Call.begin w.registry (.transformExecute t) = some (.error err) := by
      rw [Call.begin, hcapture, herr]
      rfl
    rw [step, hbegin]
    rfl
  · have hbegin : Call.begin w.registry (.transformExecute t) = some (.ok (.executing c)) := by
      rw [Call.begin, hcapture, hc]
      rfl
    have hstep : w.step P (.call b (.transformExecute t) e) =
        some (w.start ⟨b, .transformExecute t, .executing c⟩) := by
      rw [step, hbegin]
      rfl
    refine ⟨_, hstep, rfl, fun meanwhile w₂ hrun hfinish => executes_of_pending ?_⟩
    exact pending_of_run hrun hfinish (Nat.lt_succ_self _) (if_pos rfl)
  · obtain ⟨hcovers', hobject⟩ := covers_of_run hlater hw hcovers hset
    exact ⟨hobject o' ho', hcovers'.capture_eq ho'⟩

/-- A client gives back the key and the input of a transform, and another client creates an
object.  The transform is executed as it was put together, also if it is freed meanwhile. -/
theorem execution_isolated_released : ∃ before w d c w₁ w₂, World.run .standard {} before = some w ∧
    draft 1 3 w.log = some d ∧ d.captured = .ok c ∧ c.input = [7] ∧
    w.step .standard (.call 1 (.transformExecute 3) fun _ => 0) = some w₁ ∧
    w₁.run .standard [.call 1 (.release 3) fun _ => 0] = some w₂ ∧
    w₂.registry.find? 3 = none ∧ w₂.Executes .standard 0 1 3 c := by
  let e : Entropy := fun _ => 0
  let bare : Transform := { kind := .encrypt, key := 1, signature := none }
  let full : Transform := { bare with input := some 2 }
  let r₄ : Registry := ⟨3, [(1, ⟨sampleKey, 2⟩), (2, ⟨.data [7], 2⟩), (3, ⟨.transform full, 1⟩)]⟩
  let r₅ : Registry := ⟨3, [(1, ⟨sampleKey, 1⟩), (2, ⟨.data [7], 2⟩), (3, ⟨.transform full, 1⟩)]⟩
  let r₆ : Registry := ⟨3, [(1, ⟨sampleKey, 1⟩), (2, ⟨.data [7], 1⟩), (3, ⟨.transform full, 1⟩)]⟩
  let w₁ := World.answer {} 1 createSample (.ok (.ref 1)) ⟨1, [(1, ⟨sampleKey, 1⟩)]⟩
  let w₂ := w₁.answer 1 (.dataCreate [7]) (.ok (.ref 2))
    ⟨2, [(1, ⟨sampleKey, 1⟩), (2, ⟨.data [7], 1⟩)]⟩
  let w₃ := w₂.answer 1 (.transformCreate .encrypt 1 none) (.ok (.ref 3))
    ⟨3, [(1, ⟨sampleKey, 2⟩), (2, ⟨.data [7], 1⟩), (3, ⟨.transform bare, 1⟩)]⟩
  let w₄ := w₃.answer 1 (.transformSet 3 (.input 2)) (.ok .done) r₄
  let w₅ := w₄.answer 1 (.release 1) (.ok .done) r₅
  let w₆ := w₅.answer 1 (.release 2) (.ok .done) r₆
  let w₇ := w₆.answer 2 (.dataCreate [9]) (.ok (.ref 4)) (r₆.insert (.data [9]))
  have h₁ : World.step .standard {} (.call 1 createSample e) = some w₁ :=
    step_answered rfl rfl (make_createSample e)
  have h₂ : w₁.step .standard (.call 1 (.dataCreate [7]) e) = some w₂ := step_answered rfl rfl rfl
  have h₃ : w₂.step .standard (.call 1 (.transformCreate .encrypt 1 none) e) = some w₃ :=
    step_answered rfl rfl rfl
  have h₄ : w₃.step .standard (.call 1 (.transformSet 3 (.input 2)) e) = some w₄ :=
    step_answered rfl rfl (reply_eq_ok (transformSet_input (b := [7]) rfl rfl rfl))
  have hkey : r₄.releaseAll [1] = .ok () r₅ := by
    rw [releaseAll_disown (e := ⟨sampleKey, 2⟩) rfl (by decide)]
    exact releaseAll_nil
  have h₅ : w₄.step .standard (.call 1 (.release 1) e) = some w₅ :=
    step_answered rfl rfl (Call.make_release hkey)
  have hinput : r₅.releaseAll [2] = .ok () r₆ := by
    rw [releaseAll_disown (e := ⟨.data [7], 2⟩) rfl (by decide)]
    exact releaseAll_nil
  have h₆ : w₅.step .standard (.call 1 (.release 2) e) = some w₆ :=
    step_answered rfl rfl (Call.make_release hinput)
  have h₇ : w₆.step .standard (.call 2 (.dataCreate [9]) e) = some w₇ := step_answered rfl rfl rfl
  have hbefore := (run_cons h₁ _).trans <| (run_cons h₂ _).trans <| (run_cons h₃ _).trans <|
    (run_cons h₄ _).trans <| (run_cons h₅ _).trans <| (run_cons h₆ _).trans <| run_cons h₇ []
  -- the other client sets nothing
  have hundisturbed : Undisturbed 1 3 w₇.log := by
    have hclients : w₆.log.map Event.client = List.replicate 6 1 := rfl
    intro ev hev hsets
    rcases List.mem_append.mp hev with hev | hev
    · exact List.eq_of_mem_replicate (hclients ▸ List.mem_map_of_mem hev)
    · obtain ⟨v, reply, hcall, -⟩ := hsets
      rw [List.mem_singleton.mp hev] at hcall
      cases hcall
  have hcreated : ∃ ev ∈ w₇.log, ev.client = 1 ∧ ev.Creates 3 :=
    ⟨⟨1, .transformCreate .encrypt 1 none, w₂.registry, .ok (.ref 3)⟩,
      by simp [w₇, w₆, w₅, w₄, w₃, World.answer], rfl, _, _, _, rfl, rfl⟩
  obtain ⟨d, hdraft, -, -, hexecute, -⟩ :=
    execution_isolated hbefore hcreated hundisturbed ⟨_, rfl⟩
  cases hdraft
  obtain ⟨w₈, hstart, -, hmeanwhile⟩ := hexecute 1 e _ rfl
  have hfreed : (r₆.insert (.data [9])).releaseAll [3] = .ok () ⟨4, [(4, ⟨.data [9], 1⟩)]⟩ := by
    rw [releaseAll_last (e := ⟨.transform full, 1⟩) rfl (by decide)]
    show Registry.releaseAll _ [1, 2] = _
    rw [releaseAll_last (e := ⟨sampleKey, 1⟩) rfl (by decide)]
    show Registry.releaseAll _ [2] = _
    rw [releaseAll_last (e := ⟨.data [7], 1⟩) rfl (by decide)]
    exact releaseAll_nil
  have hrelease : w₈.step .standard (.call 1 (.release 3) e) =
      some (w₈.answer 1 (.release 3) (.ok .done) ⟨4, [(4, ⟨.data [9], 1⟩)]⟩) := by
    cases hstart
    exact step_answered rfl rfl (Call.make_release hfreed)
  have hrun := run_cons hrelease []
  exact ⟨_, w₇, _, _, w₈, _, hbefore, rfl, rfl, rfl, hstart, hrun, rfl,
    hmeanwhile _ _ hrun (by simp)⟩

end World

end Keyring
