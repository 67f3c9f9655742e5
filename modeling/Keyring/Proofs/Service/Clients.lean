import Keyring.Proofs.Service.Persistence
import Keyring.Service.Clients

/-!
# Moves of clients

What a move does to the registry and to what clients own.  As long as clients only give back what
they own, reference counts stay exact against what all of them own together, and every move comes
to its end, in whatever order they are made.

## Main definitions

* `World.Moves` — what a move does.
* `World.Sound` — reference counts are exact against what all clients own.

## Main results

* `Call.make_of_begin` — without anything in between, two steps are one call.
* `World.Sound.moves` — **clients keep the counts exact.**
* `World.Sound.exists_call`, `World.Sound.exists_finish` — **no move of clients is abandoned.**
-/

namespace Keyring

open Registry Service

variable {P : Provider} {r r' : Registry} {a : Client} {c : Call} {e : Entropy}
  {w w' : World} {m : Move}

/-! ### Calls in two steps -/

theorem Activity.finish_executing_ok {c : Captured} {o : NativeObject} (h : c.run P e = .ok o) :
    (executing c).finish P e r = .ok (.ok (.ref (r.last + 1))) (r.insert o) :=
  reply_eq_ok (create_ok h)

theorem Activity.finish_executing_error {c : Captured} {err : ServiceError}
    (h : c.run P e = .error err) : (executing c).finish P e r = .ok (.error err) r :=
  reply_eq_ok (create_error h)

/-- Without anything in between, the two steps of a call are the call. -/
theorem Call.make_of_begin (c : Call) (e : Entropy) (r : Registry) :
    (∀ err, c.begin r = some (.error err) → c.make P e r = .ok (.error err) r) ∧
      ∀ activity, c.begin r = some (.ok activity) → c.make P e r = activity.finish P e r := by
  cases c with
  | keyEncrypt x n b =>
    have hmake : (keyEncrypt x n b).make P e r = .ok (Except.map Reply.bytes
        (r.key x >>= fun k => encryptWith P k .pkcs1 n e b)) r := rfl
    rw [begin, hmake]
    cases r.key x <;> constructor <;> intro _ h <;> cases h <;> rfl
  | keyDecrypt x n b =>
    have hmake : (keyDecrypt x n b).make P e r = .ok (Except.map Reply.bytes
        (r.key x >>= fun k => decryptWith P k .pkcs1 n b)) r := rfl
    rw [begin, hmake]
    cases r.key x <;> constructor <;> intro _ h <;> cases h <;> rfl
  | transformExecute x =>
    rw [begin]
    cases hcapture : capture r x with
    -- a transform that cannot be captured is answered at once
    | error err =>
      constructor <;> intro _ h <;> cases h
      have hcall : Service.transformExecute P x e r = .ok (.error err) r :=
        create_error (by rw [hcapture]; rfl)
      exact reply_eq_ok hcall
    | ok c =>
      constructor <;> intro _ h <;> cases h
      cases hrun : c.run P e with
      | error err =>
        have hcall : Service.transformExecute P x e r = .ok (.error err) r :=
          create_error (by rw [hcapture]; exact hrun)
        rw [Activity.finish_executing_error hrun]
        exact reply_eq_ok hcall
      | ok o =>
        have hcall : Service.transformExecute P x e r = .ok (.ok (r.last + 1)) (r.insert o) :=
          create_ok (by rw [hcapture]; exact hrun)
        rw [Activity.finish_executing_ok hrun]
        exact reply_eq_ok hcall
  | _ => constructor <;> intro _ h <;> cases h

theorem Activity.keeps (x : Activity) (e : Entropy) : Keeps (x.finish P e) 0 := by
  cases x with
  | executing c =>
    have hadds : AddsLeaf (create fun _ => c.run P e) := ⟨_, rfl, fun _ _ h => retained_of_run h⟩
    exact hadds.keeps
  | encrypting k n b => exact keeps_query _ fun _ => rfl
  | decrypting k n b => exact keeps_query _ fun _ => rfl

/-- An execution adds an object or nothing.  All else that is computed adds nothing. -/
theorem Activity.registry_of_finish {x : Activity} {reply : Except ServiceError Reply}
    (h : x.finish P e r = .ok reply r') : r' = r ∨ ∃ o, r' = r.insert o := by
  cases x with
  | executing c =>
    cases hrun : c.run P e with
    | error err =>
      rw [finish_executing_error hrun] at h
      cases h
      exact .inl rfl
    | ok o =>
      rw [finish_executing_ok hrun] at h
      cases h
      exact .inr ⟨o, rfl⟩
  | encrypting k n b | decrypting k n b =>
    cases h
    exact .inl rfl

/-- What a call comes back with changes nothing that was there. -/
theorem Activity.object_of_finish {x : Activity} {reply : Except ServiceError Reply}
    (hr : r.Ordered) (h : x.finish P e r = .ok reply r') :
    r.last ≤ r'.last ∧ ∀ y o, y ≤ r.last → r'.object y = .ok o → r.object y = .ok o := by
  rcases registry_of_finish h with rfl | ⟨o, rfl⟩
  · exact ⟨Nat.le_refl _, fun _ _ _ ho => ho⟩
  · refine ⟨Nat.le_succ _, fun y o' hy ho' => ?_⟩
    rcases (object_insert_eq_ok_iff hr).mp ho' with ⟨rfl, -⟩ | ho
    · exact absurd hy (Nat.not_succ_le_self _)
    · exact ho

/-! ### Moves -/

namespace World

/-- What a move does: a call begins to compute, or it is answered, or it has computed. -/
inductive Moves (P : Provider) (w : World) : Move → World → Prop where
  | begun {a : Client} {c : Call} {e : Entropy} {activity : Activity} :
    c.begin w.registry = some (.ok activity) →
      Moves P w (.call a c e) (w.start ⟨a, c, activity⟩)
  | answered {a : Client} {c : Call} {e : Entropy} {reply : Except ServiceError Reply}
      {r : Registry} :
    w.allows a c = true → c.make P e w.registry = .ok reply r →
      Moves P w (.call a c e) (w.answer a c reply r)
  | finished {n : Nat} {e : Entropy} {p : Pending} {reply : Except ServiceError Reply}
      {r : Registry} :
    w.pending n = some p → p.activity.finish P e w.registry = .ok reply r →
      Moves P w (.finish n e) ((w.stop n).answer p.client p.call reply r)

theorem moves_of_step (h : w.step P m = some w') : w.Moves P m w' := by
  cases m with
  | call a c e =>
    simp only [step] at h
    split at h
    · next hallows =>
      split at h
      · next activity hbegin =>
        cases h
        exact .begun hbegin
      · -- a call that fails before it computes is answered as the whole call would be
        next err hbegin =>
        cases h
        exact .answered hallows ((c.make_of_begin e w.registry).1 err hbegin)
      · split at h
        · next hmake =>
          cases h
          exact .answered hallows hmake
        · cases h
    · cases h
  | finish n e =>
    obtain ⟨p, hp, h⟩ := Option.bind_eq_some_iff.mp h
    split at h
    · next hfinish =>
      cases h
      exact .finished hp hfinish
    · cases h

theorem pending_start (w : World) (p : Pending) (n : Nat) :
    (w.start p).pending n = if n = w.begun then some p else w.pending n := rfl

theorem pending_stop (w : World) (n m : Nat) :
    (w.stop n).pending m = if m = n then none else w.pending m := rfl

/-- Reference counts are exact against what all clients own, and what is under way is a call that
computes. -/
structure Sound (w : World) : Prop where
  balanced : w.registry.Balanced (w.owned.map Prod.snd : List Ref)
  computes : ∀ n p, w.pending n = some p → ∃ r x, p.call.begin r = some x

theorem gives_le (h : w.allows a c = true) : c.gives ≤ (w.owned.map Prod.snd : List Ref) := by
  cases c with
  | release x =>
    have hmem : (a, x) ∈ w.owned := by simpa [allows] using h
    exact Multiset.singleton_le.mpr (Multiset.mem_coe.mpr (List.mem_map_of_mem hmem))
  | _ => exact Multiset.zero_le _

theorem coe_kept (h : w.allows a c = true) :
    ((w.kept a c).map Prod.snd : Multiset Ref) = (w.owned.map Prod.snd : List Ref) - c.gives := by
  cases c with
  | release x =>
    have hmem : (a, x) ∈ w.owned := by simpa [allows] using h
    have hperm := (List.perm_cons_erase hmem).map Prod.snd
    rw [Multiset.coe_eq_coe.mpr hperm, List.map_cons, ← Multiset.cons_coe, Call.gives,
      Multiset.sub_singleton, Multiset.erase_cons_head]
    rfl
  | _ => exact (Multiset.sub_zero _).symm

theorem coe_ownedAfter (w : World) (a : Client) (c : Call) (reply : Except ServiceError Reply) :
    ((w.ownedAfter a c reply).map Prod.snd : Multiset Ref) =
      ((w.kept a c).map Prod.snd : List Ref) + Reply.owns reply := by
  cases reply with
  | error err => exact (Multiset.add_zero _).symm
  | ok answer =>
    cases answer with
    | ref y =>
      rw [Reply.owns, Multiset.add_comm, Multiset.singleton_add]
      rfl
    | done | bytes b | boolean v => exact (Multiset.add_zero _).symm

namespace Sound

theorem empty : Sound {} where
  balanced := .empty
  computes := fun n p h => by cases h

/-- **No move of clients is abandoned**: a call that is made comes to its end or computes. -/
theorem exists_call (hw : w.Sound) (e : Entropy) (h : w.allows a c = true) :
    ∃ w', w.step P (.call a c e) = some w' := by
  obtain ⟨reply, r', hmake, -⟩ := Balanced.make (P := P) hw.balanced c e (gives_le h)
  rw [step, if_pos h]
  split
  · exact ⟨_, rfl⟩
  · exact ⟨_, rfl⟩
  · rw [hmake]
    exact ⟨_, rfl⟩

/-- Whatever computes can be answered. -/
theorem exists_finish (hw : w.Sound) {n : Nat} {p : Pending} (e : Entropy)
    (h : w.pending n = some p) : ∃ w', w.step P (.finish n e) = some w' := by
  obtain ⟨reply, r', hfinish, -⟩ := p.activity.keeps (P := P) e w.registry _
    (by rw [Multiset.zero_add]; exact hw.balanced)
  exact ⟨_, by rw [step, h, Option.bind_eq_bind, Option.bind_some, hfinish]⟩

theorem start (hw : w.Sound) {activity : Activity}
    (h : c.begin w.registry = some (.ok activity)) : (w.start ⟨a, c, activity⟩).Sound where
  balanced := hw.balanced
  computes := by
    intro n p hp
    rw [pending_start] at hp
    split at hp
    · cases hp
      exact ⟨_, _, h⟩
    · exact hw.computes n p hp

theorem stop (hw : w.Sound) (n : Nat) : (w.stop n).Sound where
  balanced := hw.balanced
  computes := by
    intro m p hp
    rw [pending_stop] at hp
    split at hp
    · cases hp
    · exact hw.computes m p hp

/-- What an answer hands out is owned. -/
theorem answer (hw : w.Sound) {reply : Except ServiceError Reply}
    (hr : r.Balanced (((w.kept a c).map Prod.snd : List Ref) + Reply.owns reply)) :
    (w.answer a c reply r).Sound :=
  ⟨by rw [World.answer, coe_ownedAfter]; exact hr, hw.computes⟩

/-- **Clients keep the counts exact.** -/
theorem moves (hw : w.Sound) (h : w.Moves P m w') : w'.Sound := by
  cases h with
  | begun hbegin => exact hw.start hbegin
  | @answered a c e reply r hallows hmake =>
    obtain ⟨reply', r', hmake', hr'⟩ := Balanced.make (P := P) hw.balanced c e (gives_le hallows)
    rw [hmake] at hmake'
    cases hmake'
    rw [← coe_kept hallows] at hr'
    exact hw.answer hr'
  | @finished n e p reply r hp hfinish =>
    obtain ⟨reply', r', hfinish', hr'⟩ := p.activity.keeps (P := P) e w.registry _
      (by rw [Multiset.zero_add]; exact hw.balanced)
    rw [hfinish] at hfinish'
    cases hfinish'
    refine (hw.stop n).answer ?_
    -- what computes gives nothing back
    have hkept : (w.stop n).kept p.client p.call = w.owned := by
      obtain ⟨r, x, hx⟩ := hw.computes n p hp
      cases hcall : p.call with
      | release y =>
        rw [hcall] at hx
        cases hx
      | _ => rfl
    rw [hkept]
    exact hr'

theorem follows (hw : w.Sound) (h : w.Moves P m w') : w.registry.Follows w'.registry := by
  cases h with
  | begun hbegin => exact .refl _
  | answered hallows hmake => exact Call.follows_of_make hw.balanced.loose hmake
  | finished hp hfinish =>
    obtain ⟨hlast, hobject⟩ := Activity.object_of_finish hw.balanced.ordered hfinish
    exact ⟨hlast, fun y o hy ho => .inl (hobject y o hy ho)⟩

end Sound

theorem step_answered {reply : Except ServiceError Reply} (hallows : w.allows a c = true)
    (hbegin : c.begin w.registry = none) (hmake : c.make P e w.registry = .ok reply r) :
    w.step P (.call a c e) = some (w.answer a c reply r) := by
  rw [step, if_pos hallows, hbegin, hmake]

theorem run_cons (h : w.step P m = some w') (moves : List Move) :
    w.run P (m :: moves) = w'.run P moves := by
  rw [run, List.foldlM_cons, h]
  rfl

/-- What every move keeps is kept by any number of moves. -/
theorem invariant_of_run {I : World → Prop} {moves : List Move}
    (hI : ∀ w m w', m ∈ moves → I w → w.Moves P m w' → I w') (h : w.run P moves = some w')
    (hw : I w) : I w' := by
  induction moves generalizing w with
  | nil =>
    cases h
    exact hw
  | cons m rest ih =>
    rw [run, List.foldlM_cons] at h
    obtain ⟨w₁, hstep, hrest⟩ := Option.bind_eq_some_iff.mp h
    exact ih (fun w m w' hm => hI w m w' (List.mem_cons_of_mem _ hm)) hrest
      (hI w m w₁ List.mem_cons_self hw (moves_of_step hstep))

end World

end Keyring
