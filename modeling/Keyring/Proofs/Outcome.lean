import Keyring.Error
import Mathlib.Init

/-!
# Steps of calls with outcomes

How the calls of the library go on after a step that ended well or badly: equations for
sequencing in `Except`, by which a call is taken apart one step at a time.

Calls are inverted with these all over the development.  From a result of two steps one gets the
result of the first and what the second makes of it, by `bind_eq_ok_iff`; an error is the first
step's or the second's, by `bind_eq_error_iff`.  What goes through an `Option` or a list has a
result if every step has one, and fails as the first step that fails.

## Main results

* `bind_eq_ok_iff`, `bind_eq_error_iff` — a call of two steps.
* `mapM_eq_ok_iff`, `exists_of_mapM_error` — a step for what may be missing.
* `exists_mem_of_mapM`, `exists_mem_of_mapM_error` — a step for each element of a list.
-/

namespace Keyring

variable {ε α β : Type}

@[simp] theorem ok_bind (a : α) (f : α → Except ε β) : (Except.ok a >>= f) = f a := rfl

@[simp] theorem error_bind (e : ε) (f : α → Except ε β) :
    (Except.error e >>= f) = Except.error e := rfl

@[simp] theorem pure_eq_ok (a : α) : (pure a : Except ε α) = .ok a := rfl

@[simp] theorem throw_eq_error (e : ε) : (throw e : Except ε α) = .error e := rfl

/-- A call with two steps gives a result exactly if both steps do. -/
theorem bind_eq_ok_iff {x : Except ε α} {f : α → Except ε β} {b : β} :
    (x >>= f) = .ok b ↔ ∃ a, x = .ok a ∧ f a = .ok b := by
  cases x <;> simp

/-- A call with two steps fails exactly if one of them does. -/
theorem bind_eq_error_iff {x : Except ε α} {f : α → Except ε β} {e : ε} :
    (x >>= f) = .error e ↔ x = .error e ∨ ∃ a, x = .ok a ∧ f a = .error e := by
  cases x <;> simp

/-- What may be missing is looked up if it is there. -/
theorem mapM_eq_ok_iff {x : Option α} {f : α → Except ε β} {b : Option β} :
    x.mapM f = .ok b ↔ x = none ∧ b = none ∨ ∃ a c, x = some a ∧ f a = .ok c ∧ b = some c := by
  cases x with
  | none => simp [eq_comm]
  | some a => cases h : f a <;> simp [h, Functor.map, Except.map, eq_comm]

theorem exists_of_mapM {x : Option α} {f : α → Except ε β} {b : Option β} {a : α}
    (h : x.mapM f = .ok b) (hx : x = some a) : ∃ c, f a = .ok c := by
  rcases mapM_eq_ok_iff.mp h with ⟨hnone, -⟩ | ⟨a', c, ha', hc, -⟩
  · rw [hx] at hnone
    cases hnone
  · rw [hx] at ha'
    cases ha'
    exact ⟨c, hc⟩

/-- What a list of calls gives, one of them has given. -/
theorem exists_mem_of_mapM {f : α → Except ε β} {l : List α} {l' : List β} {b : β}
    (h : l.mapM f = .ok l') (hb : b ∈ l') : ∃ a ∈ l, f a = .ok b := by
  induction l generalizing l' with
  | nil =>
    rw [List.mapM_nil] at h
    cases h
    cases hb
  | cons a rest ih =>
    rw [List.mapM_cons] at h
    obtain ⟨b', hb', h⟩ := bind_eq_ok_iff.mp h
    obtain ⟨rest', hrest, h⟩ := bind_eq_ok_iff.mp h
    cases h
    -- the first call has given it, or one of the rest
    rcases List.mem_cons.mp hb with rfl | hb
    · exact ⟨a, List.mem_cons_self, hb'⟩
    · obtain ⟨a', ha', hf⟩ := ih hrest hb
      exact ⟨a', List.mem_cons_of_mem _ ha', hf⟩

/-- What may be missing is there if looking it up fails. -/
theorem exists_of_mapM_error {x : Option α} {f : α → Except ε β} {e : ε}
    (h : x.mapM f = .error e) : ∃ a, x = some a ∧ f a = .error e := by
  cases x with
  | none => cases h
  | some a =>
    refine ⟨a, rfl, ?_⟩
    cases ha : f a with
    | error e' => simpa [ha, Functor.map, Except.map] using h
    | ok b => simp [ha, Functor.map, Except.map] at h

/-- What a list of calls fails with, one of them has failed with. -/
theorem exists_mem_of_mapM_error {f : α → Except ε β} {l : List α} {e : ε}
    (h : l.mapM f = .error e) : ∃ a ∈ l, f a = .error e := by
  induction l with
  | nil => cases h
  | cons a rest ih =>
    rw [List.mapM_cons] at h
    -- the first call has failed, or all that follow have not come to an end
    rcases bind_eq_error_iff.mp h with ha | ⟨b, -, h⟩
    · exact ⟨a, List.mem_cons_self, ha⟩
    rcases bind_eq_error_iff.mp h with hrest | ⟨bs, -, h⟩
    · obtain ⟨a', ha', hf⟩ := ih hrest
      exact ⟨a', List.mem_cons_of_mem _ ha', hf⟩
    · cases h

theorem mapM_congr {x : Option α} {f g : α → Except ε β} (h : ∀ a, x = some a → f a = g a) :
    x.mapM f = x.mapM g := by
  cases x with
  | none => rfl
  | some a => exact congrArg (some <$> ·) (h a rfl)

/-- A result that is wrapped up at the end. -/
theorem bind_return_eq_map (x : Except ε α) (f : α → β) :
    (x >>= fun a => .ok (f a)) = x.map f := by
  cases x <;> rfl

theorem map_eq_ok_iff {x : Except ε α} {f : α → β} {b : β} :
    x.map f = .ok b ↔ ∃ a, x = .ok a ∧ f a = b := by
  cases x <;> simp [Except.map]

end Keyring
