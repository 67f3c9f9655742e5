import Keyring.Error
import Keyring.Service.Object

/-!
# The registry of objects

Every object has an entry under its reference, with a count of its owners: callers
and the transforms that hold on to it.  References are given out in ascending order
and never twice.  An entry whose last owner lets go is removed, and what its object
held on to is let go of in turn.

## Main definitions

* `Registry` — the entries and the last reference given out.
* `Registry.insert`, `Registry.retain`, `Registry.replace` — changes of single entries.
* `Registry.releaseAll` — gives references back, one after the other.
* `Registry.object`, `Registry.key`, … — the object of a reference, of a wanted kind.
* `Service` — a call of the service.
-/

namespace Keyring

/-- An object with the number of its owners. -/
structure Entry where
  object : NativeObject
  /-- The number of its owners. -/
  count : Nat

/-- Gives up one of several owners. -/
def Entry.disown (e : Entry) : Entry := { e with count := e.count - 1 }

/-- What removing an entry or giving up one of its owners makes smaller. -/
def Entry.weight (e : Entry) : Nat := e.count + 1

theorem Entry.weight_pos (e : Entry) : 0 < e.weight := Nat.succ_pos e.count

theorem Entry.weight_disown_le (e : Entry) : e.disown.weight ≤ e.weight :=
  Nat.succ_le_succ (Nat.sub_le e.count 1)

theorem Entry.weight_disown_lt {e : Entry} (h : 1 < e.count) : e.disown.weight < e.weight := by
  simp only [weight, disown]
  omega

/-- The objects of the service. -/
structure Registry where
  /-- The last reference given out; zero if there was none. -/
  last : Ref := 0
  /-- The entries, in ascending order of references. -/
  entries : List (Ref × Entry) := []

namespace Registry

/-- The entry of a reference. -/
def find? (r : Registry) (x : Ref) : Option Entry := r.entries.lookup x

/-- The number of objects there are. -/
def size (r : Registry) : Nat := r.entries.length

/-- Adds an object with one owner, under a new reference. -/
def insert (r : Registry) (o : NativeObject) : Registry :=
  { last := r.last + 1, entries := r.entries ++ [(r.last + 1, ⟨o, 1⟩)] }

/-- Changes the entry of a reference. -/
def modify (r : Registry) (x : Ref) (f : Entry → Entry) : Registry :=
  { r with entries := r.entries.map fun p => if p.1 = x then (p.1, f p.2) else p }

/-- Removes the entry of a reference. -/
def erase (r : Registry) (x : Ref) : Registry :=
  { r with entries := r.entries.filter fun p => p.1 != x }

/-- Adds an owner to an object. -/
def retain (r : Registry) (x : Ref) : Registry :=
  r.modify x fun e => { e with count := e.count + 1 }

/-- Replaces an object, leaving its owners. -/
def replace (r : Registry) (x : Ref) (o : NativeObject) : Registry :=
  r.modify x fun e => { e with object := o }

/-- The weight of entries together. -/
def totalWeight : List (Ref × Entry) → Nat
  | [] => 0
  | p :: rest => p.2.weight + totalWeight rest

/-- The weight of all entries together. -/
def weight (r : Registry) : Nat := totalWeight r.entries

/-! ### Giving references back -/

theorem totalWeight_filter_le (x : Ref) (l : List (Ref × Entry)) :
    totalWeight (l.filter fun p => p.1 != x) ≤ totalWeight l := by
  induction l with
  | nil => exact Nat.le_refl _
  | cons p rest ih =>
    by_cases h : p.1 = x
    · rw [List.filter_cons_of_neg (by simp [h])]
      exact Nat.le_trans ih (Nat.le_add_left _ _)
    · rw [List.filter_cons_of_pos (by simp [h])]
      exact Nat.add_le_add_left ih _

theorem totalWeight_disown_le (x : Ref) (l : List (Ref × Entry)) :
    totalWeight (l.map fun p => if p.1 = x then (p.1, Entry.disown p.2) else p) ≤
      totalWeight l := by
  induction l with
  | nil => exact Nat.le_refl _
  | cons p rest ih =>
    rw [List.map_cons]
    refine Nat.add_le_add ?_ ih
    by_cases h : p.1 = x
    · rw [if_pos h]
      exact p.2.weight_disown_le
    · exact Nat.le_of_eq (by rw [if_neg h])

theorem weight_erase_lt {r : Registry} {x : Ref} {e : Entry} (h : r.find? x = some e) :
    (r.erase x).weight < r.weight := by
  obtain ⟨last, entries⟩ := r
  simp only [find?, erase, weight] at h ⊢
  induction entries with
  | nil => simp at h
  | cons p rest ih =>
    obtain ⟨y, f⟩ := p
    by_cases hy : y = x
    · rw [List.filter_cons_of_neg (by simp [hy])]
      exact Nat.lt_of_le_of_lt (totalWeight_filter_le x rest)
        (Nat.lt_add_of_pos_left f.weight_pos)
    · have hne : (x == y) = false := by simp [Ne.symm hy]
      rw [List.lookup_cons, hne] at h
      rw [List.filter_cons_of_pos (by simp [hy])]
      exact Nat.add_lt_add_left (ih h) _

theorem weight_disown_lt {r : Registry} {x : Ref} {e : Entry} (h : r.find? x = some e)
    (hc : 1 < e.count) : (r.modify x Entry.disown).weight < r.weight := by
  obtain ⟨last, entries⟩ := r
  simp only [find?, modify, weight] at h ⊢
  induction entries with
  | nil => simp at h
  | cons p rest ih =>
    obtain ⟨y, f⟩ := p
    rw [List.map_cons]
    by_cases hy : y = x
    · subst hy
      rw [List.lookup_cons_self, Option.some.injEq] at h
      subst h
      rw [if_pos rfl]
      exact Nat.add_lt_add_of_lt_of_le (Entry.weight_disown_lt hc) (totalWeight_disown_le y rest)
    · have hne : (x == y) = false := by simp [Ne.symm hy]
      rw [List.lookup_cons, hne] at h
      rw [if_neg hy]
      exact Nat.add_lt_add_left (ih h) _

/-- Gives references back in order.  An object that loses its last owner is removed,
and what it held on to is given back before the rest.  A reference without an object
ends this with the registry as it is by then. -/
def releaseAll (r : Registry) : List Ref → EStateM.Result Halt Registry Unit
  | [] => .ok () r
  | x :: rest =>
    match h : r.find? x with
    | none => .error .overRelease r
    | some e =>
      if hc : 1 < e.count then
        have := weight_disown_lt h hc
        releaseAll (r.modify x Entry.disown) rest
      else
        have := weight_erase_lt h
        -- the last owner is gone
        releaseAll (r.erase x) (e.object.retained ++ rest)
termination_by r.weight

/-! ### Objects of a wanted kind -/

/-- The object of a reference. -/
def object (r : Registry) (x : Ref) : Except ServiceError NativeObject :=
  match r.find? x with
  | some e => .ok e.object
  | none => .error .unknownReference

/-- The certificate of a reference. -/
def certificate (r : Registry) (x : Ref) : Except ServiceError X509 := do
  match ← r.object x with
  | .certificate c => return c
  | _ => throw .notCertificate

/-- The key of a reference. -/
def key (r : Registry) (x : Ref) : Except ServiceError KeyObject := do
  match ← r.object x with
  | .key k => return k
  | _ => throw .notKey

/-- The byte string of a reference. -/
def data (r : Registry) (x : Ref) : Except ServiceError Bytes := do
  match ← r.object x with
  | .data b => return b
  | _ => throw .notData

/-- The number of a reference. -/
def number (r : Registry) (x : Ref) : Except ServiceError Int := do
  match ← r.object x with
  | .number v => return v
  | _ => throw .notNumber

/-- The truth value of a reference. -/
def boolean (r : Registry) (x : Ref) : Except ServiceError Bool := do
  match ← r.object x with
  | .boolean v => return v
  | _ => throw .notBoolean

/-- The transform of a reference. -/
def transform (r : Registry) (x : Ref) : Except ServiceError Transform := do
  match ← r.object x with
  | .transform t => return t
  | _ => throw .notTransform

/-- The transform of a reference, to be changed; that there is no object at all is
not told apart. -/
def transformToChange (r : Registry) (x : Ref) : Except ServiceError Transform :=
  match r.find? x with
  | some ⟨.transform t, _⟩ => .ok t
  | _ => .error .notTransform

end Registry

/-! ### Calls -/

/-- A call of the service: it changes the registry and ends with a result or a
failure, or is abandoned. -/
abbrev Service (α : Type) := EStateM Halt Registry (Except ServiceError α)

namespace Service

/-- A call that only looks at the registry. -/
def query {α : Type} (f : Registry → Except ServiceError α) : Service α := fun r => .ok (f r) r

/-- A call that adds an object if it can be made. -/
def create (f : Registry → Except ServiceError NativeObject) : Service Ref := fun r =>
  match f r with
  | .ok o => .ok (.ok (r.last + 1)) (r.insert o)
  | .error e => .ok (.error e) r

/-- Gives a reference back. -/
def release (x : Ref) : EStateM Halt Registry Unit := fun r => r.releaseAll [x]

end Service

end Keyring
