import Keyring.Proofs.Bytes
import Keyring.Pss.Bits
import Mathlib.Tactic.IntervalCases

/-!
# Clearing leading bits is reduction modulo a power of two

The `x` leading bits of a string of `n` bytes are those of weight `2 ^ (8 * n - x)`
and above.  Clearing them takes the value modulo that power, and they are clear
exactly when the value is below it.  Clearing goes through exclusive or, which is
what lets an encoder mask first and clear afterwards.

## Main results

* `value_clearLeading`, `leadingClear_iff_value_lt` — clearing and testing, on values.
* `leadingClear_iff` — the test holds exactly of the strings that clearing keeps.
* `clearLeading_xor` — clearing an exclusive or.
-/

namespace Keyring.Pss

open Bytes

/-! ### A single byte -/

/-- The mask of the first byte leaves the low-order bits. -/
theorem toNat_and_mask {x : Nat} (hx : x < 8) (b : UInt8) :
    (b &&& (0xff >>> UInt8.ofNat x)).toNat = b.toNat % 2 ^ (8 - x) := by
  have hmask : ((0xff : UInt8) >>> UInt8.ofNat x).toNat = 2 ^ (8 - x) - 1 := by
    interval_cases x <;> rfl
  rw [UInt8.toNat_and, hmask, Nat.and_two_pow_sub_one_eq_mod]

/-- A byte has nothing outside a mask exactly if the mask keeps it. -/
theorem and_not_eq_zero_iff (b m : UInt8) : b &&& ~~~m = 0 ↔ b &&& m = b := by
  have hbit : ∀ x y : Bool, (x && !y) = false ↔ (x && y) = x := by decide
  rw [← UInt8.toBitVec_inj, ← UInt8.toBitVec_inj, BitVec.eq_of_getElem_eq_iff,
    BitVec.eq_of_getElem_eq_iff]
  simp only [UInt8.toBitVec_and, UInt8.toBitVec_not, UInt8.toBitVec_zero, BitVec.getElem_and,
    BitVec.getElem_not, BitVec.getElem_zero, hbit]

theorem xor_and_mask (a b m : UInt8) : (a ^^^ b) &&& m = (a &&& m) ^^^ (b &&& m) := by
  rw [← UInt8.toNat_inj]
  simp only [UInt8.toNat_and, UInt8.toNat_xor]
  exact Nat.and_xor_distrib_right

/-! ### Equations -/

@[simp] theorem clearLeading_nil (x : Nat) : clearLeading x [] = [] := rfl

theorem clearLeading_cons_of_le {x : Nat} (hx : 8 ≤ x) (b : UInt8) (v : Bytes) :
    clearLeading x (b :: v) = 0 :: clearLeading (x - 8) v := by
  rw [clearLeading, if_pos hx]

theorem clearLeading_cons_of_lt {x : Nat} (hx : x < 8) (b : UInt8) (v : Bytes) :
    clearLeading x (b :: v) = (b &&& (0xff >>> UInt8.ofNat x)) :: v := by
  rw [clearLeading, if_neg (Nat.not_le.mpr hx)]

@[simp] theorem leadingClear_nil (x : Nat) : leadingClear x [] = true := rfl

/-! ### Clearing -/

theorem clearLeading_xor (x : Nat) (a b : Bytes) :
    clearLeading x (xor a b) = xor (clearLeading x a) (clearLeading x b) := by
  induction a generalizing x b with
  | nil => simp
  | cons p a ih =>
    cases b with
    | nil => simp
    | cons q b =>
      rw [xor_cons]
      rcases Nat.lt_or_ge x 8 with hx | hx
      · rw [clearLeading_cons_of_lt hx, clearLeading_cons_of_lt hx, clearLeading_cons_of_lt hx,
          xor_cons, xor_and_mask]
      · rw [clearLeading_cons_of_le hx, clearLeading_cons_of_le hx, clearLeading_cons_of_le hx,
          xor_cons, ih, UInt8.xor_self]

theorem clearLeading_clearLeading (x : Nat) (v : Bytes) :
    clearLeading x (clearLeading x v) = clearLeading x v := by
  induction v generalizing x with
  | nil => rfl
  | cons b v ih =>
    rcases Nat.lt_or_ge x 8 with hx | hx
    · rw [clearLeading_cons_of_lt hx, clearLeading_cons_of_lt hx, UInt8.and_assoc,
        UInt8.and_self]
    · rw [clearLeading_cons_of_le hx, clearLeading_cons_of_le hx, ih]

/-- The test holds exactly of the strings that clearing leaves alone. -/
theorem leadingClear_iff (x : Nat) (v : Bytes) :
    leadingClear x v = true ↔ clearLeading x v = v := by
  induction v generalizing x with
  | nil => simp
  | cons b v ih =>
    rcases Nat.lt_or_ge x 8 with hx | hx
    · rw [clearLeading_cons_of_lt hx, leadingClear, if_neg (Nat.not_le.mpr hx), beq_iff_eq,
        and_not_eq_zero_iff, List.cons.injEq, and_iff_left rfl]
    · rw [clearLeading_cons_of_le hx, leadingClear, if_pos hx, Bool.and_eq_true, beq_iff_eq, ih,
        List.cons.injEq, eq_comm]

theorem leadingClear_clearLeading (x : Nat) (v : Bytes) :
    leadingClear x (clearLeading x v) = true :=
  (leadingClear_iff x _).mpr (clearLeading_clearLeading x v)

/-- Clearing, masking and clearing again undoes the mask up to the cleared bits. -/
theorem clearLeading_xor_clearLeading_xor {x : Nat} {v m : Bytes} (h : v.length ≤ m.length) :
    clearLeading x (xor (clearLeading x (xor v m)) m) = clearLeading x v := by
  rw [clearLeading_xor, clearLeading_clearLeading, ← clearLeading_xor, xor_xor_cancel h]

/-! ### Values -/

theorem value_clearLeading (x : Nat) (v : Bytes) :
    value (clearLeading x v) = value v % 2 ^ (8 * v.length - x) := by
  induction v generalizing x with
  | nil => simp
  | cons b v ih =>
    have hpow : (256 : Nat) ^ v.length = 2 ^ (8 * v.length) := by rw [Nat.pow_mul]
    rw [value_cons, List.length_cons]
    rcases Nat.lt_or_ge x 8 with hx | hx
    · -- the cut is in the first byte, and what follows it remains as it is
      have hsplit : 8 * (v.length + 1) - x = 8 * v.length + (8 - x) := by omega
      have hv : value v < 2 ^ (8 * v.length) := hpow ▸ value_lt v
      have hmod : (b.toNat * 256 ^ v.length + value v) % 2 ^ (8 * v.length) = value v := by
        rw [hpow, Nat.add_comm, Nat.add_mul_mod_self_right, Nat.mod_eq_of_lt hv]
      have hdiv : (b.toNat * 256 ^ v.length + value v) / 2 ^ (8 * v.length) = b.toNat := by
        rw [hpow, Nat.add_comm, Nat.add_mul_div_right _ _ (Nat.two_pow_pos _),
          Nat.div_eq_of_lt hv, Nat.zero_add]
      rw [clearLeading_cons_of_lt hx, value_cons, toNat_and_mask hx, hsplit, Nat.pow_add,
        Nat.mod_mul, hmod, hdiv, hpow]
      ring
    · -- the first byte goes away whole, being a multiple of the power
      have hdvd : 2 ^ (8 * v.length - (x - 8)) ∣ b.toNat * 256 ^ v.length := by
        rw [hpow]
        exact Dvd.dvd.mul_left (Nat.pow_dvd_pow 2 (Nat.sub_le _ _)) _
      have hexp : 8 * (v.length + 1) - x = 8 * v.length - (x - 8) := by omega
      rw [clearLeading_cons_of_le hx, value_cons, length_clearLeading, ih, hexp,
        UInt8.toNat_zero, Nat.zero_mul, Nat.zero_add, Nat.add_mod, Nat.mod_eq_zero_of_dvd hdvd,
        Nat.zero_add, Nat.mod_mod]

theorem leadingClear_iff_value_lt (x : Nat) (v : Bytes) :
    leadingClear x v = true ↔ value v < 2 ^ (8 * v.length - x) := by
  rw [leadingClear_iff]
  constructor
  · intro h
    rw [← h, value_clearLeading, length_clearLeading]
    exact Nat.mod_lt _ (Nat.two_pow_pos _)
  · intro h
    apply value_inj (length_clearLeading x v)
    rw [value_clearLeading, Nat.mod_eq_of_lt h]

/-- Nothing is left of a string that does not have more bits than are cleared. -/
theorem value_clearLeading_of_le {x : Nat} {v : Bytes} (h : 8 * v.length ≤ x) :
    value (clearLeading x v) = 0 := by
  rw [value_clearLeading, Nat.sub_eq_zero_of_le h, Nat.pow_zero, Nat.mod_one]

theorem leadingClear_iff_value_eq_zero {x : Nat} {v : Bytes} (h : 8 * v.length ≤ x) :
    leadingClear x v = true ↔ value v = 0 := by
  rw [leadingClear_iff_value_lt, Nat.sub_eq_zero_of_le h, Nat.pow_zero, Nat.lt_one_iff]

end Keyring.Pss
