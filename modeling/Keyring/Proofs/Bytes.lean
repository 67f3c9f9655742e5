import Keyring.Bytes
import Mathlib.Data.List.Induction
import Mathlib.Tactic.Ring
import Mathlib.Tactic.Linarith

/-!
# Byte strings as numbers

A byte string of a known length and the number it denotes determine each other:
`Bytes.value` and `Bytes.ofNat` are inverse on strings of `k` bytes and numbers
below `256 ^ k`.  Zero bytes in front change the length alone.

## Main results

* `Bytes.value_append`, `Bytes.value_lt` — the value of a string and its bound.
* `Bytes.value_ofNat`, `Bytes.ofNat_value` — the two directions of the inverse.
* `Bytes.value_inj` — strings of one length with one value are equal.
* `Bytes.lt_iff_value_lt` — the order of strings of one length is that of their values.
* `lt_two_pow_bitLength`, `two_pow_le_of_bitLength` — what the number of bits says.
-/

namespace Keyring

@[simp] theorem twoTo_eq (n : Nat) : twoTo n = 2 ^ n := rfl

/-! ### The number of bits -/

@[simp] theorem bitLength_zero : bitLength 0 = 0 := rfl

theorem bitLength_of_pos {n : Nat} (h : 0 < n) : bitLength n = Nat.log2 n + 1 := by
  rw [bitLength, if_neg (Nat.pos_iff_ne_zero.mp h)]

theorem lt_two_pow_bitLength (n : Nat) : n < 2 ^ bitLength n := by
  rcases Nat.eq_zero_or_pos n with rfl | h
  · decide
  · rw [bitLength_of_pos h]
    exact Nat.lt_log2_self

theorem two_pow_le_of_bitLength {n : Nat} (h : 0 < n) : 2 ^ (bitLength n - 1) ≤ n := by
  rw [bitLength_of_pos h]
  exact Nat.log2_self_le (Nat.pos_iff_ne_zero.mp h)

/-- A number has at most `k` bits exactly if it is below `2 ^ k`. -/
theorem bitLength_le_iff {n k : Nat} : bitLength n ≤ k ↔ n < 2 ^ k := by
  constructor
  · intro h
    exact Nat.lt_of_lt_of_le (lt_two_pow_bitLength n) (Nat.pow_le_pow_right (by decide) h)
  · intro h
    rcases Nat.eq_zero_or_pos n with rfl | hpos
    · exact Nat.zero_le k
    · have hlt := (Nat.pow_lt_pow_iff_right Nat.one_lt_two).mp
        (Nat.lt_of_le_of_lt (two_pow_le_of_bitLength hpos) h)
      omega

theorem pos_of_bitLength_pos {n : Nat} (h : 0 < bitLength n) : 0 < n := by
  rcases Nat.eq_zero_or_pos n with rfl | hn
  · exact absurd h (by decide)
  · exact hn

theorem le_eight_mul_bytesFor (b : Nat) : b ≤ 8 * bytesFor b := by
  unfold bytesFor
  omega

/-- The number of bytes from the two powers of 256 that a number lies between. -/
theorem byteLength_of_bounds {n k : Nat} (hlo : 256 ^ k ≤ n) (hhi : n < 256 ^ (k + 1)) :
    byteLength n = k + 1 := by
  have h256 : (256 : Nat) = 2 ^ 8 := by decide
  rw [h256, ← Nat.pow_mul] at hlo hhi
  -- bounds on the number become bounds on the number of its bits
  have hpos : 0 < n := Nat.lt_of_lt_of_le (Nat.two_pow_pos _) hlo
  have hgt := (Nat.pow_lt_pow_iff_right Nat.one_lt_two).mp
    (Nat.lt_of_le_of_lt hlo (lt_two_pow_bitLength n))
  have hlt := (Nat.pow_lt_pow_iff_right Nat.one_lt_two).mp
    (Nat.lt_of_le_of_lt (two_pow_le_of_bitLength hpos) hhi)
  unfold byteLength bytesFor
  omega

theorem lt_pow_byteLength (n : Nat) : n < 256 ^ byteLength n := by
  have h : (256 : Nat) ^ byteLength n = 2 ^ (8 * byteLength n) := by
    rw [Nat.pow_mul]
  rw [h]
  exact Nat.lt_of_lt_of_le (lt_two_pow_bitLength n)
    (Nat.pow_le_pow_right (by decide) (le_eight_mul_bytesFor _))

namespace Bytes

/-! ### The value of a string -/

@[simp] theorem value_nil : value [] = 0 := rfl

theorem foldl_value (b : Bytes) (v : Nat) :
    b.foldl (fun v x => v * 256 + x.toNat) v = v * 256 ^ b.length + value b := by
  unfold value
  induction b generalizing v with
  | nil => simp
  | cons x b ih =>
    rw [List.foldl_cons, List.foldl_cons, ih, ih (0 * 256 + x.toNat), List.length_cons]
    ring

theorem value_append (a b : Bytes) : value (a ++ b) = value a * 256 ^ b.length + value b := by
  rw [value, List.foldl_append]
  exact foldl_value b _

theorem value_cons (x : UInt8) (b : Bytes) :
    value (x :: b) = x.toNat * 256 ^ b.length + value b := by
  have h := value_append [x] b
  simpa [value] using h

theorem value_concat (b : Bytes) (x : UInt8) : value (b ++ [x]) = value b * 256 + x.toNat := by
  rw [value_append]
  simp [value]

theorem value_lt (b : Bytes) : value b < 256 ^ b.length := by
  induction b with
  | nil => decide
  | cons x b ih =>
    have hx : x.toNat + 1 ≤ 256 := x.toNat_lt
    calc value (x :: b) = x.toNat * 256 ^ b.length + value b := value_cons x b
      _ < x.toNat * 256 ^ b.length + 256 ^ b.length := Nat.add_lt_add_left ih _
      _ = (x.toNat + 1) * 256 ^ b.length := by ring
      _ ≤ 256 * 256 ^ b.length := Nat.mul_le_mul_right _ hx
      _ = 256 ^ (x :: b).length := by rw [List.length_cons, Nat.pow_succ, Nat.mul_comm]

/-- A bound on the front of a string, moved up by what follows. -/
theorem value_append_lt {a : Bytes} {k : Nat} (h : value a < k) (b : Bytes) :
    value (a ++ b) < k * 256 ^ b.length := by
  calc value (a ++ b) = value a * 256 ^ b.length + value b := value_append a b
    _ < value a * 256 ^ b.length + 256 ^ b.length := Nat.add_lt_add_left (value_lt b) _
    _ = (value a + 1) * 256 ^ b.length := by ring
    _ ≤ k * 256 ^ b.length := Nat.mul_le_mul_right _ h

theorem value_ofNat (k n : Nat) : value (ofNat k n) = n % 256 ^ k := by
  induction k generalizing n with
  | zero => simp [Nat.mod_one]
  | succ k ih =>
    have hx : (UInt8.ofNat n).toNat = n % 256 := UInt8.toNat_ofNat'
    rw [ofNat_succ, value_concat, ih, hx, Nat.pow_succ, Nat.mul_comm (256 ^ k) 256, Nat.mod_mul]
    ring

theorem value_ofNat_of_lt {k n : Nat} (h : n < 256 ^ k) : value (ofNat k n) = n := by
  rw [value_ofNat, Nat.mod_eq_of_lt h]

theorem ofNat_value (b : Bytes) : ofNat b.length (value b) = b := by
  induction b using List.reverseRecOn with
  | nil => rfl
  | append_singleton b x ih =>
    have hx : x.toNat < 256 := x.toNat_lt
    -- the last byte is what remains, the others are the quotient
    have hdiv : (value b * 256 + x.toNat) / 256 = value b := by omega
    have hbyte : UInt8.ofNat (value b * 256 + x.toNat) = x := by
      apply UInt8.toNat_inj.mp
      rw [UInt8.toNat_ofNat']
      omega
    rw [List.length_append, List.length_singleton, value_concat, ofNat_succ, hdiv, hbyte, ih]

/-- Strings of one length are told apart by their values. -/
theorem value_inj {a b : Bytes} (hlen : a.length = b.length) (hval : value a = value b) :
    a = b := by
  rw [← ofNat_value a, ← ofNat_value b, hlen, hval]

/-- Strings of one length are ordered by their first different bytes as their values are. -/
theorem lt_iff_value_lt {a b : Bytes} (hlen : a.length = b.length) :
    a < b ↔ value a < value b := by
  induction a generalizing b with
  | nil =>
    rw [List.length_nil, eq_comm, List.length_eq_zero_iff] at hlen
    simp [hlen]
  | cons x a ih =>
    obtain _ | ⟨y, b⟩ := b
    · simp at hlen
    have hlen' : a.length = b.length := Nat.succ_inj.mp hlen
    have ha := value_lt a
    have hb := value_lt b
    rw [List.cons_lt_cons_iff, ih hlen', value_cons, value_cons, hlen']
    rw [hlen'] at ha
    rcases Nat.lt_trichotomy x.toNat y.toNat with hxy | hxy | hxy
    · -- a smaller first byte outweighs all that follow
      have hstep : (x.toNat + 1) * 256 ^ b.length ≤ y.toNat * 256 ^ b.length :=
        Nat.mul_le_mul_right _ hxy
      rw [Nat.add_mul, Nat.one_mul] at hstep
      exact iff_of_true (.inl (UInt8.lt_iff_toNat_lt.mpr hxy)) (by omega)
    · obtain rfl := UInt8.toNat_inj.mp hxy
      simp [UInt8.lt_irrefl]
    · have hstep : (y.toNat + 1) * 256 ^ b.length ≤ x.toNat * 256 ^ b.length :=
        Nat.mul_le_mul_right _ hxy
      rw [Nat.add_mul, Nat.one_mul] at hstep
      refine iff_of_false ?_ (by omega)
      rintro (hlt | ⟨rfl, -⟩)
      · exact Nat.lt_asymm hxy (UInt8.lt_iff_toNat_lt.mp hlt)
      · exact Nat.lt_irrefl _ hxy

/-! ### Zeros in front -/

@[simp] theorem value_replicate_zero (n : Nat) : value (List.replicate n 0) = 0 := by
  induction n with
  | zero => rfl
  | succ n ih => rw [List.replicate_succ, value_cons, ih]; simp

theorem value_zeros_append (n : Nat) (b : Bytes) :
    value (List.replicate n 0 ++ b) = value b := by
  rw [value_append, value_replicate_zero, Nat.zero_mul, Nat.zero_add]

/-- Only zeros denote zero. -/
theorem value_eq_zero_iff {b : Bytes} : value b = 0 ↔ ∀ x ∈ b, x = 0 := by
  induction b with
  | nil => simp
  | cons x b ih =>
    have hpow : 256 ^ b.length ≠ 0 := Nat.ne_of_gt (Nat.pow_pos (by decide))
    rw [value_cons, Nat.add_eq_zero_iff, ih, Nat.mul_eq_zero, or_iff_left hpow,
      List.forall_mem_cons, ← UInt8.toNat_inj]
    rfl

@[simp] theorem value_padLeft (k : Nat) (b : Bytes) : value (padLeft k b) = value b :=
  value_zeros_append _ b

theorem length_padLeft {k : Nat} {b : Bytes} (h : b.length ≤ k) : (padLeft k b).length = k := by
  rw [padLeft, List.length_append, List.length_replicate]
  omega

theorem padLeft_of_length {k : Nat} {b : Bytes} (h : b.length = k) : padLeft k b = b := by
  rw [padLeft, h, Nat.sub_self, List.replicate_zero, List.nil_append]

/-- A string is its leading zeros and what is left without them. -/
theorem eq_zeros_append_dropZeros (b : Bytes) :
    b = List.replicate (b.length - (dropZeros b).length) 0 ++ dropZeros b := by
  induction b with
  | nil => rfl
  | cons x b ih =>
    by_cases hx : x = 0
    · subst hx
      have hle : (dropZeros b).length ≤ b.length :=
        List.IsSuffix.length_le (List.dropWhile_suffix _)
      have hdrop : dropZeros (0 :: b) = dropZeros b := rfl
      rw [hdrop, List.length_cons, Nat.succ_sub hle, List.replicate_succ, List.cons_append, ← ih]
    · have hdrop : dropZeros (x :: b) = x :: b := by simp [dropZeros, hx]
      simp [hdrop]

@[simp] theorem value_dropZeros (b : Bytes) : value (dropZeros b) = value b := by
  conv_rhs => rw [eq_zeros_append_dropZeros b]
  exact (value_zeros_append _ _).symm

theorem dropZeros_zeros_append {x : UInt8} (hx : x ≠ 0) (n : Nat) (b : Bytes) :
    dropZeros (List.replicate n 0 ++ x :: b) = x :: b := by
  induction n with
  | zero => simp [dropZeros, hx]
  | succ n ih =>
    rw [List.replicate_succ, List.cons_append]
    exact ih

/-! ### Exclusive or -/

theorem length_xor (a b : Bytes) : (xor a b).length = min a.length b.length :=
  List.length_zipWith

theorem length_xor_of_eq {a b : Bytes} (h : b.length = a.length) :
    (xor a b).length = a.length := by
  rw [length_xor, h, Nat.min_self]

@[simp] theorem xor_nil_left (b : Bytes) : xor [] b = [] := rfl

@[simp] theorem xor_nil_right (a : Bytes) : xor a [] = [] := by cases a <;> rfl

@[simp] theorem xor_cons (x y : UInt8) (a b : Bytes) :
    xor (x :: a) (y :: b) = (x ^^^ y) :: xor a b := rfl

/-- Masking twice with one mask changes nothing. -/
theorem xor_xor_cancel {a m : Bytes} (h : a.length ≤ m.length) : xor (xor a m) m = a := by
  induction a generalizing m with
  | nil => rfl
  | cons x a ih =>
    cases m with
    | nil => simp at h
    | cons y m =>
      rw [xor_cons, xor_cons, ih (by simpa using h), UInt8.xor_assoc, UInt8.xor_self,
        UInt8.xor_zero]

/-! ### The shortest string of a number -/

@[simp] theorem value_minimal (n : Nat) : value (minimal n) = n :=
  value_ofNat_of_lt (lt_pow_byteLength n)

@[simp] theorem length_minimal (n : Nat) : (minimal n).length = byteLength n := length_ofNat _ _

/-- A string without zeros in front is the shortest of its value. -/
theorem minimal_value_cons {x : UInt8} (hx : x ≠ 0) (b : Bytes) :
    minimal (value (x :: b)) = x :: b := by
  have hpos : 0 < x.toNat := Nat.pos_of_ne_zero fun h => hx (UInt8.toNat_inj.mp h)
  have hlo : 256 ^ b.length ≤ value (x :: b) := by
    rw [value_cons]
    exact Nat.le_add_right_of_le (Nat.le_mul_of_pos_left _ hpos)
  have hlen : byteLength (value (x :: b)) = (x :: b).length :=
    byteLength_of_bounds hlo (value_lt (x :: b))
  exact value_inj ((length_minimal _).trans hlen) (value_minimal _)

/-- Without its leading zeros a string is the shortest of its value. -/
theorem dropZeros_eq_minimal (b : Bytes) : dropZeros b = minimal (value b) := by
  induction b with
  | nil => rfl
  | cons x b ih =>
    by_cases hx : x = 0
    · subst hx
      have hdrop : dropZeros (0 :: b) = dropZeros b := by simp [dropZeros]
      rw [hdrop, ih, value_cons]
      simp
    · rw [minimal_value_cons hx]
      simp [dropZeros, hx]

/-- The shortest string does not begin with a zero. -/
theorem head?_minimal (n : Nat) : (minimal n).head? ≠ some 0 := by
  intro h
  obtain ⟨rest, hrest⟩ := List.head?_eq_some_iff.mp h
  have hdrop := dropZeros_eq_minimal (minimal n)
  rw [value_minimal] at hdrop
  -- dropping the zero would leave a shorter string of the same value
  have hlen : (dropZeros (minimal n)).length ≤ rest.length := by
    rw [hrest, dropZeros, List.dropWhile_cons_of_pos (by simp)]
    exact (List.dropWhile_suffix _).length_le
  rw [hdrop, hrest, List.length_cons] at hlen
  omega

end Bytes

end Keyring
