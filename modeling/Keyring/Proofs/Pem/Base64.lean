import Keyring.Pem.Base64
import Keyring.Proofs.Bytes
import Mathlib.Data.List.TakeWhile

/-!
# Base 64, written and read back

Three bytes are written as four characters, six bits each.  One or two bytes that are left over
are filled up with zeros; the characters of which nothing comes but these zeros are replaced by
signs `=`.

## Main definitions

* `Base64.encode` — the text of a byte string, in one line.

## Main results

* `Base64.join_sextets` — the values of the characters give the bytes back.
* `Base64.decode_encode` — **what was written is read back.**
-/

namespace Keyring.Base64

open Bytes

/-! ### Characters -/

/-- The character of a value below 64. -/
def char (v : Nat) : UInt8 :=
  if v < 26 then UInt8.ofNat (v + 65)
  else if v < 52 then UInt8.ofNat (v + 71)
  else if v < 62 then UInt8.ofNat (v - 4)
  else if v = 62 then 43
  else 47

/-- Characters have their values, and no other meaning. -/
theorem digit?_char : ∀ v : Fin 64, digit? (char v) = some v.val ∧ char v ≠ 61 ∧
    char v ≠ 45 ∧ isBlank (char v) = false := by
  decide

/-! ### Values -/

/-- The values of the four characters of three bytes. -/
def group (b : Bytes) : List Nat :=
  [value b / 64 / 64 / 64, value b / 64 / 64 % 64, value b / 64 % 64, value b % 64]

/-- The values of the characters of a byte string. -/
def sextets : Bytes → List Nat
  | a :: b :: c :: rest => group [a, b, c] ++ sextets rest
  | [a, b] => (group [a, b, 0]).take 3
  | [a] => (group [a, 0, 0]).take 2
  | [] => []

/-- The number of bytes that are missing in the last group. -/
def missing (b : Bytes) : Nat := (3 - b.length % 3) % 3

theorem missing_cons_three (a b c : UInt8) (rest : Bytes) :
    missing (a :: b :: c :: rest) = missing rest := by
  simp only [missing, List.length_cons]
  omega

theorem value_three (a b c : UInt8) :
    value [a, b, c] = (a.toNat * 256 + b.toNat) * 256 + c.toNat := by
  simp [value]

/-- Four values are those of three bytes. -/
theorem join_group (a b c : UInt8) (rest : List Nat) :
    join (group [a, b, c] ++ rest) = [a, b, c] ++ join rest := by
  have hvalue : ((value [a, b, c] / 64 / 64 / 64 * 64 + value [a, b, c] / 64 / 64 % 64) * 64 +
      value [a, b, c] / 64 % 64) * 64 + value [a, b, c] % 64 = value [a, b, c] := by omega
  show Bytes.ofNat 3 _ ++ join rest = _
  rw [hvalue]
  exact congrArg (· ++ join rest) (ofNat_value [a, b, c])

/-- The values that were left out are zero. -/
theorem group_two (a b : UInt8) : group [a, b, 0] = (group [a, b, 0]).take 3 ++ [0] := by
  have hlast : value [a, b, 0] % 64 = 0 := by
    rw [value_three, UInt8.toNat_zero]
    omega
  simp [group, hlast]

theorem group_one (a : UInt8) : group [a, 0, 0] = (group [a, 0, 0]).take 2 ++ [0, 0] := by
  have hthird : value [a, 0, 0] / 64 % 64 = 0 := by
    rw [value_three, UInt8.toNat_zero]
    omega
  have hlast : value [a, 0, 0] % 64 = 0 := by
    rw [value_three, UInt8.toNat_zero]
    omega
  simp [group, hthird, hlast]

/-- **The values of the characters give the bytes back**, and what they were filled up with. -/
theorem join_sextets (b : Bytes) :
    join (sextets b ++ List.replicate (missing b) 0) = b ++ List.replicate (missing b) 0 := by
  induction b using sextets.induct with
  | case1 a b c rest ih =>
    rw [missing_cons_three, sextets, List.append_assoc, join_group, ih]
    rfl
  | case2 a b =>
    have hjoin := join_group a b 0 []
    rw [List.append_nil, group_two] at hjoin
    exact hjoin
  | case3 a =>
    have hjoin := join_group a 0 0 []
    rw [List.append_nil, group_one] at hjoin
    exact hjoin
  | case4 => rfl

theorem lt_of_mem_sextets {b : Bytes} {v : Nat} (h : v ∈ sextets b) : v < 64 := by
  have hgroup : ∀ a b c : UInt8, ∀ v ∈ group [a, b, c], v < 64 := by
    intro a b c v hv
    have hlt := value_lt [a, b, c]
    simp only [group, List.mem_cons, List.not_mem_nil, or_false, List.length_cons,
      List.length_nil] at hv hlt
    omega
  induction b using sextets.induct with
  | case1 a b c rest ih =>
    rcases List.mem_append.mp h with h | h
    · exact hgroup a b c v h
    · exact ih h
  | case2 a b => exact hgroup a b 0 v (List.mem_of_mem_take h)
  | case3 a => exact hgroup a 0 0 v (List.mem_of_mem_take h)
  | case4 => cases h

/-- There are four characters to every group. -/
theorem length_sextets (b : Bytes) :
    (sextets b).length + missing b = (b.length + missing b) / 3 * 4 ∧
      (b.length + missing b) % 3 = 0 := by
  induction b using sextets.induct with
  | case1 a b c rest ih =>
    rw [missing_cons_three, sextets, List.length_append]
    simp only [group, List.length_cons, List.length_nil]
    omega
  | case2 a b => simp [sextets, group, missing]
  | case3 a => simp [sextets, group, missing]
  | case4 => simp [sextets, missing]

/-! ### Texts -/

/-- The text of a byte string, in one line. -/
def encode (b : Bytes) : Bytes := (sextets b).map char ++ List.replicate (missing b) 61

/-- All characters of a text are of the alphabet, or signs at its end. -/
theorem mem_encode {b : Bytes} {c : UInt8} (h : c ∈ encode b) :
    (∃ v : Fin 64, c = char v) ∨ c = 61 := by
  rcases List.mem_append.mp h with h | h
  · obtain ⟨v, hv, rfl⟩ := List.mem_map.mp h
    exact .inl ⟨⟨v, lt_of_mem_sextets hv⟩, rfl⟩
  · exact .inr (List.eq_of_mem_replicate h)

/-- All characters of a text have a meaning. -/
theorem significant_encode (b : Bytes) : significant (encode b) = encode b := by
  have hmem : ∀ c ∈ encode b, c ≠ 45 ∧ isBlank c = false := by
    intro c hc
    rcases mem_encode hc with ⟨v, rfl⟩ | rfl
    · exact (digit?_char v).2.2
    · decide
  rw [significant, List.takeWhile_eq_self_iff.mpr, List.filter_eq_self.mpr]
  · intro c hc
    rw [(hmem c hc).2]
    rfl
  · intro c hc
    exact bne_iff_ne.mpr (hmem c hc).1

theorem mapM_digit? {values : List Nat} (h : ∀ v ∈ values, v < 64) :
    (values.map char).mapM digit? = some values := by
  induction values with
  | nil => rfl
  | cons v values ih =>
    obtain ⟨hv, hvalues⟩ := List.forall_mem_cons.mp h
    rw [List.map_cons, List.mapM_cons, (digit?_char ⟨v, hv⟩).1, ih hvalues]
    rfl

/-- **What was written is read back.** -/
theorem decode_encode (b : Bytes) : decode (encode b) = some b := by
  have hlt : ∀ v ∈ sextets b, v < 64 := fun v hv => lt_of_mem_sextets hv
  have hmissing : missing b ≤ 2 := by
    unfold missing
    omega
  -- the characters come before the signs
  have hbody : (encode b).takeWhile (· != 61) = (sextets b).map char := by
    have hchars : ∀ c ∈ (sextets b).map char, (c != 61) = true := by
      intro c hc
      obtain ⟨v, hv, rfl⟩ := List.mem_map.mp hc
      exact bne_iff_ne.mpr (digit?_char ⟨v, hlt v hv⟩).2.1
    rw [encode, List.takeWhile_append_of_pos hchars, List.takeWhile_replicate]
    exact List.append_nil _
  have hsigns : (encode b).drop ((sextets b).map char).length = List.replicate (missing b) 61 := by
    rw [encode, List.drop_left]
  have hlength : (encode b).length = (b.length + missing b) / 3 * 4 := by
    rw [encode, List.length_append, List.length_map, List.length_replicate, (length_sextets b).1]
  have hvalid : ((encode b).length % 4 ≠ 0 ||
      2 < (List.replicate (missing b) (61 : UInt8)).length ||
      (List.replicate (missing b) (61 : UInt8)).any (· != 61)) = false := by
    simp [hlength, hmissing]
  unfold decode
  rw [significant_encode]
  simp only [hbody, hsigns]
  rw [hvalid, if_neg Bool.false_ne_true]
  simp only [mapM_digit? hlt, Option.bind_eq_bind, Option.bind_some, List.map_replicate,
    List.length_replicate, join_sextets]
  -- what was filled up is cut off again
  have htake : (encode b).length / 4 * 3 - missing b = b.length := by
    have hgroups := (length_sextets b).2
    rw [hlength]
    omega
  rw [htake, List.take_left]
  rfl

end Keyring.Base64
