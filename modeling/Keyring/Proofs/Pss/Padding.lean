import Keyring.Proofs.Pss.Encoding
import Keyring.Pss.Padding

/-!
# PSS padding by the numbers of blocks

A block that comes out of a raw operation has the length of the modulus, which may be a
byte more than an encoding has.  What counts is the number that it denotes: the check
accepts exactly the blocks that denote the number of an encoding.  For a modulus of less
than `2 ^ 35` bits neither the encoder nor the check runs out of masks, so they come to
an end; this is all that the size of a key is bounded for.

## Main results

* `maskLength_le` — the mask of a block is within reach of the counter.
* `fitBlock_eq_some_iff` — a block is brought to a length without changing its number.
* `addPadding_eq`, `addPadding_error`, `addPadding_cases` — when there is an encoding of a
  message.
* `exists_verifyPadding` — **the check accepts a block for its number.**
-/

namespace Keyring.Pss

open Bytes

/-- A block is brought to a length without changing the number that it denotes. -/
theorem fitBlock_eq_some_iff {block em : Bytes} {n : Nat} :
    fitBlock block n = some em ↔ n ≤ block.length ∧ em.length = n ∧ value em = value block := by
  unfold fitBlock
  by_cases hlen : block.length < n
  · rw [if_pos hlen]
    simp [Nat.not_le.mpr hlen]
  · rw [if_neg hlen]
    have hle : n ≤ block.length := Nat.not_lt.mp hlen
    have hdrop : (block.drop (block.length - n)).length = n := by
      rw [List.length_drop]
      omega
    have hvalue := value_append (block.take (block.length - n)) (block.drop (block.length - n))
    rw [List.take_append_drop, hdrop] at hvalue
    have hzero : (block.take (block.length - n)).all (· == 0) = true ↔
        value (block.take (block.length - n)) = 0 := by
      rw [value_eq_zero_iff, List.all_eq_true]
      exact forall_congr' fun x => imp_congr_right fun _ => beq_iff_eq
    dsimp only
    split
    · next hall =>
      rw [hzero.mp hall, Nat.zero_mul, Nat.zero_add] at hvalue
      constructor
      · intro h
        cases h
        exact ⟨hle, hdrop, hvalue.symm⟩
      · rintro ⟨-, hemlen, hem⟩
        rw [value_inj (hdrop.trans hemlen.symm) (hvalue.symm.trans hem.symm)]
    · next hall =>
      simp only [reduceCtorEq, false_iff]
      rintro ⟨-, hemlen, hem⟩
      -- a number that fits the shorter block has only zeros in front
      have hlt := value_lt em
      rw [hemlen, hem, hvalue] at hlt
      refine hall (hzero.mpr (Nat.eq_zero_of_not_pos fun hpos => ?_))
      have hmul := Nat.le_mul_of_pos_left (256 ^ n) hpos
      omega

/-! ### Padding a message -/

section Padding

variable {a : HashAlgorithm} {keyBits : Nat} {message salt : Bytes}

theorem usableDigest_name (ha : a ≠ .md5) (hbits : 512 ≤ keyBits) :
    usableDigest a.name keyBits = .ok a := by
  have hdigest : digest? a.name = some a := by
    cases a <;> first | rfl | exact absurd rfl ha
  rw [usableDigest, hdigest]
  exact if_neg (Nat.not_lt.mpr hbits)

theorem saltLength_eq (ha : a ≠ .md5) : saltLength a = a.digestLength := by
  cases a <;> first | rfl | exact absurd rfl ha

theorem digestLength_bounds (a : HashAlgorithm) : 16 ≤ a.digestLength ∧ a.digestLength ≤ 64 := by
  cases a <;> decide

/-- A modulus of less than `2 ^ 35` bits does not exhaust the mask. -/
theorem maskLength_le (a : HashAlgorithm) (h : keyBits < 2 ^ 35) :
    bytesFor (keyBits - 1) - a.function.length - 1 ≤ (twoTo 32 - 1) * a.function.length := by
  have hlen : 16 ≤ a.function.length := (digestLength_bounds a).1
  have hbytes : bytesFor (keyBits - 1) ≤ 2 ^ 32 := by
    unfold bytesFor
    omega
  have hmul := Nat.mul_le_mul_left (twoTo 32 - 1) hlen
  rw [twoTo_eq] at *
  omega

theorem addPadding_eq (ha : a ≠ .md5) (hbits : 512 ≤ keyBits) :
    addPadding a.name keyBits message salt =
      encode a.function (a.digest message) (keyBits - 1) salt := by
  rw [addPadding, usableDigest_name ha hbits]
  rfl

/-- There is no padding for a modulus that is too small. -/
theorem addPadding_error (message : Bytes) (ha : a ≠ .md5) (hsalt : salt.length = a.digestLength)
    (h : ¬(512 ≤ keyBits ∧ 2 * a.digestLength + 2 ≤ bytesFor (keyBits - 1))) :
    addPadding a.name keyBits message salt = .error .invalidParameter ∨
      addPadding a.name keyBits message salt = .error .keyTooShort := by
  by_cases hbits : 512 ≤ keyBits
  · have hfit : bytesFor (keyBits - 1) < a.function.length + salt.length + 2 := by
      have hlen : a.function.length = a.digestLength := rfl
      omega
    have hnot : ¬a.function.length < salt.length := by
      rw [hsalt]
      exact Nat.lt_irrefl _
    right
    rw [addPadding_eq ha hbits, encode]
    simp [hnot, hfit]
  · have hdigest : digest? a.name = some a := by
      cases a <;> first | rfl | exact absurd rfl ha
    left
    rw [addPadding, usableDigest, hdigest]
    simp [Nat.not_le.mp hbits, minKeyBits]

/-- **The check accepts a block for its number.**  It comes to an end on every block, and
accepts those that denote the number of an encoding of the message. -/
theorem exists_verifyPadding (message : Bytes) (ha : a ≠ .md5) (hbits : 512 ≤ keyBits)
    (hmax : keyBits < 2 ^ 35) {block : Bytes} (hblock : bytesFor (keyBits - 1) ≤ block.length) :
    ∃ valid, verifyPadding a.name (saltLength a) keyBits message block = .ok valid ∧
      (valid = true ↔ ∃ salt em, salt.length = a.digestLength ∧
        encode a.function (a.digest message) (keyBits - 1) salt = .ok em ∧
        value em = value block) := by
  have hmask := maskLength_le a hmax
  have hbounds := digestLength_bounds a
  have hlength : a.function.length = a.digestLength := rfl
  rw [verifyPadding, usableDigest_name ha hbits, ok_bind, saltLength_eq ha]
  cases hfit : fitBlock block (bytesFor (keyBits - 1)) with
  | none =>
    refine ⟨false, rfl, ?_⟩
    simp only [Bool.false_eq_true, false_iff]
    rintro ⟨salt, em, -, henc, hvalue⟩
    obtain ⟨hlen, -, -⟩ := encode_framed _ _ hmask henc
    rw [fitBlock_eq_some_iff.mpr ⟨hblock, hlen, hvalue⟩] at hfit
    cases hfit
  | some em =>
    obtain ⟨-, hlen, hvalue⟩ := fitBlock_eq_some_iff.mp hfit
    obtain ⟨valid, after, hverify, hvalid⟩ := verify_iff_exists_encode a.function
      (a.digest message) em hmask (Nat.le_of_eq hlength.symm) (by rw [twoTo_eq]; omega)
    refine ⟨valid, by simp only [hverify, ok_bind, pure_eq_ok], hvalid.trans ⟨?_, ?_⟩⟩
    · rintro ⟨salt, hsalt, henc⟩
      exact ⟨salt, em, hsalt, henc, hvalue⟩
    · rintro ⟨salt, em', hsalt, henc, hvalue'⟩
      obtain ⟨hlen', -, -⟩ := encode_framed _ _ hmask henc
      rw [value_inj (hlen.trans hlen'.symm) (hvalue.trans hvalue'.symm)]
      exact ⟨salt, hsalt, henc⟩

/-! ### Why there is no padding, or no verdict -/

theorem usableDigest_cases (a : HashAlgorithm) (keyBits : Nat) :
    usableDigest a.name keyBits = .error (.unsupportedDigest a.name) ∧ a = .md5 ∨
      usableDigest a.name keyBits = .error .invalidParameter ∨
      usableDigest a.name keyBits = .ok a := by
  by_cases ha : a = .md5
  · exact .inl ⟨by rw [ha]; rfl, ha⟩
  · have hdigest : digest? a.name = some a := by
      cases a <;> first | rfl | exact absurd rfl ha
    right
    rw [usableDigest, hdigest]
    dsimp only
    split
    · exact .inl rfl
    · exact .inr rfl

/-- The mask is exhausted only under an excessively long modulus. -/
theorem mask_error {seed : Bytes} {e : Error}
    (h : mask a.function seed (bytesFor (keyBits - 1) - a.function.length - 1) = .error e) :
    e = .overflow ∧ 2 ^ 35 ≤ keyBits := by
  refine ⟨?_, Nat.not_lt.mp fun hmax => ?_⟩
  · unfold mask at h
    split at h <;> cases h
    rfl
  · obtain ⟨m, hm, -⟩ := exists_mgf1 a.function seed (maskLength_le a hmax)
    rw [mask, hm] at h
    cases h

/-- Why a message is not padded. -/
theorem addPadding_error_cases {e : Error}
    (h : addPadding a.name keyBits message salt = .error e) :
    e = .unsupportedDigest a.name ∧ a = .md5 ∨ e = .invalidParameter ∨ e = .keyTooShort ∨
      e = .overflow ∧ 2 ^ 35 ≤ keyBits := by
  rw [addPadding] at h
  rcases usableDigest_cases a keyBits with ⟨hdigest, ha⟩ | hdigest | hdigest <;> rw [hdigest] at h
  · cases h
    exact .inl ⟨rfl, ha⟩
  · cases h
    exact .inr (.inl rfl)
  · rw [ok_bind, encode] at h
    dsimp only at h
    split at h
    · cases h
      exact .inr (.inl rfl)
    split at h
    · cases h
      exact .inr (.inr (.inl rfl))
    rcases bind_eq_error_iff.mp h with hmask | ⟨m, -, h⟩
    · exact .inr (.inr (.inr (mask_error hmask)))
    · cases h

/-- A message is padded for a modulus with room, unless the modulus is excessively long. -/
theorem addPadding_cases (message : Bytes) (ha : a ≠ .md5) (hsalt : salt.length = a.digestLength)
    (hbits : 512 ≤ keyBits) (hfit : 2 * a.digestLength + 2 ≤ bytesFor (keyBits - 1)) :
    (∃ block, addPadding a.name keyBits message salt = .ok block) ∨
      addPadding a.name keyBits message salt = .error .overflow ∧ 2 ^ 35 ≤ keyBits := by
  have hlength : a.function.length = a.digestLength := rfl
  cases hpad : addPadding a.name keyBits message salt with
  | ok block => exact .inl ⟨block, rfl⟩
  | error e =>
    rw [addPadding_eq ha hbits, encode] at hpad
    dsimp only at hpad
    rw [if_neg (by omega), if_neg (by omega)] at hpad
    rcases bind_eq_error_iff.mp hpad with hmask | ⟨m, -, hpad⟩
    · obtain ⟨rfl, hmax⟩ := mask_error hmask
      exact .inr ⟨rfl, hmax⟩
    · cases hpad

/-- Why a block gets no verdict. -/
theorem verifyPadding_error_cases {e : Error} {block : Bytes}
    (h : verifyPadding a.name (saltLength a) keyBits message block = .error e) :
    e = .unsupportedDigest a.name ∧ a = .md5 ∨ e = .invalidParameter ∨
      e = .overflow ∧ 2 ^ 35 ≤ keyBits := by
  rw [verifyPadding] at h
  rcases usableDigest_cases a keyBits with ⟨hdigest, ha⟩ | hdigest | hdigest <;> rw [hdigest] at h
  · cases h
    exact .inl ⟨rfl, ha⟩
  · cases h
    exact .inr (.inl rfl)
  · rw [ok_bind] at h
    split at h
    · cases h
    rcases bind_eq_error_iff.mp h with hverify | ⟨p, -, h⟩
    · refine .inr (.inr ⟨verify_error _ _ hverify, Nat.not_lt.mp fun hmax => ?_⟩)
      have hsalt : saltLength a ≤ a.function.length := by cases a <;> decide
      have hsum : a.function.length + saltLength a + 2 < twoTo 64 := by
        cases a <;> decide
      obtain ⟨valid, after, hok, -⟩ := verify_iff_exists_encode a.function (a.digest message) _
        (maskLength_le a hmax) hsalt hsum
      rw [hok] at hverify
      cases hverify
    · cases h

end Padding

end Keyring.Pss
