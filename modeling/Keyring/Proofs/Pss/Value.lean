import Keyring.Proofs.Pss.Padding

/-!
# A verdict on a number

A raw operation gives a number, in as many bytes as the modulus has, and the check is handed those
bytes.  It trims them to the length of an encoding, which may be a byte less, and looks at single
bits of the first byte that is left.  Both steps together are one condition on the number: it has
to be one of `emBits` bits.  So the verdict is one on the number, as long as there are bytes enough,
whatever salt is looked for.

This is what makes the check safe to put behind a raw operation, which does not say in how many
bytes its number is meant.  Nothing is assumed of the block here: it need not have come out of an
operation, nor be an encoding.

## Main results

* `verify_of_two_pow_le` — larger numbers are refused.
* `exists_verify` — all blocks get a verdict.
* `verifyPadding_value` — **the verdict depends on the number alone.**
-/

namespace Keyring.Pss

open Bytes

/-! ### Blocks of the length of an encoding -/

section Digest

variable (D : DigestFunction) (messageHash : Bytes) {emBits saltLen : Nat} {em : Bytes}
  (hsum : D.length + saltLen + 2 < twoTo 64)

include hsum

/-- A block of a larger number than the encodings denote is refused before there is a mask. -/
theorem verify_of_two_pow_le (h : 2 ^ emBits ≤ value em) :
    verify D messageHash em emBits saltLen = .ok (false, em) := by
  by_cases hframe : em.length = bytesFor emBits ∧ D.length + saltLen + 2 ≤ bytesFor emBits ∧
      em.getLast? = some 0xbc
  · obtain ⟨hlen, hfit, hlast⟩ := hframe
    obtain ⟨maskedDb, hash, hdb, hh, rfl⟩ := exists_parts D hlen (by omega) hlast
    -- a number of too many bits has one of the bits set that have to be clear
    have hset : ¬leadingClear (slack emBits) maskedDb = true := by
      rw [leadingClear_iff_value_lt_two_pow D hdb hh (by omega)]
      omega
    rw [verify_framed D messageHash hsum hfit hdb hh, if_neg hset]
  · exact verify_unframed D messageHash hsum hframe

/-- Every block gets a verdict, also under a salt that is longer than the digest. -/
theorem exists_verify (hmask : bytesFor emBits - D.length - 1 ≤ (twoTo 32 - 1) * D.length)
    (em : Bytes) :
    ∃ valid after, verify D messageHash em emBits saltLen = .ok (valid, after) := by
  -- inside the frame the mask is opened, outside there is nothing to open
  by_cases hframe : em.length = bytesFor emBits ∧ D.length + saltLen + 2 ≤ bytesFor emBits ∧
      em.getLast? = some 0xbc
  · obtain ⟨hlen, hfit, hlast⟩ := hframe
    obtain ⟨maskedDb, hash, hdb, hh, rfl⟩ := exists_parts D hlen (by omega) hlast
    obtain ⟨m, hm, -⟩ := exists_mgf1 D hash hmask
    rw [verify_parts D messageHash hsum hfit hdb hh hm]
    split
    · exact ⟨_, _, rfl⟩
    · exact ⟨_, _, rfl⟩
  · exact ⟨false, em, verify_unframed D messageHash hsum hframe⟩

end Digest

/-! ### Blocks of any length -/

variable {a : HashAlgorithm} {name : String} {keyBits saltLen n : Nat}
  {message block block' em : Bytes}

/-- Blocks of one number are brought to the same bytes. -/
theorem fitBlock_congr (hlen : n ≤ block.length) (hlen' : n ≤ block'.length)
    (h : value block = value block') : fitBlock block n = fitBlock block' n := by
  apply Option.ext
  intro em
  simp only [fitBlock_eq_some_iff, hlen, hlen', h, true_and]

theorem verifyPadding_of_fit (ha : usableDigest name keyBits = .ok a)
    (hfit : fitBlock block (bytesFor (keyBits - 1)) = some em) :
    verifyPadding name saltLen keyBits message block =
      (verify a.function (a.digest message) em (keyBits - 1) saltLen).map Prod.fst := by
  rw [verifyPadding, ha, ok_bind, hfit]
  dsimp only
  cases verify a.function (a.digest message) em (keyBits - 1) saltLen with
  | error e => rfl
  | ok verdict => rfl

theorem verifyPadding_of_unfit (ha : usableDigest name keyBits = .ok a)
    (hfit : fitBlock block (bytesFor (keyBits - 1)) = none) :
    verifyPadding name saltLen keyBits message block = .ok false := by
  rw [verifyPadding, ha, ok_bind, hfit]
  rfl

section Verdict

variable (ha : a ≠ .md5) (hmin : 512 ≤ keyBits)

include ha hmin

/-- Every block gets a verdict, unless the modulus or the salt is excessively long. -/
theorem exists_verdict (hmax : keyBits < 2 ^ 35) (hsum : a.digestLength + saltLen + 2 < twoTo 64)
    (message block : Bytes) :
    ∃ valid, verifyPadding a.name saltLen keyBits message block = .ok valid := by
  cases hfit : fitBlock block (bytesFor (keyBits - 1)) with
  | none => exact ⟨false, verifyPadding_of_unfit (usableDigest_name ha hmin) hfit⟩
  | some em =>
    obtain ⟨valid, after, hverify⟩ := exists_verify a.function (a.digest message) hsum
      (maskLength_le a hmax) em
    refine ⟨valid, ?_⟩
    rw [verifyPadding_of_fit (usableDigest_name ha hmin) hfit, hverify]
    rfl

/-- A block that is too short, or denotes too large a number, is refused. -/
theorem verifyPadding_out_of_range (hsum : a.digestLength + saltLen + 2 < twoTo 64)
    (message : Bytes)
    (h : block.length < bytesFor (keyBits - 1) ∨ 2 ^ (keyBits - 1) ≤ value block) :
    verifyPadding a.name saltLen keyBits message block = .ok false := by
  cases hfit : fitBlock block (bytesFor (keyBits - 1)) with
  | none => exact verifyPadding_of_unfit (usableDigest_name ha hmin) hfit
  | some em =>
    obtain ⟨hlen, -, hvalue⟩ := fitBlock_eq_some_iff.mp hfit
    -- what was trimmed away were zeros, so the number is still too large
    have hlarge : 2 ^ (keyBits - 1) ≤ value em := by
      rw [hvalue]
      exact h.resolve_left (Nat.not_lt.mpr hlen)
    rw [verifyPadding_of_fit (usableDigest_name ha hmin) hfit,
      verify_of_two_pow_le a.function (a.digest message) hsum hlarge]
    rfl

end Verdict

/-- In front of the bytes of an encoding, anything but zeros makes the number too large. -/
theorem two_pow_le_value_append {front : Bytes} (hlen : bytesFor n ≤ block.length)
    (h : ∃ x ∈ front, x ≠ 0) : 2 ^ n ≤ value (front ++ block) := by
  -- the front counts at least one, at a place that is worth `2 ^ n` or more
  have hpos : 0 < value front := by
    refine Nat.pos_of_ne_zero fun hzero => ?_
    obtain ⟨x, hx, hne⟩ := h
    exact hne (value_eq_zero_iff.mp hzero x hx)
  have h256 : (256 : Nat) ^ block.length = 2 ^ (8 * block.length) := by rw [Nat.pow_mul]
  have hbits := le_eight_mul_bytesFor n
  calc 2 ^ n ≤ 2 ^ (8 * block.length) := Nat.pow_le_pow_right (by decide) (by omega)
    _ = 256 ^ block.length := h256.symm
    _ ≤ value front * 256 ^ block.length := Nat.le_mul_of_pos_left _ hpos
    _ ≤ value (front ++ block) := by
      rw [value_append]
      exact Nat.le_add_right _ _

/-- **The verdict depends on the number alone.**  Let a name be that of a hash algorithm with a PSS
encoding, the key have from 512 up to `2 ^ 32` bits and the salt up to `2 ^ 32` bytes.  Then blocks
of the same number get the same verdict, if none of them is shorter than an encoding, and blocks
that are shorter, or denote a number of more than one bit less than the modulus, are refused.  So
zeros in front of an encoding, or of any block that is not shorter, change nothing, and anything
else in front has it refused. -/
theorem verifyPadding_value (ha : a ≠ .md5) (hmin : 512 ≤ keyBits) (hmax : keyBits ≤ 2 ^ 32)
    (hsalt : saltLen ≤ 2 ^ 32) (message : Bytes) :
    (∀ block block', bytesFor (keyBits - 1) ≤ block.length →
      bytesFor (keyBits - 1) ≤ block'.length → value block = value block' →
      ∃ valid, verifyPadding a.name saltLen keyBits message block = .ok valid ∧
        verifyPadding a.name saltLen keyBits message block' = .ok valid) ∧
    (∀ block, block.length < bytesFor (keyBits - 1) ∨ 2 ^ (keyBits - 1) ≤ value block →
      verifyPadding a.name saltLen keyBits message block = .ok false) ∧
    (∀ messageHash salt em, encode a.function messageHash (keyBits - 1) salt = .ok em →
      bytesFor (keyBits - 1) ≤ em.length) ∧
    ∀ front block, bytesFor (keyBits - 1) ≤ block.length →
      ((∀ x ∈ front, x = 0) → verifyPadding a.name saltLen keyBits message (front ++ block) =
        verifyPadding a.name saltLen keyBits message block) ∧
      ((∃ x ∈ front, x ≠ 0) →
        verifyPadding a.name saltLen keyBits message (front ++ block) = .ok false) := by
  have hshort : keyBits < 2 ^ 35 := by omega
  have hsum : a.digestLength + saltLen + 2 < twoTo 64 := by
    have hbounds := digestLength_bounds a
    rw [twoTo_eq]
    omega
  -- trimming depends on the number alone, and everything else on what was trimmed
  have hcongr : ∀ block block', bytesFor (keyBits - 1) ≤ block.length →
      bytesFor (keyBits - 1) ≤ block'.length → value block = value block' →
      verifyPadding a.name saltLen keyBits message block =
        verifyPadding a.name saltLen keyBits message block' := by
    intro block block' hlen hlen' hvalue
    rw [verifyPadding, verifyPadding, fitBlock_congr hlen hlen' hvalue]
  refine ⟨?_, ?_, ?_, ?_⟩
  · intro block block' hlen hlen' hvalue
    obtain ⟨valid, hverdict⟩ := exists_verdict ha hmin hshort hsum message block
    exact ⟨valid, hverdict, by rw [← hcongr block block' hlen hlen' hvalue, hverdict]⟩
  · intro block hrange
    exact verifyPadding_out_of_range ha hmin hsum message hrange
  · intro messageHash salt em hencode
    obtain ⟨hlen, -⟩ := encode_framed a.function messageHash (maskLength_le a hshort) hencode
    exact Nat.le_of_eq hlen.symm
  · intro front block hlen
    constructor
    · -- zeros do not change the number
      intro hzero
      apply hcongr
      · rw [List.length_append]
        omega
      · exact hlen
      · rw [value_append, value_eq_zero_iff.mpr hzero, Nat.zero_mul, Nat.zero_add]
    · intro hfront
      exact verifyPadding_out_of_range ha hmin hsum message
        (.inr (two_pow_le_value_append hlen hfront))

/-- An encoding for a key of 609 bits is a byte shorter than the modulus: the block of a raw
operation has a zero in front, which does not matter, and a one there would. -/
theorem verifyPadding_value_front : ∃ em : Bytes,
    encode HashAlgorithm.sha256.function [] 608 (List.replicate 32 7) = .ok em ∧
    verifyPadding "sha256" 32 609 [1, 2, 3] (0 :: em) =
      verifyPadding "sha256" 32 609 [1, 2, 3] em ∧
    verifyPadding "sha256" 32 609 [1, 2, 3] (1 :: em) = .ok false := by
  have hfits : ∃ em, encode HashAlgorithm.sha256.function [] 608 (List.replicate 32 7) = .ok em :=
    exists_encode _ _ (by decide) (by decide) (by decide)
  obtain ⟨em, hencode⟩ := hfits
  obtain ⟨-, -, hlen, hfront⟩ := @verifyPadding_value .sha256 609 32 (by decide) (by decide)
    (by decide) (by decide) [1, 2, 3]
  obtain ⟨hzero, -⟩ := hfront [0] em (hlen _ _ em hencode)
  obtain ⟨-, hone⟩ := hfront [1] em (hlen _ _ em hencode)
  exact ⟨em, hencode, hzero (by simp), hone (by simp)⟩

end Keyring.Pss
