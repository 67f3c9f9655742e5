import Keyring.Proofs.Bytes
import Keyring.Pss.Mask

/-!
# Masks of every length there is a counter for

A mask of `n` bytes takes as many blocks as are needed to reach `n`, and there is
one as long as the counter does not run over: up to `(2 ^ 32 - 1) * D.length` bytes.

The last block may be cut, so the number of blocks is the quotient by the length of a digest,
rounded up.  A digest of no bytes makes the quotient zero, by the convention for division, and a
mask of no bytes is then all there is; the lemmas that need more ask for `0 < D.length`.

## Main results

* `lt_maskCount_iff` — **how many blocks there are**: one more as long as bytes are missing.
* `exists_mgf1` — **the mask exists and has the wanted length.**
* `length_mgf1`, `length_mgf1_of_pos` — the length of a mask that was made.
-/

namespace Keyring.Pss

variable (D : DigestFunction)

theorem length_maskBlocks (seed : Bytes) (n c : Nat) :
    (maskBlocks D seed n c).length = n * D.length := by
  induction n generalizing c with
  | zero => simp [maskBlocks]
  | succ n ih =>
    rw [maskBlocks, List.length_append, D.length_hash, ih, Nat.succ_mul, Nat.add_comm]

/-- The last block of a mask is that under the highest counter. -/
theorem maskBlocks_succ (seed : Bytes) (n c : Nat) : maskBlocks D seed (n + 1) c =
    maskBlocks D seed n c ++ D.hash (seed ++ Bytes.ofNat 4 (c + n)) := by
  -- the counter goes up from the front, so the induction is for all counters
  induction n generalizing c with
  | zero => simp [maskBlocks]
  | succ n ih =>
    rw [maskBlocks, ih, maskBlocks, List.append_assoc, Nat.add_right_comm, Nat.add_assoc]

/-- Bytes are missing as long as blocks are. -/
theorem lt_maskCount_iff {length n : Nat} (h : 0 < D.length) :
    n < maskCount D length ↔ n * D.length < length := by
  unfold maskCount
  rw [← Nat.succ_le_iff, Nat.le_div_iff_mul_le h, Nat.succ_mul]
  omega

/-- The blocks of a mask reach its length. -/
theorem le_maskCount_mul {length : Nat} (h : 0 < D.length) :
    length ≤ maskCount D length * D.length :=
  Nat.not_lt.mp ((lt_maskCount_iff D h).not.mp (Nat.lt_irrefl _))

theorem maskCount_lt {length : Nat} (h : length ≤ (twoTo 32 - 1) * D.length) :
    maskCount D length < twoTo 32 := by
  -- digests of no bytes take no blocks
  rcases Nat.eq_zero_or_pos D.length with hzero | hpos
  · rw [maskCount, hzero, Nat.div_zero]
    exact Nat.two_pow_pos 32
  · apply (Nat.div_lt_iff_lt_mul hpos).mpr
    rw [Nat.sub_mul, Nat.one_mul] at h
    have hle : D.length ≤ twoTo 32 * D.length := Nat.le_mul_of_pos_left _ (Nat.two_pow_pos 32)
    omega

/-- There is a mask of every length that the counter reaches. -/
theorem exists_mgf1 (seed : Bytes) {length : Nat} (h : length ≤ (twoTo 32 - 1) * D.length) :
    ∃ m, mgf1 D seed length = some m ∧ m.length = length := by
  refine ⟨_, if_pos (maskCount_lt D h), ?_⟩
  rw [List.length_take, length_maskBlocks]
  -- cutting takes the wanted length if the blocks reach it
  apply Nat.min_eq_left
  rcases Nat.eq_zero_or_pos D.length with hzero | hpos
  · rw [hzero, Nat.mul_zero] at h
    omega
  · exact le_maskCount_mul D hpos

theorem length_mgf1 {seed m : Bytes} {length : Nat} (h : length ≤ (twoTo 32 - 1) * D.length)
    (hm : mgf1 D seed length = some m) : m.length = length := by
  obtain ⟨m', hm', hlen⟩ := exists_mgf1 D seed h
  rw [hm, Option.some.injEq] at hm'
  exact hm' ▸ hlen

theorem length_mgf1_of_pos {seed m : Bytes} {length : Nat} (h : 0 < D.length)
    (hm : mgf1 D seed length = some m) : m.length = length := by
  unfold mgf1 at hm
  split at hm
  · cases hm
    rw [List.length_take, length_maskBlocks]
    exact Nat.min_eq_left (le_maskCount_mul D h)
  · cases hm

end Keyring.Pss
