import Keyring.Proofs.Pss.Checked

/-!
# Masks byte by byte

All masks of a seed are cut from one stream: the hashes of the seed followed by 0, 1, 2, … in four
bytes, one after the other.  The loop that makes a mask stops as soon as the mask is long enough,
so its counter stays in 32 bits for every length up to `(2 ^ 32 - 1) * D.length`.

## Main definitions

* `maskBlock` — a block of the stream.

## Main results

* `maskBlocks_eq`, `getElem?_maskBlocks` — blocks one after the other, as a list and byte by byte.
* `take_maskBlocks` — blocks that are not needed do not matter.
* `mgf1_cut_from_stream` — **a mask is cut from the stream**, and the loop makes it.
-/

namespace Keyring.Pss

open Bytes

variable (D : DigestFunction) (seed : Bytes)

/-- A block of the stream: the hash of the seed followed by a number in four bytes, the highest one
first. -/
def maskBlock (i : Nat) : Bytes := D.hash (seed ++ ofNat 4 i)

theorem maskBlocks_eq (n : Nat) :
    maskBlocks D seed n 0 = (List.range n).flatMap (maskBlock D seed) := by
  induction n with
  | zero => rfl
  | succ n ih =>
    rw [maskBlocks_succ, ih, Nat.zero_add, List.range_succ, List.flatMap_append,
      List.flatMap_singleton]
    rfl

/-- Every byte of the blocks is found in its block. -/
theorem getElem?_maskBlocks {n j : Nat} (hj : j < n * D.length) :
    (maskBlocks D seed n 0)[j]? = (maskBlock D seed (j / D.length))[j % D.length]? := by
  induction n with
  | zero =>
    rw [Nat.zero_mul] at hj
    exact absurd hj (Nat.not_lt_zero j)
  | succ n ih =>
    have hlength := length_maskBlocks D seed n 0
    rw [maskBlocks_succ, Nat.zero_add]
    rcases Nat.lt_or_ge j (n * D.length) with hlt | hge
    · rw [List.getElem?_append_left (by rw [hlength]; exact hlt), ih hlt]
    · -- the byte is in the last block
      rw [Nat.succ_mul] at hj
      have hdiv : j / D.length = n := Nat.div_eq_of_lt_le hge (by rw [Nat.succ_mul]; exact hj)
      have hmod : j % D.length = j - n * D.length := by
        rw [Nat.mod_eq_sub_div_mul, hdiv]
      rw [List.getElem?_append_right (by rw [hlength]; exact hge), hlength, hdiv, hmod]
      rfl

/-- Blocks that are not needed do not matter. -/
theorem take_maskBlocks {n n' length : Nat} (h : length ≤ n * D.length)
    (h' : length ≤ n' * D.length) :
    (maskBlocks D seed n 0).take length = (maskBlocks D seed n' 0).take length := by
  refine List.ext_getElem? fun j => ?_
  rw [List.getElem?_take, List.getElem?_take]
  split
  · next hj =>
    rw [getElem?_maskBlocks D seed (Nat.lt_of_lt_of_le hj h),
      getElem?_maskBlocks D seed (Nat.lt_of_lt_of_le hj h')]
  · rfl

/-- A mask of any length that the counter reaches is the start of the stream. -/
theorem mgf1_eq_take {n length : Nat} (h : length ≤ (twoTo 32 - 1) * D.length)
    (hn : length ≤ n * D.length) :
    mgf1 D seed length = some ((maskBlocks D seed n 0).take length) := by
  rw [mgf1, if_pos (maskCount_lt D h)]
  rcases Nat.eq_zero_or_pos D.length with hzero | hpos
  · rw [hzero, Nat.mul_zero, Nat.le_zero] at h
    rw [h, List.take_zero, List.take_zero]
  · rw [take_maskBlocks D seed (le_maskCount_mul D hpos) hn]

/-- The loop ends with all blocks that a mask takes, before the counter runs over. -/
theorem Checked.fillMask_eq_ok {length : Nat} (h : length ≤ (twoTo 32 - 1) * D.length) :
    Checked.fillMask D seed length [] 0 = .ok (maskBlocks D seed (maskCount D length) 0) := by
  rcases Nat.eq_zero_or_pos D.length with hzero | hpos
  · rw [hzero, Nat.mul_zero, Nat.le_zero] at h
    rw [h, Checked.fillMask, if_neg (Nat.not_lt_zero _), maskCount, hzero, Nat.div_zero]
    rfl
  · have hloop := Checked.fillMask_eq D seed hpos (Nat.zero_add (maskCount D length))
      (Nat.two_pow_pos 32)
    rwa [if_pos (maskCount_lt D h), maskBlocks] at hloop

/-- **A mask is cut from the stream.**  Up to `2 ^ 32 - 1` blocks the loop comes to its end with the
counter in 32 bits, and for digests below `2 ^ 31` bytes there is a buffer for it as well.  The mask
has the length asked for; it is the start of as many blocks as reach that length, and its byte `j`
is byte `j % D.length` of block `j / D.length`.  Shorter masks are prefixes of it. -/
theorem mgf1_cut_from_stream {length : Nat} (h : length ≤ (twoTo 32 - 1) * D.length) :
    ∃ m, mgf1 D seed length = some m ∧
      (∃ t, Checked.fillMask D seed length [] 0 = .ok t ∧ t.take length = m) ∧
      (D.length < twoTo 31 → Checked.mgf1 D seed length = .ok m) ∧
      m.length = length ∧
      (∀ n, length ≤ n * D.length → m = ((List.range n).flatMap (maskBlock D seed)).take length) ∧
      (∀ j < length, m[j]? = (maskBlock D seed (j / D.length))[j % D.length]?) ∧
      ∀ shorter ≤ length, mgf1 D seed shorter = some (m.take shorter) := by
  obtain ⟨m, hm, hlength⟩ := exists_mgf1 D seed h
  have hloop := Checked.fillMask_eq_ok D seed h
  have hcut : (maskBlocks D seed (maskCount D length) 0).take length = m := by
    rw [mgf1, if_pos (maskCount_lt D h)] at hm
    exact Option.some.inj hm
  have hstart : ∀ n, length ≤ n * D.length → m = (maskBlocks D seed n 0).take length :=
    fun n hn => Option.some.inj (hm.symm.trans (mgf1_eq_take D seed h hn))
  refine ⟨m, hm, ⟨_, hloop, hcut⟩, fun hdigest => ?_, hlength, fun n hn => ?_, fun j hj => ?_,
    fun shorter hle => ?_⟩
  · have hroom : length + D.length < twoTo 63 := by
      have hblocks : twoTo 32 * D.length < twoTo 32 * twoTo 31 :=
        Nat.mul_lt_mul_of_pos_left hdigest (Nat.two_pow_pos 32)
      have hproduct : twoTo 32 * twoTo 31 = twoTo 63 := by decide
      rw [Nat.sub_mul, Nat.one_mul] at h
      have hle : D.length ≤ twoTo 32 * D.length := Nat.le_mul_of_pos_left _ (Nat.two_pow_pos 32)
      omega
    rw [Checked.mgf1, Checked.add_eq_ok (Nat.lt_trans hroom (by decide)), ok_bind,
      Checked.reserve_eq_ok hroom, ok_bind, hloop, ok_bind, pure_eq_ok, hcut]
  · rw [← maskBlocks_eq]
    exact hstart n hn
  · rw [hstart _ h, List.getElem?_take, if_pos hj,
      getElem?_maskBlocks D seed (Nat.lt_of_lt_of_le hj h)]
  · rw [mgf1_eq_take D seed (Nat.le_trans hle h) (Nat.le_trans hle h), hstart _ h, List.take_take,
      Nat.min_eq_left hle]

/-- Two whole digests of SHA-256, and no byte more. -/
theorem mgf1_cut_from_stream_sha256 : ∃ m, mgf1 HashAlgorithm.sha256.function [7] 64 = some m ∧
    Checked.mgf1 HashAlgorithm.sha256.function [7] 64 = .ok m ∧
    m = HashAlgorithm.sha256.digest [7, 0, 0, 0, 0] ++ HashAlgorithm.sha256.digest [7, 0, 0, 0, 1] ∧
    mgf1 HashAlgorithm.sha256.function [7] 32 =
      some (HashAlgorithm.sha256.digest [7, 0, 0, 0, 0]) := by
  obtain ⟨m, hm, -, hchecked, -, hstart, -, hshorter⟩ :=
    mgf1_cut_from_stream HashAlgorithm.sha256.function [7]
      (show 64 ≤ (twoTo 32 - 1) * HashAlgorithm.sha256.function.length by decide)
  have hfirst : maskBlock HashAlgorithm.sha256.function [7] 0 =
      HashAlgorithm.sha256.digest [7, 0, 0, 0, 0] := rfl
  have hsecond : maskBlock HashAlgorithm.sha256.function [7] 1 =
      HashAlgorithm.sha256.digest [7, 0, 0, 0, 1] := rfl
  have hblocks : m = HashAlgorithm.sha256.digest [7, 0, 0, 0, 0] ++
      HashAlgorithm.sha256.digest [7, 0, 0, 0, 1] := by
    rw [hstart 2 (by decide), show List.range 2 = [0, 1] from rfl, List.flatMap_cons,
      List.flatMap_singleton, hfirst, hsecond]
    apply List.take_of_length_le
    rw [List.length_append, HashAlgorithm.length_digest, HashAlgorithm.length_digest]
    decide
  refine ⟨m, hm, hchecked (by decide), hblocks, ?_⟩
  rw [hshorter 32 (by decide), hblocks]
  exact congrArg some (List.take_left' (HashAlgorithm.length_digest _ _))

end Keyring.Pss
