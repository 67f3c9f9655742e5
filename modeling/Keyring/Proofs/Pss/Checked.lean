import Keyring.Proofs.Pss.Refusal
import Keyring.Proofs.Pss.Value
import Keyring.Pss.Checked

/-!
# Which checks a machine carries out

A machine refuses sums that are too large, differences below zero, indices outside of a string, and
more.  In the check of a block every such operation is guarded by what came before it, but for
three: the sum of the lengths of digest and salt with the two bytes that frame them, the number of
bits in the block, and the counter of the mask.  Wherever none of the three runs over, no other
operation is refused, and the machine gives the verdict.

## Main definitions

* `Framed`, `RunsOver` — blocks that get past the frame, and blocks for which something runs over.

## Main results

* `fillMask_eq` — the loop of the mask, by the blocks that are still missing.
* `leadingClear_eq`, `clearLeading_eq` — the leading bits, in whole bytes and in the byte behind.
* `leadingBits_truncate` — **clearing leading bits is truncation, also in machine operations.**
* `verify_unframed`, `verify_of_framed`, `checkParts_eq` — the check of a block, step by step.
* `verifyPadding_unfaulted` — **all checks are carried out but those in which a size or the counter
  runs over.**
-/

namespace Keyring.Pss.Checked

open Bytes

/-! ### Operations -/

section Operations

variable {a b n start stop : Nat} {v w : Bytes}

theorem add_eq_ok (h : a + b < twoTo 64) : add a b = .ok (a + b) := if_pos h

theorem add_eq_error (h : ¬a + b < twoTo 64) : add a b = .error .overflow := if_neg h

theorem sub_eq_ok (h : b ≤ a) : sub a b = .ok (a - b) := if_pos h

theorem slice_eq_ok (hstart : start ≤ stop) (hstop : stop ≤ v.length) :
    slice v start stop = .ok ((v.take stop).drop start) := if_pos ⟨hstart, hstop⟩

theorem splitAt_eq_ok (h : n ≤ v.length) : splitAt v n = .ok (v.take n, v.drop n) := if_pos h

theorem reserve_eq_ok (h : n < twoTo 63) : reserve n = .ok () := if_pos h

theorem xor_eq_ok (h : w.length = v.length) : xor v w = .ok (Bytes.xor v w) := if_pos h.symm

theorem byteAt_eq_ok {x : UInt8} (h : v[n]? = some x) : byteAt v n = .ok x := by
  unfold byteAt
  rw [h]

/-- The rest of a division by eight is a shift of a byte. -/
theorem shiftRight_mod (x : UInt8) (n : Nat) :
    shiftRight x (n % 8) = .ok (x >>> UInt8.ofNat (n % 8)) :=
  if_pos (Nat.mod_lt _ (by decide))

/-- Strings are copied between strings. -/
theorem copyInto_eq_ok (front back : Bytes) (h : w.length = v.length) :
    copyInto (front ++ v ++ back) front.length (front.length + v.length) w =
      .ok (front ++ w ++ back) := by
  have hslice : slice (front ++ v ++ back) front.length (front.length + v.length) = .ok v := by
    rw [slice_eq_ok (Nat.le_add_right _ _) (by simp), List.take_append_of_le_length (by simp),
      ← List.length_append, List.take_length, List.drop_left]
  rw [copyInto, hslice, ok_bind, if_pos h.symm]
  simp [List.append_assoc, List.drop_append]

end Operations

/-- Bits are counted in bytes by a quotient, or one more. -/
theorem bytesOf_eq {bits : Nat} (h : bits < twoTo 64) : bytesOf bits = .ok (bytesFor bits) := by
  rw [twoTo_eq] at h
  unfold bytesOf bytesFor
  split
  · rw [add_eq_ok (by rw [twoTo_eq]; omega)]
    congr 1
    omega
  · congr 1
    omega

theorem any_ne_zero (v : Bytes) : v.any (· != 0) = !v.all (· == 0) := by
  rw [List.not_all_eq_any_not]
  rfl

theorem fitBlock_eq (block : Bytes) (emLen : Nat) :
    fitBlock block emLen = .ok (Pss.fitBlock block emLen) := by
  unfold fitBlock Pss.fitBlock
  by_cases hlen : block.length < emLen
  · rw [if_pos hlen, if_pos hlen, pure_eq_ok]
  · rw [if_neg hlen, if_neg hlen, sub_eq_ok (Nat.not_lt.mp hlen), ok_bind,
      splitAt_eq_ok (Nat.sub_le _ _), ok_bind]
    dsimp only
    rw [any_ne_zero]
    cases (block.take (block.length - emLen)).all (· == 0) <;> rfl

/-! ### Leading bits -/

theorem leadingClear_split (x : Nat) (v : Bytes) :
    Pss.leadingClear x v = ((v.take (x / 8)).all (· == 0) &&
      (v[x / 8]?.getD 0 &&& ~~~(0xff >>> UInt8.ofNat (x % 8)) == 0)) := by
  induction v generalizing x with
  | nil => simp
  | cons b v ih =>
    rcases Nat.lt_or_ge x 8 with hx | hx
    · rw [Pss.leadingClear, if_neg (Nat.not_le.mpr hx), Nat.div_eq_of_lt hx, Nat.mod_eq_of_lt hx]
      simp
    · -- a whole byte is one less to go
      have hdiv : x / 8 = (x - 8) / 8 + 1 := by omega
      have hmod : x % 8 = (x - 8) % 8 := by omega
      rw [Pss.leadingClear, if_pos hx, ih, hdiv, hmod, List.take_succ_cons, List.all_cons,
        List.getElem?_cons_succ, Bool.and_assoc]

theorem leadingClear_eq (v : Bytes) (x : Nat) :
    leadingClear v x = .ok (Pss.leadingClear x v) := by
  rw [leadingClear_split, leadingClear, any_ne_zero, shiftRight_mod]
  cases (v.take (x / 8)).all (· == 0) with
  | false => rfl
  | true =>
    by_cases hx : 0 < x % 8
    · simp [hx]
    · have hzero : x % 8 = 0 := Nat.eq_zero_of_not_pos hx
      have hmask : ~~~(255 : UInt8) = 0 := by decide
      simp [hzero, hmask]

theorem clearLeading_split (x : Nat) (v : Bytes) :
    Pss.clearLeading x v = ((v.take (x / 8)).map (fun _ => 0) ++ v.drop (x / 8)).modify (x / 8)
      (· &&& (0xff >>> UInt8.ofNat (x % 8))) := by
  induction v generalizing x with
  | nil => simp
  | cons b v ih =>
    rcases Nat.lt_or_ge x 8 with hx | hx
    · rw [clearLeading_cons_of_lt hx, Nat.div_eq_of_lt hx, Nat.mod_eq_of_lt hx]
      simp
    · have hdiv : x / 8 = (x - 8) / 8 + 1 := by omega
      have hmod : x % 8 = (x - 8) % 8 := by omega
      rw [clearLeading_cons_of_le hx, ih, hdiv, hmod]
      simp

theorem clearLeading_eq (v : Bytes) (x : Nat) :
    clearLeading v x = .ok (Pss.clearLeading x v) := by
  rw [clearLeading_split, clearLeading, shiftRight_mod]
  by_cases hx : 0 < x % 8
  · simp [hx]
  · -- a mask of all bits changes nothing
    have hzero : x % 8 = 0 := Nat.eq_zero_of_not_pos hx
    have hmask : (fun b : UInt8 => b &&& 255) = id := by
      funext b
      apply UInt8.toNat_inj.mp
      exact (toNat_and_mask (by decide : 0 < 8) b).trans (Nat.mod_eq_of_lt b.toNat_lt)
    simp [hzero, hmask, List.modify_id]

/-- Clearing may be done before the exclusive or of two strings or after it. -/
theorem exists_clearLeading_xor {v w : Bytes} (x : Nat) (hlen : w.length = v.length) :
    ∃ u, (do clearLeading (← xor v w) x) = .ok u ∧
      (do xor (← clearLeading v x) (← clearLeading w x)) = .ok u := by
  have hcleared : (Pss.clearLeading x w).length = (Pss.clearLeading x v).length := by
    simp [hlen]
  refine ⟨Pss.clearLeading x (Bytes.xor v w), ?_, ?_⟩
  · rw [xor_eq_ok hlen, ok_bind, clearLeading_eq]
  · rw [clearLeading_eq, ok_bind, clearLeading_eq, ok_bind, xor_eq_ok hcleared, clearLeading_xor]

/-- **Clearing leading bits truncates the number that a string denotes**, and the test is whether
there is nothing to truncate; neither is refused, however many bits are asked for.  Truncation may
go before an exclusive or or behind it. -/
theorem leadingBits_truncate (v : Bytes) (x : Nat) :
    (∃ u clear, clearLeading v x = .ok u ∧ leadingClear v x = .ok clear ∧
      u = Pss.clearLeading x v ∧ clear = Pss.leadingClear x v ∧
      u.length = v.length ∧ value u = value v % 2 ^ (8 * v.length - x) ∧
      (8 * v.length ≤ x → value u = 0) ∧
      (clear = true ↔ value v < 2 ^ (8 * v.length - x)) ∧
      (8 * v.length ≤ x → (clear = true ↔ value v = 0)) ∧
      (clear = true ↔ u = v)) ∧
    ∀ w : Bytes, w.length = v.length → ∃ u, (do clearLeading (← xor v w) x) = .ok u ∧
      (do xor (← clearLeading v x) (← clearLeading w x)) = .ok u := by
  constructor
  · exact ⟨_, _, clearLeading_eq v x, leadingClear_eq v x, rfl, rfl, length_clearLeading x v,
      value_clearLeading x v, value_clearLeading_of_le, leadingClear_iff_value_lt x v,
      leadingClear_iff_value_eq_zero, leadingClear_iff x v⟩
  · exact fun w => exists_clearLeading_xor x

/-- A cut within a byte, and more bits than there are. -/
theorem leadingBits_truncate_cut :
    (∃ u, clearLeading [0xb5, 0x0f] 3 = .ok u ∧ value u = 0xb50f % 2 ^ 13) ∧
    (∃ u, clearLeading [0xb5, 0x0f] 20 = .ok u ∧ value u = 0) ∧
    (∃ clear, leadingClear [0xb5, 0x0f] 20 = .ok clear ∧ (clear = true ↔ 0xb50f = 0)) ∧
    ∃ u, (do clearLeading (← xor [0xb5, 0x0f] [0xff, 1]) 3) = .ok u ∧
      (do xor (← clearLeading [0xb5, 0x0f] 3) (← clearLeading [0xff, 1] 3)) = .ok u := by
  obtain ⟨⟨u, -, hu, -, -, -, -, hvalue, -⟩, hxor⟩ := leadingBits_truncate [0xb5, 0x0f] 3
  obtain ⟨⟨w, clear, hw, hclear, -, -, -, -, hzero, -, htest, -⟩, -⟩ :=
    leadingBits_truncate [0xb5, 0x0f] 20
  have hshort : 8 * ([0xb5, 0x0f] : Bytes).length ≤ 20 := by decide
  exact ⟨⟨u, hu, hvalue⟩, ⟨w, hw, hzero hshort⟩, ⟨clear, hclear, htest hshort⟩,
    hxor [0xff, 1] rfl⟩

/-! ### The mask -/

section Mask

variable (D : DigestFunction) (seed : Bytes)

/-- The loop of the mask goes on until no block is missing, or the counter runs over. -/
theorem fillMask_eq {length n c : Nat} (h : 0 < D.length) (hn : c + n = maskCount D length)
    (hc : c < twoTo 32) :
    fillMask D seed length (maskBlocks D seed c 0) c =
      if maskCount D length < twoTo 32 then .ok (maskBlocks D seed (maskCount D length) 0)
      else .error .counter := by
  induction n generalizing c with
  | zero =>
    have hdone : ¬(maskBlocks D seed c 0).length < length := by
      rw [length_maskBlocks, ← lt_maskCount_iff D h]
      omega
    rw [Nat.add_zero] at hn
    rw [fillMask, if_neg hdone, ← hn, if_pos hc]
  | succ n ih =>
    have hmissing : (maskBlocks D seed c 0).length < length := by
      rw [length_maskBlocks, ← lt_maskCount_iff D h]
      omega
    have hnext := maskBlocks_succ D seed c 0
    rw [Nat.zero_add] at hnext
    rw [fillMask, if_pos hmissing, ← hnext]
    by_cases hcounter : c + 1 < twoTo 32
    · rw [if_pos hcounter]
      exact ih (by omega) hcounter
    · rw [if_neg hcounter, if_neg (by omega)]

/-- A mask that has a buffer is made unless the counter runs over. -/
theorem mgf1_eq {length : Nat} (h : 0 < D.length) (hroom : length + D.length < twoTo 63) :
    mgf1 D seed length =
      match Pss.mgf1 D seed length with
      | some m => .ok m
      | none => .error .counter := by
  have hsum : length + D.length < twoTo 64 := Nat.lt_trans hroom (by decide)
  have hloop : fillMask D seed length (maskBlocks D seed 0 0) 0 = _ :=
    fillMask_eq D seed h (Nat.zero_add _) (Nat.two_pow_pos 32)
  rw [maskBlocks] at hloop
  rw [mgf1, add_eq_ok hsum, ok_bind, reserve_eq_ok hroom, ok_bind, hloop, Pss.mgf1]
  by_cases hcount : maskCount D length < twoTo 32
  · simp only [if_pos hcount, ok_bind, pure_eq_ok]
  · simp only [if_neg hcount, error_bind]

end Mask

/-! ### The salt -/

variable (D : DigestFunction) (messageHash : Bytes)

/-- What is hashed is put together in a buffer of zeros. -/
theorem saltedHash_eq (salt : Bytes) (hroom : 8 + messageHash.length + salt.length < twoTo 63) :
    saltedHash D messageHash salt = .ok (Pss.saltedHash D messageHash salt) := by
  have hlt : 8 + messageHash.length + salt.length < twoTo 64 := Nat.lt_trans hroom (by decide)
  have hbuffer : List.replicate (8 + messageHash.length + salt.length) (0 : UInt8) =
      List.replicate 8 0 ++ List.replicate messageHash.length 0 ++
        List.replicate salt.length 0 := by
    rw [List.replicate_append_replicate, List.replicate_append_replicate]
  have hmessage := copyInto_eq_ok (v := List.replicate messageHash.length 0) (w := messageHash)
    (List.replicate 8 0) (List.replicate salt.length 0) (by simp)
  have hsalt := copyInto_eq_ok (v := List.replicate salt.length 0) (w := salt)
    (List.replicate 8 0 ++ messageHash) [] (by simp)
  simp only [List.length_append, List.length_replicate, List.append_nil] at hmessage hsalt
  rw [saltedHash, add_eq_ok (by omega), ok_bind, add_eq_ok hlt, ok_bind, reserve_eq_ok hroom,
    ok_bind, hbuffer, hmessage, ok_bind, hsalt, ok_bind, Pss.saltedHash, pure_eq_ok]

/-- The first byte other than zero is the one that stands behind the leading zeros. -/
theorem dropZeros_of_findIdx {db : Bytes} {i : Nat} (h : db.findIdx? (· != 0) = some i) :
    ∃ b, db[i]? = some b ∧ dropZeros db = b :: db.drop (i + 1) := by
  obtain ⟨hi, hfind⟩ := List.findIdx?_eq_some_iff_findIdx_eq.mp h
  have hdrop : dropZeros db = db.drop i := by
    rw [dropZeros, List.dropWhile_eq_drop_findIdx_not]
    exact congrArg (db.drop ·) hfind
  exact ⟨db[i], List.getElem?_eq_getElem hi, by rw [hdrop, List.drop_eq_getElem_cons hi]⟩

theorem dropZeros_of_findIdx_none {db : Bytes} (h : db.findIdx? (· != 0) = none) :
    dropZeros db = [] := by
  have hfind := List.findIdx?_eq_none_iff_findIdx_eq.mp h
  rw [dropZeros, List.dropWhile_eq_drop_findIdx_not]
  exact List.drop_of_length_le (Nat.le_of_eq hfind.symm)

/-- The salt is found in a data block without a fault, wherever it begins. -/
theorem saltMatches_eq (h : Bytes) {db : Bytes} {dbLen : Nat} (saltLen : Nat)
    (hdb : db.length = dbLen) (hroom : 8 + messageHash.length + dbLen < twoTo 63) :
    saltMatches D messageHash h dbLen saltLen db =
      .ok (Pss.saltMatches D messageHash h saltLen db) := by
  unfold saltMatches Pss.saltMatches
  cases hfind : db.findIdx? (· != 0) with
  | none => rw [dropZeros_of_findIdx_none hfind]; rfl
  | some i =>
    obtain ⟨b, hb, hdrop⟩ := dropZeros_of_findIdx hfind
    obtain ⟨hi, -⟩ := List.findIdx?_eq_some_iff_findIdx_eq.mp hfind
    have hbehind : (db.drop (i + 1)).length = dbLen - i - 1 := by
      rw [List.length_drop]
      omega
    rw [hdrop]
    dsimp only
    rw [byteAt_eq_ok hb, ok_bind, hbehind, sub_eq_ok (by omega), ok_bind, sub_eq_ok (by omega),
      ok_bind]
    by_cases hone : b = 1
    · by_cases hlen : dbLen - i - 1 = saltLen
      · have hslice : slice db (dbLen - saltLen) db.length = .ok (db.drop (i + 1)) := by
          rw [slice_eq_ok (by omega) (Nat.le_refl _), List.take_length]
          congr 2
          omega
        rw [sub_eq_ok (by omega), ok_bind, hslice, ok_bind,
          saltedHash_eq D messageHash _ (by omega)]
        simp [hone, hlen]
      · simp [hone, hlen]
    · simp [hone]

/-! ### The check of a block -/

variable {emBits saltLen : Nat} {em : Bytes}

/-- A block that gets past its length and its last byte. -/
structure Framed (D : DigestFunction) (em : Bytes) (saltLen : Nat) : Prop where
  /-- There is room for digest and salt. -/
  fits : D.length + saltLen + 2 ≤ em.length
  /-- The last byte is right. -/
  last : em.getLast? = some 0xbc

/-- A block of the length of an encoding for which something runs over: the sum of the lengths that
it has to have room for, or, once it has got past the frame, its number of bits, or, once its
leading bits have been found clear, the counter of the mask. -/
def RunsOver (D : DigestFunction) (em : Bytes) (emBits saltLen : Nat) : Prop :=
  twoTo 64 ≤ D.length + saltLen + 2 ∨
    Framed D em saltLen ∧
      (twoTo 64 ≤ 8 * em.length ∨
        Pss.leadingClear (slack emBits) (em.take (em.length - D.length - 1)) = true ∧
          twoTo 32 ≤ maskCount D (em.length - D.length - 1))

/-- Digests and salts that are too long for any block are not looked for. -/
theorem verify_of_sum (hbits : emBits < twoTo 64) (hlen : em.length = bytesFor emBits)
    (hsum : ¬D.length + saltLen + 2 < twoTo 64) :
    verify D messageHash em emBits saltLen = .error .overflow := by
  rw [verify, bytesOf_eq hbits, ok_bind, hlen, bne_self_eq_false, if_neg Bool.false_ne_true]
  by_cases hlengths : D.length + saltLen < twoTo 64
  · rw [add_eq_ok hlengths, ok_bind, add_eq_error hsum, error_bind]
  · rw [add_eq_error hlengths]
    rfl

/-- A block without the frame is refused. -/
theorem verify_unframed (hbits : emBits < twoTo 64) (hlen : em.length = bytesFor emBits)
    (hsum : D.length + saltLen + 2 < twoTo 64) (h : ¬Framed D em saltLen) :
    verify D messageHash em emBits saltLen = .ok false := by
  rw [verify, bytesOf_eq hbits, ok_bind, hlen, bne_self_eq_false, if_neg Bool.false_ne_true,
    add_eq_ok (by omega), ok_bind, add_eq_ok hsum, ok_bind]
  by_cases hfit : D.length + saltLen + 2 ≤ bytesFor emBits
  · have hne : em.getLast? ≠ some 0xbc := fun hlast => h ⟨hlen ▸ hfit, hlast⟩
    have hbyte : em[bytesFor emBits - 1]? = some em[bytesFor emBits - 1] :=
      List.getElem?_eq_getElem (by omega)
    have hlast : em[bytesFor emBits - 1] ≠ 0xbc := by
      intro heq
      rw [List.getLast?_eq_getElem?, hlen, hbyte, heq] at hne
      exact hne rfl
    rw [if_neg (by omega), sub_eq_ok (by omega), ok_bind, byteAt_eq_ok hbyte, ok_bind]
    simp [hlast]
  · rw [if_pos (by omega), pure_eq_ok]

/-- A block with the frame is taken apart. -/
theorem verify_of_framed (hbits : emBits < twoTo 64) (hlen : em.length = bytesFor emBits)
    (hsum : D.length + saltLen + 2 < twoTo 64) (h : Framed D em saltLen) :
    verify D messageHash em emBits saltLen =
      checkParts D messageHash em (bytesFor emBits) emBits saltLen := by
  have hfit : D.length + saltLen + 2 ≤ bytesFor emBits := hlen ▸ h.fits
  have hbyte : byteAt em (bytesFor emBits - 1) = .ok 0xbc := by
    apply byteAt_eq_ok
    rw [← hlen, ← List.getLast?_eq_getElem?, h.last]
  rw [verify, bytesOf_eq hbits, ok_bind, hlen, bne_self_eq_false, if_neg Bool.false_ne_true,
    add_eq_ok (by omega), ok_bind, add_eq_ok hsum, ok_bind, if_neg (by omega),
    sub_eq_ok (by omega), ok_bind, hbyte, ok_bind, bne_self_eq_false, if_neg Bool.false_ne_true]

/-- The parts of a block are unmasked and searched for the salt, unless something runs over. -/
theorem checkParts_eq {maskedDb h : Bytes} (hpos : 0 < D.length)
    (hhash : messageHash.length = D.length) (hfit : D.length + 2 ≤ bytesFor emBits)
    (hdb : maskedDb.length = bytesFor emBits - D.length - 1) (hh : h.length = D.length) :
    checkParts D messageHash (maskedDb ++ h ++ [0xbc]) (bytesFor emBits) emBits saltLen =
      if 8 * bytesFor emBits < twoTo 64 then
        if Pss.leadingClear (slack emBits) maskedDb then
          match Pss.mgf1 D h (bytesFor emBits - D.length - 1) with
          | some m => .ok (Pss.saltMatches D messageHash h saltLen (maskedBlock emBits maskedDb m))
          | none => .error .counter
        else .ok false
      else .error .overflow := by
  have hsplit : splitAt (maskedDb ++ h ++ [0xbc]) (bytesFor emBits - D.length - 1) =
      .ok (maskedDb, h ++ [0xbc]) := by
    rw [List.append_assoc, ← hdb, splitAt_eq_ok (by simp), List.take_left, List.drop_left]
  have hslice : slice (h ++ [0xbc]) 0 D.length = .ok h := by
    rw [← hh, slice_eq_ok (Nat.zero_le _) (by simp), List.take_left, List.drop_zero]
  rw [checkParts, sub_eq_ok (by omega), ok_bind, sub_eq_ok (by omega), ok_bind, hsplit, ok_bind]
  dsimp only
  rw [hslice, ok_bind]
  by_cases hwide : 8 * bytesFor emBits < twoTo 64
  · -- buffers and sums of sizes stay far below the limits from here on
    have hroom : bytesFor emBits + 8 < twoTo 63 := by
      rw [twoTo_eq] at *
      omega
    rw [if_pos hwide, mul, size, if_pos hwide, ok_bind, sub_eq_ok (le_eight_mul_bytesFor emBits),
      ok_bind, leadingClear_eq, ok_bind, ← slack]
    cases hclear : Pss.leadingClear (slack emBits) maskedDb with
    | false => rfl
    | true =>
      rw [mgf1_eq D h hpos (by omega)]
      cases hmask : Pss.mgf1 D h (bytesFor emBits - D.length - 1) with
      | none => rfl
      | some m =>
        have hm : m.length = maskedDb.length := by
          rw [length_mgf1_of_pos D hpos hmask, hdb]
        have hblock : (maskedBlock emBits maskedDb m).length = bytesFor emBits - D.length - 1 := by
          rw [length_maskedBlock hm, hdb]
        have hsalt := saltMatches_eq D messageHash h saltLen hblock (by omega)
        simp only [Bool.not_true, Bool.false_eq_true, if_false, if_true, ok_bind, xor_eq_ok hm,
          clearLeading_eq]
        exact hsalt
  · rw [if_neg hwide, mul, size, if_neg hwide, error_bind]

omit messageHash in
/-- A block with the frame has three parts, and its unused bits are the first of them. -/
theorem Framed.exists_parts (hlen : em.length = bytesFor emBits) (h : Framed D em saltLen) :
    ∃ maskedDb hash, maskedDb.length = bytesFor emBits - D.length - 1 ∧ hash.length = D.length ∧
      em = maskedDb ++ hash ++ [0xbc] ∧ em.take (em.length - D.length - 1) = maskedDb := by
  have hfit : D.length + saltLen + 2 ≤ bytesFor emBits := hlen ▸ h.fits
  obtain ⟨maskedDb, hash, hdb, hh, hem⟩ := Pss.exists_parts D hlen (by omega) h.last
  refine ⟨maskedDb, hash, hdb, hh, hem, ?_⟩
  rw [hlen, hem, List.append_assoc, ← hdb, List.take_left]

/-- The check of a block of the right length is carried out unless something runs over. -/
theorem verify_of_not_runsOver (hbits : emBits < twoTo 64) (hpos : 0 < D.length)
    (hhash : messageHash.length = D.length) (hlen : em.length = bytesFor emBits)
    (h : ¬RunsOver D em emBits saltLen) :
    ∃ valid after, Pss.verify D messageHash em emBits saltLen = .ok (valid, after) ∧
      verify D messageHash em emBits saltLen = .ok valid := by
  have hsum : D.length + saltLen + 2 < twoTo 64 := Nat.not_le.mp fun hsum => h (.inl hsum)
  by_cases hframe : Framed D em saltLen
  · have hwide : 8 * bytesFor emBits < twoTo 64 :=
      hlen ▸ Nat.not_le.mp fun hwide => h (.inr ⟨hframe, .inl hwide⟩)
    have hfit : D.length + saltLen + 2 ≤ bytesFor emBits := hlen ▸ hframe.fits
    obtain ⟨maskedDb, hash, hdb, hh, hem, htake⟩ := hframe.exists_parts D hlen
    rw [verify_of_framed D messageHash hbits hlen hsum hframe, hem,
      checkParts_eq D messageHash hpos hhash (by omega) hdb hh, if_pos hwide,
      Pss.verify_framed D messageHash hsum hfit hdb hh]
    cases hclear : Pss.leadingClear (slack emBits) maskedDb with
    | false => exact ⟨false, _, rfl, rfl⟩
    | true =>
      have hcount : maskCount D (bytesFor emBits - D.length - 1) < twoTo 32 := by
        refine Nat.not_le.mp fun hcount => h (.inr ⟨hframe, .inr ⟨?_, hlen ▸ hcount⟩⟩)
        rw [htake, hclear]
      rw [Pss.mgf1, if_pos hcount]
      exact ⟨_, _, rfl, rfl⟩
  · refine ⟨false, em, ?_, verify_unframed D messageHash hbits hlen hsum hframe⟩
    exact Pss.verify_unframed D messageHash hsum fun hframe' =>
      hframe ⟨hlen ▸ hframe'.2.1, hframe'.2.2⟩

/-- Where something runs over, the check of a block is abandoned for that. -/
theorem verify_of_runsOver (hbits : emBits < twoTo 64) (hpos : 0 < D.length)
    (hhash : messageHash.length = D.length) (hlen : em.length = bytesFor emBits)
    (h : RunsOver D em emBits saltLen) :
    verify D messageHash em emBits saltLen = .error .overflow ∨
      verify D messageHash em emBits saltLen = .error .counter := by
  by_cases hsum : D.length + saltLen + 2 < twoTo 64
  · obtain ⟨hframe, hover⟩ := h.resolve_left (Nat.not_le.mpr hsum)
    have hfit : D.length + saltLen + 2 ≤ bytesFor emBits := hlen ▸ hframe.fits
    obtain ⟨maskedDb, hash, hdb, hh, hem, htake⟩ := hframe.exists_parts D hlen
    rw [htake, hlen] at hover
    rw [verify_of_framed D messageHash hbits hlen hsum hframe, hem,
      checkParts_eq D messageHash hpos hhash (by omega) hdb hh]
    by_cases hwide : 8 * bytesFor emBits < twoTo 64
    · obtain ⟨hclear, hcount⟩ := hover.resolve_left (Nat.not_le.mpr hwide)
      right
      rw [if_pos hwide, if_pos hclear, Pss.mgf1, if_neg (Nat.not_lt.mpr hcount)]
    · exact .inl (if_neg hwide)
  · exact .inl (verify_of_sum D messageHash hbits hlen hsum)

theorem function_length_pos (a : HashAlgorithm) : 0 < a.function.length :=
  Nat.lt_of_lt_of_le (by decide) (digestLength_bounds a).1

/-- Nothing runs over for a salt that is not excessively long in a block of less than
`2 ^ 36` bytes. -/
theorem not_runsOver (a : HashAlgorithm) (hsalt : saltLen + 66 < twoTo 64)
    (hsize : em.length < 2 ^ 36) : ¬RunsOver a.function em emBits saltLen := by
  have hbounds := digestLength_bounds a
  have hlength : a.function.length = a.digestLength := rfl
  have hcount : maskCount a.function (em.length - a.function.length - 1) < twoTo 32 := by
    apply maskCount_lt
    have hmul := Nat.mul_le_mul_left (twoTo 32 - 1) hbounds.1
    rw [hlength]
    rw [twoTo_eq] at *
    omega
  rintro (hsum | ⟨-, hwide | ⟨-, hover⟩⟩)
  · omega
  · rw [twoTo_eq] at hwide
    omega
  · omega

/-! ### The check of a padding -/

/-- A block that the parameters let through to the check and for which something runs over. -/
def PaddingRunsOver (name : String) (saltLen keyBits : Nat) (block : Bytes) : Prop :=
  ∃ a em, usableDigest name keyBits = .ok a ∧
    Pss.fitBlock block (bytesFor (keyBits - 1)) = some em ∧
    RunsOver a.function em (keyBits - 1) saltLen

section Padding

variable {a : HashAlgorithm} {name : String} {saltLen keyBits : Nat} {message block em : Bytes}

/-- Under parameters that can be used, the block is trimmed and checked. -/
theorem verifyPadding_of_usable (hkey : keyBits < twoTo 64)
    (ha : usableDigest name keyBits = .ok a) :
    verifyPadding name saltLen keyBits message block =
      match Pss.fitBlock block (bytesFor (keyBits - 1)) with
      | none => .ok (.ok false)
      | some em => (verify a.function (a.digest message) em (keyBits - 1) saltLen).map .ok := by
  have hmin := (usableDigest_eq_ok_iff.mp ha).2
  have hbits : keyBits - 1 < twoTo 64 := by omega
  rw [verifyPadding, ha]
  dsimp only
  rw [sub_eq_ok (by omega), ok_bind, bytesOf_eq hbits, ok_bind, fitBlock_eq, ok_bind]
  cases Pss.fitBlock block (bytesFor (keyBits - 1)) with
  | none => rfl
  | some em =>
    dsimp only
    cases verify a.function (a.digest message) em (keyBits - 1) saltLen <;> rfl

theorem usableDigest_error {e : Error} (h : usableDigest name keyBits = .error e) :
    e = .unsupportedDigest name ∨ e = .invalidParameter := by
  unfold usableDigest at h
  cases hdigest : digest? name with
  | none =>
    rw [hdigest] at h
    cases h
    exact .inl rfl
  | some a =>
    rw [hdigest] at h
    dsimp only at h
    split at h
    · cases h
      exact .inr rfl
    · cases h

/-- **All checks are carried out but those in which a size or the counter runs over.**  For a key of
a number of bits that is a 64-bit number, any salt length, message and block: unless something runs
over, a machine that refuses any operation that it cannot carry out gives the verdict, or one of the
two reasons why there is none.  Where something runs over it gives up, and for no other fault than
that.  This takes a salt of almost `2 ^ 64` bytes, or a block of `2 ^ 36` bytes. -/
theorem verifyPadding_unfaulted (hkey : keyBits < twoTo 64) (message : Bytes) :
    (¬PaddingRunsOver name saltLen keyBits block →
      verifyPadding name saltLen keyBits message block =
        .ok (Pss.verifyPadding name saltLen keyBits message block) ∧
      (Pss.verifyPadding name saltLen keyBits message block = .ok true ∨
        Pss.verifyPadding name saltLen keyBits message block = .ok false ∨
        Pss.verifyPadding name saltLen keyBits message block = .error (.unsupportedDigest name) ∨
        Pss.verifyPadding name saltLen keyBits message block = .error .invalidParameter)) ∧
    (PaddingRunsOver name saltLen keyBits block →
      verifyPadding name saltLen keyBits message block = .error .overflow ∨
        verifyPadding name saltLen keyBits message block = .error .counter) ∧
    (saltLen + 66 < twoTo 64 → block.length < 2 ^ 36 →
      ¬PaddingRunsOver name saltLen keyBits block) := by
  refine ⟨fun h => ?_, ?_, ?_⟩
  · cases ha : usableDigest name keyBits with
    | error e =>
      have hanswer : Pss.verifyPadding name saltLen keyBits message block = .error e := by
        rw [Pss.verifyPadding, ha, error_bind]
      have hchecked : verifyPadding name saltLen keyBits message block = .ok (.error e) := by
        rw [verifyPadding, ha]
        rfl
      rw [hanswer, hchecked]
      rcases usableDigest_error ha with rfl | rfl <;> simp
    | ok a =>
      rw [verifyPadding_of_usable hkey ha]
      cases hfit : Pss.fitBlock block (bytesFor (keyBits - 1)) with
      | none => simp [verifyPadding_of_unfit ha hfit]
      | some em =>
        obtain ⟨-, hlen, -⟩ := fitBlock_eq_some_iff.mp hfit
        obtain ⟨valid, after, hverify, hchecked⟩ := verify_of_not_runsOver a.function
          (a.digest message) (by omega) (function_length_pos a) (a.length_digest message) hlen
          fun hover => h ⟨a, em, ha, hfit, hover⟩
        rw [verifyPadding_of_fit ha hfit, hverify]
        dsimp only
        rw [hchecked]
        cases valid <;> simp [Except.map]
  · rintro ⟨a, em, ha, hfit, hover⟩
    obtain ⟨-, hlen, -⟩ := fitBlock_eq_some_iff.mp hfit
    rw [verifyPadding_of_usable hkey ha, hfit]
    dsimp only
    rcases verify_of_runsOver a.function (a.digest message) (by omega) (function_length_pos a)
      (a.length_digest message) hlen hover with hfault | hfault
    · rw [hfault]
      exact .inl rfl
    · rw [hfault]
      exact .inr rfl
  · rintro hsalt hsize ⟨a, em, ha, hfit, hover⟩
    obtain ⟨hle, hlen, -⟩ := fitBlock_eq_some_iff.mp hfit
    exact not_runsOver a hsalt (by omega) hover

/-- A block of zeros for a key of 512 bits is checked, with a salt of the length of the digest. -/
theorem verifyPadding_unfaulted_sha256 : 512 < twoTo 64 ∧
    verifyPadding "sha256" 32 512 [0x64, 0x61, 0x74, 0x61] (List.replicate 64 0) =
      .ok (Pss.verifyPadding "sha256" 32 512 [0x64, 0x61, 0x74, 0x61] (List.replicate 64 0)) := by
  have hkey : 512 < twoTo 64 := by decide
  obtain ⟨hanswer, -, hsmall⟩ :=
    @verifyPadding_unfaulted "sha256" 32 512 (List.replicate 64 0) hkey [0x64, 0x61, 0x74, 0x61]
  exact ⟨hkey, (hanswer (hsmall (by decide) (by decide))).1⟩

/-- The same block is not checked with the longest salt there is: digest, salt and two bytes are
more than a 64-bit number can count. -/
theorem verifyPadding_faulted_sha256 :
    verifyPadding "sha256" (2 ^ 64 - 1) 512 [0x64, 0x61, 0x74, 0x61] (List.replicate 64 0) =
        .error .overflow ∧
      Pss.verifyPadding "sha256" (2 ^ 64 - 1) 512 [0x64, 0x61, 0x74, 0x61]
        (List.replicate 64 0) = .error .overflow := by
  have ha : usableDigest "sha256" 512 = .ok .sha256 := rfl
  have hlen : (List.replicate 64 (0 : UInt8)).length = bytesFor (512 - 1) := by decide
  have hfit : Pss.fitBlock (List.replicate 64 0) (bytesFor (512 - 1)) =
      some (List.replicate 64 0) :=
    fitBlock_eq_some_iff.mpr ⟨Nat.le_of_eq hlen.symm, hlen, rfl⟩
  have hsum : ¬HashAlgorithm.sha256.function.length + (2 ^ 64 - 1) + 2 < twoTo 64 := by decide
  constructor
  · rw [verifyPadding_of_usable (by decide) ha, hfit]
    dsimp only
    rw [verify_of_sum _ _ (by decide) hlen hsum]
    rfl
  · rw [verifyPadding_of_fit ha hfit, Pss.verify_of_sum _ _ hlen hsum]
    rfl

end Padding

end Keyring.Pss.Checked
