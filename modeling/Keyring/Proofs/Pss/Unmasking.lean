import Keyring.Proofs.Pss.Encoding

/-!
# A check only unmasks the block

The check works in place.  It looks at the length, the last byte and the leading bits of a block;
then it takes the mask off the data block and looks at what is left.  The hash that the mask is
made of stands behind the data block and stays, so the mask can be put on again.  No bits get lost
on the way: the ones that are cleared were found clear before.

## Main definitions

* `dataPart`, `tailPart`, `hashPart` — the data block in front, what stands behind it, and the hash
  in that.
* `Opens` — a block gets so far that it is unmasked.

## Main results

* `verify_of_opens`, `verify_of_not_opens` — the check, by whether the block is unmasked.
* `verify_unmasks` — **a block is left as it is or unmasked, which can be undone.**
-/

namespace Keyring.Pss

open Bytes

/-! ### Parts of a block -/

section Parts

variable (D : DigestFunction)

/-- What stands in front of hash and last byte. -/
def dataPart (em : Bytes) : Bytes := em.take (em.length - (D.length + 1))

/-- Hash and last byte. -/
def tailPart (em : Bytes) : Bytes := em.drop (em.length - (D.length + 1))

/-- The hash in a block. -/
def hashPart (em : Bytes) : Bytes := (tailPart D em).take D.length

theorem dataPart_append_tailPart (em : Bytes) : dataPart D em ++ tailPart D em = em :=
  List.take_append_drop _ em

variable {D} {db tail : Bytes} (h : tail.length = D.length + 1)

include h

theorem dataPart_append : dataPart D (db ++ tail) = db := by
  rw [dataPart, List.length_append, h, Nat.add_sub_cancel, List.take_left]

theorem tailPart_append : tailPart D (db ++ tail) = tail := by
  rw [tailPart, List.length_append, h, Nat.add_sub_cancel, List.drop_left]

end Parts

/-- A block that is unmasked: length and last byte are right, and its unused bits are clear. -/
structure Opens (D : DigestFunction) (em : Bytes) (emBits saltLen : Nat) : Prop where
  length : em.length = bytesFor emBits
  /-- There is room for digest and salt. -/
  fits : D.length + saltLen + 2 ≤ em.length
  last : em.getLast? = some 0xbc
  /-- The unused bits are clear. -/
  clear : leadingClear (8 * em.length - emBits) (dataPart D em) = true

/-! ### The check by its outcome -/

variable {D : DigestFunction} {messageHash em after : Bytes} {emBits saltLen : Nat}

/-- Room for digest and salt in a block is a 64-bit number. -/
theorem Opens.sum_lt (h : Opens D em emBits saltLen) (hbits : emBits < twoTo 64) :
    D.length + saltLen + 2 < twoTo 64 :=
  Nat.lt_of_le_of_lt (h.length ▸ h.fits) (bytesFor_lt hbits)

theorem Opens.slack_eq (h : Opens D em emBits saltLen) : 8 * em.length - emBits = slack emBits := by
  rw [h.length, slack]

/-- A block that is unmasked has a hash between its data block and its last byte. -/
theorem Opens.tailPart_eq (h : Opens D em emBits saltLen) :
    tailPart D em = hashPart D em ++ [0xbc] ∧ (hashPart D em).length = D.length := by
  have hfits := h.fits
  obtain ⟨maskedDb, hash, -, hh, hem⟩ := exists_parts D h.length (h.length ▸ by omega) h.last
  have htail : tailPart D em = hash ++ [0xbc] := by
    rw [hem, List.append_assoc, tailPart_append (by simp [hh])]
  have hhash : hashPart D em = hash := by rw [hashPart, htail, ← hh, List.take_left]
  rw [hhash]
  exact ⟨htail, hh⟩

theorem Opens.length_dataPart (h : Opens D em emBits saltLen) :
    (dataPart D em).length = bytesFor emBits - D.length - 1 := by
  rw [dataPart, List.length_take, h.length]
  omega

/-- A block that gets so far is unmasked, unless there is no mask of that length. -/
theorem verify_of_opens (h : Opens D em emBits saltLen) (hbits : emBits < twoTo 64)
    (messageHash : Bytes) :
    verify D messageHash em emBits saltLen =
      match mgf1 D (hashPart D em) (dataPart D em).length with
      | some m =>
        .ok (saltMatches D messageHash (hashPart D em) saltLen
            (maskedBlock emBits (dataPart D em) m),
          maskedBlock emBits (dataPart D em) m ++ tailPart D em)
      | none => .error .overflow := by
  obtain ⟨htail, hhash⟩ := h.tailPart_eq
  have hem : dataPart D em ++ hashPart D em ++ [0xbc] = em := by
    rw [List.append_assoc, ← htail, dataPart_append_tailPart]
  have hverify := verify_framed D messageHash (h.sum_lt hbits) (h.length ▸ h.fits)
    h.length_dataPart hhash
  rw [hem, if_pos (h.slack_eq ▸ h.clear), ← h.length_dataPart, ← htail] at hverify
  exact hverify

/-- Any other block is refused as it is. -/
theorem verify_of_not_opens (h : ¬Opens D em emBits saltLen)
    (hsum : D.length + saltLen + 2 < twoTo 64) (messageHash : Bytes) :
    verify D messageHash em emBits saltLen = .ok (false, em) := by
  by_cases hframe : em.length = bytesFor emBits ∧ D.length + saltLen + 2 ≤ bytesFor emBits ∧
      em.getLast? = some 0xbc
  · obtain ⟨hlen, hfit, hlast⟩ := hframe
    obtain ⟨maskedDb, hash, hdb, hh, hem⟩ := exists_parts D hlen (by omega) hlast
    have hdata : dataPart D em = maskedDb := by
      rw [hem, List.append_assoc, dataPart_append (by simp [hh])]
    have hset : ¬leadingClear (slack emBits) maskedDb = true := by
      intro hclear
      refine h ⟨hlen, hlen ▸ hfit, hlast, ?_⟩
      rwa [hdata, hlen]
    rw [hem, verify_framed D messageHash hsum hfit hdb hh, if_neg hset]
  · exact verify_unframed D messageHash hsum hframe

/-- Whatever the verdict, the block is as it was or has another data block of the same length. -/
theorem frame_of_verify (hD : 0 < D.length) (hbits : emBits < twoTo 64) {valid : Bool}
    (h : verify D messageHash em emBits saltLen = .ok (valid, after)) :
    after.length = em.length ∧ tailPart D after = tailPart D em := by
  by_cases hopens : Opens D em emBits saltLen
  · rw [verify_of_opens hopens hbits] at h
    split at h
    · next m hm =>
      have hm' := length_mgf1_of_pos D hD hm
      obtain ⟨htail, hhash⟩ := hopens.tailPart_eq
      cases h
      constructor
      · rw [List.length_append, length_maskedBlock hm', ← List.length_append,
          dataPart_append_tailPart]
      · exact tailPart_append (by rw [htail, List.length_append, hhash, List.length_singleton])
    · cases h
  · by_cases hsum : D.length + saltLen + 2 < twoTo 64
    · rw [verify_of_not_opens hopens hsum] at h
      cases h
      exact ⟨rfl, rfl⟩
    · -- the lengths are not added up for a block of another length
      have hlen : em.length ≠ bytesFor emBits := by
        intro hlen
        rw [verify_of_sum D messageHash hlen hsum] at h
        cases h
      unfold verify at h
      simp only [bne_iff_ne.mpr hlen, if_true, pure_eq_ok] at h
      cases h
      exact ⟨rfl, rfl⟩

/-- **A block is left as it is or unmasked, which can be undone.**  Let the block be of any length,
and the number of bits a 64-bit number.  No check changes its length, its hash or its last byte.
Unless the lengths that are added up run over, a block of another length, without room, with
another last byte or with unused bits set is refused and not changed at all.  Any other block has
its data block replaced by the exclusive or with the mask of its hash, with the unused bits cleared;
the message, the salt that is looked for and the verdict make no difference to that, and doing it
once more gives the block back.  There is a mask unless the counter runs over, and where it does
the check is abandoned for that. -/
theorem verify_unmasks (hD : 0 < D.length) (hbits : emBits < twoTo 64) (em : Bytes) :
    (∀ messageHash saltLen valid after,
      verify D messageHash em emBits saltLen = .ok (valid, after) →
        after.length = em.length ∧ tailPart D after = tailPart D em) ∧
    (∀ messageHash saltLen, D.length + saltLen + 2 < twoTo 64 → ¬Opens D em emBits saltLen →
      verify D messageHash em emBits saltLen = .ok (false, em)) ∧
    (∀ m, mgf1 D (hashPart D em) (dataPart D em).length = some m → ∃ after,
      ∀ saltLen, Opens D em emBits saltLen →
        (∀ messageHash, ∃ valid, verify D messageHash em emBits saltLen = .ok (valid, after)) ∧
        dataPart D after = clearLeading (8 * em.length - emBits) (xor (dataPart D em) m) ∧
        mgf1 D (hashPart D after) (dataPart D after).length = some m ∧
        clearLeading (8 * em.length - emBits) (xor (dataPart D after) m) ++ tailPart D after =
          em) ∧
    ((dataPart D em).length ≤ (twoTo 32 - 1) * D.length →
      ∃ m, mgf1 D (hashPart D em) (dataPart D em).length = some m) ∧
    ∀ messageHash saltLen, Opens D em emBits saltLen →
      mgf1 D (hashPart D em) (dataPart D em).length = none →
        verify D messageHash em emBits saltLen = .error .overflow := by
  refine ⟨fun messageHash saltLen valid after h => frame_of_verify hD hbits h,
    fun messageHash saltLen hsum hopens => verify_of_not_opens hopens hsum messageHash,
    fun m hm => ?_, fun hmask => ?_, fun messageHash saltLen hopens hnone => ?_⟩
  · -- neither the message nor the salt enters into the block that is left, so it is named first
    refine ⟨maskedBlock emBits (dataPart D em) m ++ tailPart D em, fun saltLen hopens => ?_⟩
    have hm' : m.length = (dataPart D em).length := length_mgf1_of_pos D hD hm
    obtain ⟨htail, hhash⟩ := hopens.tailPart_eq
    have hlength : (tailPart D em).length = D.length + 1 := by
      rw [htail, List.length_append, hhash, List.length_singleton]
    have hdata : dataPart D (maskedBlock emBits (dataPart D em) m ++ tailPart D em) =
        maskedBlock emBits (dataPart D em) m := dataPart_append hlength
    have htail' : tailPart D (maskedBlock emBits (dataPart D em) m ++ tailPart D em) =
        tailPart D em := tailPart_append hlength
    refine ⟨fun messageHash => ?_, ?_, ?_, ?_⟩
    · rw [verify_of_opens hopens hbits, hm]
      exact ⟨_, rfl⟩
    · rw [hdata, hopens.slack_eq, maskedBlock]
    · rw [hashPart, htail', ← hashPart, hdata, length_maskedBlock hm', hm]
    · rw [hdata, htail', hopens.slack_eq, ← maskedBlock,
        maskedBlock_cancel hm' (hopens.slack_eq ▸ hopens.clear), dataPart_append_tailPart]
  · obtain ⟨m, hm, -⟩ := exists_mgf1 D (hashPart D em) hmask
    exact ⟨m, hm⟩
  · rw [verify_of_opens hopens hbits, hnone]

/-- A block of zeros and the last byte, of 511 bits, is unmasked for any message, and masking it
again gives the zeros back. -/
theorem verify_unmasks_zeros : ∃ m after : Bytes,
    0 < HashAlgorithm.sha256.function.length ∧ 511 < twoTo 64 ∧
    Opens HashAlgorithm.sha256.function (List.replicate 63 0 ++ [0xbc]) 511 10 ∧
    (∀ messageHash, ∃ valid, verify HashAlgorithm.sha256.function messageHash
      (List.replicate 63 0 ++ [0xbc]) 511 10 = .ok (valid, after)) ∧
    clearLeading 1 (xor (dataPart HashAlgorithm.sha256.function after) m) ++
      tailPart HashAlgorithm.sha256.function after = List.replicate 63 0 ++ [0xbc] := by
  have hopens : Opens HashAlgorithm.sha256.function (List.replicate 63 0 ++ [0xbc]) 511 10 :=
    ⟨by decide, by decide, by decide, by decide⟩
  have hbits : 511 < twoTo 64 := by decide
  obtain ⟨-, -, hunmask, hmask, -⟩ := verify_unmasks (D := HashAlgorithm.sha256.function)
    (by decide) hbits (List.replicate 63 0 ++ [0xbc])
  obtain ⟨m, hm⟩ := hmask (by decide)
  obtain ⟨after, hafter⟩ := hunmask m hm
  obtain ⟨hverify, -, -, hback⟩ := hafter 10 hopens
  exact ⟨m, after, by decide, hbits, hopens, hverify, hback⟩

end Keyring.Pss
