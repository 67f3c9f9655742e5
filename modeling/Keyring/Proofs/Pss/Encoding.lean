import Keyring.Proofs.Outcome
import Keyring.Proofs.Pss.Bits
import Keyring.Proofs.Pss.Mask
import Keyring.Pss.Encoding

/-!
# A block is accepted exactly if it is an encoding

The check of a block undoes the encoder step by step: it takes the block apart into
masked data block, hash and last byte, unmasks the data block and looks for the salt
behind zeros and a byte `01`.  Both directions rest on one fact: clearing the leading
bits after masking loses nothing, since the data block begins with bits that are zero.

## Main definitions

* `dataBlock n salt` — the data block of `n` bytes for a salt, before it is masked.
* `slack`, `maskedBlock` — the bits that are cleared, and the data block as it is stored.

## Main results

* `encode_eq_ok_iff` — what the encoder gives.
* `verify_parts` — the verdict on a block that is taken apart.
* `verify_iff_existsUnique_encode` — **the check accepts the image of the encoder**, and
  an accepted block has one salt.
-/

namespace Keyring.Pss

open Bytes

/-! ### The data block -/

/-- The data block of `n` bytes for a salt: zeros, a byte `01` and the salt. -/
def dataBlock (n : Nat) (salt : Bytes) : Bytes :=
  List.replicate (n - salt.length - 1) 0 ++ 1 :: salt

theorem length_dataBlock {n : Nat} {salt : Bytes} (h : salt.length + 1 ≤ n) :
    (dataBlock n salt).length = n := by
  rw [dataBlock, List.length_append, List.length_replicate, List.length_cons]
  omega

theorem dropZeros_dataBlock (n : Nat) (salt : Bytes) :
    dropZeros (dataBlock n salt) = 1 :: salt :=
  dropZeros_zeros_append (by decide) _ salt

theorem dataBlock_inj {n : Nat} {salt salt' : Bytes} (h : dataBlock n salt = dataBlock n salt') :
    salt = salt' := by
  have hdrop := congrArg dropZeros h
  rw [dropZeros_dataBlock, dropZeros_dataBlock] at hdrop
  exact (List.cons.inj hdrop).2

/-- A string whose first byte other than zero is `01` is a data block. -/
theorem eq_dataBlock_of_dropZeros {db salt : Bytes} (h : dropZeros db = 1 :: salt) :
    db = dataBlock db.length salt := by
  have hdb := eq_zeros_append_dropZeros db
  rw [h] at hdb
  rw [dataBlock, Nat.sub_sub]
  exact hdb

/-- Fewer than eight leading bits of a data block are zero already. -/
theorem clearLeading_dataBlock {x : Nat} (hx : x < 8) (n : Nat) (salt : Bytes) :
    clearLeading x (dataBlock n salt) = dataBlock n salt := by
  have hone : (1 : UInt8) &&& (0xff >>> UInt8.ofNat x) = 1 := by interval_cases x <;> rfl
  unfold dataBlock
  cases n - salt.length - 1 with
  | zero => rw [List.replicate_zero, List.nil_append, clearLeading_cons_of_lt hx, hone]
  | succ k =>
    rw [List.replicate_succ, List.cons_append, clearLeading_cons_of_lt hx, UInt8.zero_and]

/-! ### What the encoder gives -/

/-- The bits of a block in whole bytes that an encoding of `emBits` bits leaves unused. -/
def slack (emBits : Nat) : Nat := 8 * bytesFor emBits - emBits

theorem slack_lt (emBits : Nat) : slack emBits < 8 := by
  unfold slack bytesFor
  omega

/-- A data block as it is stored: masked, with the unused bits clear. -/
def maskedBlock (emBits : Nat) (db m : Bytes) : Bytes :=
  clearLeading (slack emBits) (xor db m)

theorem length_maskedBlock {emBits : Nat} {db m : Bytes} (h : m.length = db.length) :
    (maskedBlock emBits db m).length = db.length := by
  rw [maskedBlock, length_clearLeading, length_xor_of_eq h]

/-- Masking a stored data block again gives back the data block that was masked. -/
theorem maskedBlock_maskedBlock {emBits n : Nat} {salt m : Bytes}
    (h : (dataBlock n salt).length ≤ m.length) :
    maskedBlock emBits (maskedBlock emBits (dataBlock n salt) m) m = dataBlock n salt := by
  rw [maskedBlock, maskedBlock, clearLeading_xor_clearLeading_xor h,
    clearLeading_dataBlock (slack_lt emBits)]

/-- Masking twice gives a data block back if its unused bits are clear. -/
theorem maskedBlock_cancel {emBits : Nat} {db m : Bytes} (hm : m.length = db.length)
    (hclear : leadingClear (slack emBits) db = true) :
    maskedBlock emBits (maskedBlock emBits db m) m = db := by
  rw [maskedBlock, maskedBlock, clearLeading_xor_clearLeading_xor (Nat.le_of_eq hm.symm)]
  exact (leadingClear_iff _ _).mp hclear

variable (D : DigestFunction) (messageHash : Bytes)

/-- The encoder puts the masked data block before the hash and a last byte. -/
theorem encode_eq_ok_iff (emBits : Nat) (salt em : Bytes) :
    encode D messageHash emBits salt = .ok em ↔
      salt.length ≤ D.length ∧ D.length + salt.length + 2 ≤ bytesFor emBits ∧
        ∃ m, mgf1 D (saltedHash D messageHash salt) (bytesFor emBits - D.length - 1) = some m ∧
          em = maskedBlock emBits (dataBlock (bytesFor emBits - D.length - 1) salt) m ++
            saltedHash D messageHash salt ++ [0xbc] := by
  unfold encode
  rcases Nat.lt_or_ge D.length salt.length with hlong | hsalt
  · simp [hlong, Nat.not_le.mpr hlong]
  rcases Nat.lt_or_ge (bytesFor emBits) (D.length + salt.length + 2) with hshort | hfit
  · simp [hshort, Nat.not_le.mpr hshort, Nat.not_lt.mpr hsalt]
  · simp only [gt_iff_lt, Nat.not_lt.mpr hsalt, Nat.not_lt.mpr hfit, if_false, hsalt, hfit,
      true_and, mask, pure_eq_ok]
    cases mgf1 D (saltedHash D messageHash salt) (bytesFor emBits - D.length - 1) with
    | none => simp
    | some m => simp [maskedBlock, slack, dataBlock, eq_comm]

/-- Of which salt the encoder makes a block with given parts. -/
theorem encode_parts_iff {emBits : Nat} {salt maskedDb h m : Bytes}
    (hdb : maskedDb.length = bytesFor emBits - D.length - 1) (hh : h.length = D.length)
    (hm : m.length = maskedDb.length)
    (hmask : mgf1 D h (bytesFor emBits - D.length - 1) = some m)
    (hfit : D.length + salt.length + 2 ≤ bytesFor emBits) :
    encode D messageHash emBits salt = .ok (maskedDb ++ h ++ [0xbc]) ↔
      salt.length ≤ D.length ∧ leadingClear (slack emBits) maskedDb = true ∧
        maskedBlock emBits maskedDb m = dataBlock maskedDb.length salt ∧
        saltedHash D messageHash salt = h := by
  rw [encode_eq_ok_iff, ← hdb]
  have hblock : (dataBlock maskedDb.length salt).length = maskedDb.length :=
    length_dataBlock (by omega)
  rw [← hdb] at hmask
  constructor
  · rintro ⟨hsalt, -, m', hm', hem⟩
    rw [List.append_assoc, List.append_assoc] at hem
    have hlast : (h ++ [(0xbc : UInt8)]).length =
        (saltedHash D messageHash salt ++ [(0xbc : UInt8)]).length := by
      rw [List.length_append, List.length_append, hh, saltedHash, D.length_hash]
    obtain ⟨hstored, hrest⟩ := List.append_inj' hem hlast
    have hhash := List.append_cancel_right hrest
    -- with the hash known, the encoder has used the mask of the check
    rw [← hhash, hmask, Option.some.injEq] at hm'
    subst hm'
    refine ⟨hsalt, ?_, ?_, hhash.symm⟩
    · rw [hstored]
      exact leadingClear_clearLeading _ _
    · rw [hstored, maskedBlock_maskedBlock (by omega), ← hstored]
  · rintro ⟨hsalt, hclear, hunmask, rfl⟩
    refine ⟨hsalt, hfit, m, hmask, ?_⟩
    rw [← hunmask, maskedBlock_cancel hm hclear]

/-! ### The verdict -/

theorem sizeSum_eq_ok {a b c : Nat} (h : a + b + c < twoTo 64) :
    sizeSum [a, b, c] = .ok (a + b + c) := by
  have hassoc : a + (b + c) = a + b + c := (Nat.add_assoc a b c).symm
  simp only [sizeSum, List.foldr_cons, List.foldr_nil, Nat.add_zero, hassoc, h, if_true]

theorem sizeSum_eq_error {a b c : Nat} (h : ¬a + b + c < twoTo 64) :
    sizeSum [a, b, c] = .error .overflow := by
  have hassoc : a + (b + c) = a + b + c := (Nat.add_assoc a b c).symm
  simp only [sizeSum, List.foldr_cons, List.foldr_nil, Nat.add_zero, hassoc, h, if_false]

/-- A block that is taken apart is unmasked if its unused bits are clear, for which there has to be
a mask. -/
theorem verify_framed {emBits saltLen : Nat} {maskedDb h : Bytes}
    (hsum : D.length + saltLen + 2 < twoTo 64)
    (hfit : D.length + saltLen + 2 ≤ bytesFor emBits)
    (hdb : maskedDb.length = bytesFor emBits - D.length - 1) (hh : h.length = D.length) :
    verify D messageHash (maskedDb ++ h ++ [0xbc]) emBits saltLen =
      if leadingClear (slack emBits) maskedDb then
        match mgf1 D h (bytesFor emBits - D.length - 1) with
        | some m => .ok (saltMatches D messageHash h saltLen (maskedBlock emBits maskedDb m),
            maskedBlock emBits maskedDb m ++ (h ++ [0xbc]))
        | none => .error .overflow
      else .ok (false, maskedDb ++ h ++ [0xbc]) := by
  have hlen : (maskedDb ++ h ++ [0xbc]).length = bytesFor emBits := by
    rw [List.length_append, List.length_append, List.length_singleton]
    omega
  have htake : (maskedDb ++ h ++ [0xbc]).take (bytesFor emBits - D.length - 1) = maskedDb := by
    rw [List.append_assoc, List.take_append_of_le_length (Nat.le_of_eq hdb.symm), ← hdb,
      List.take_length]
  have hdrop : (maskedDb ++ h ++ [0xbc]).drop (bytesFor emBits - D.length - 1) = h ++ [0xbc] := by
    rw [List.append_assoc, ← hdb, List.drop_left]
  have hhash : (h ++ [(0xbc : UInt8)]).take D.length = h := by
    rw [← hh, List.take_left]
  have hlast : (maskedDb ++ h ++ [0xbc]).getLast? = some 0xbc := List.getLast?_concat
  -- from here on the block matters by its length, its parts and its last byte only
  rw [← hdrop]
  generalize maskedDb ++ h ++ [0xbc] = em at hlen htake hdrop hlast ⊢
  rw [← hdrop] at hhash
  unfold verify maskedBlock slack
  simp only [hlen, sizeSum_eq_ok hsum, htake, hhash, hlast, Nat.not_lt.mpr hfit, mask,
    bne_self_eq_false, Bool.false_eq_true, if_false, ok_bind, pure_eq_ok]
  rcases Bool.eq_false_or_eq_true (leadingClear (8 * bytesFor emBits - emBits) maskedDb) with
    hclear | hclear
  · cases mgf1 D h (bytesFor emBits - D.length - 1) <;> simp [hclear]
  · simp [hclear]

theorem verify_parts {emBits saltLen : Nat} {maskedDb h m : Bytes}
    (hsum : D.length + saltLen + 2 < twoTo 64)
    (hfit : D.length + saltLen + 2 ≤ bytesFor emBits)
    (hdb : maskedDb.length = bytesFor emBits - D.length - 1) (hh : h.length = D.length)
    (hm : mgf1 D h (bytesFor emBits - D.length - 1) = some m) :
    verify D messageHash (maskedDb ++ h ++ [0xbc]) emBits saltLen =
      if leadingClear (slack emBits) maskedDb then
        .ok (saltMatches D messageHash h saltLen (maskedBlock emBits maskedDb m),
          maskedBlock emBits maskedDb m ++ (h ++ [0xbc]))
      else .ok (false, maskedDb ++ h ++ [0xbc]) := by
  rw [verify_framed D messageHash hsum hfit hdb hh, hm]

/-- A block of the right length that ends in `bc` has the three parts. -/
theorem exists_parts {emBits : Nat} {em : Bytes} (hlen : em.length = bytesFor emBits)
    (hfit : D.length + 2 ≤ bytesFor emBits) (hlast : em.getLast? = some 0xbc) :
    ∃ maskedDb h, maskedDb.length = bytesFor emBits - D.length - 1 ∧ h.length = D.length ∧
      em = maskedDb ++ h ++ [0xbc] := by
  obtain ⟨front, rfl⟩ := List.getLast?_eq_some_iff.mp hlast
  rw [List.length_append, List.length_singleton] at hlen
  refine ⟨front.take (bytesFor emBits - D.length - 1), front.drop (bytesFor emBits - D.length - 1),
    ?_, ?_, ?_⟩
  · rw [List.length_take]
    omega
  · rw [List.length_drop]
    omega
  · rw [List.take_append_drop]

/-- Any other block is refused as it is. -/
theorem verify_unframed {emBits saltLen : Nat} {em : Bytes}
    (hsum : D.length + saltLen + 2 < twoTo 64)
    (h : ¬(em.length = bytesFor emBits ∧ D.length + saltLen + 2 ≤ bytesFor emBits ∧
      em.getLast? = some 0xbc)) :
    verify D messageHash em emBits saltLen = .ok (false, em) := by
  unfold verify
  by_cases hlen : em.length = bytesFor emBits
  · by_cases hfit : D.length + saltLen + 2 ≤ bytesFor emBits
    · have hlast : em.getLast? ≠ some 0xbc := fun hlast => h ⟨hlen, hfit, hlast⟩
      simp [hlen, sizeSum_eq_ok hsum, hlast]
    · simp [hlen, sizeSum_eq_ok hsum, Nat.lt_of_not_le hfit]
  · simp [hlen]

/-- A data block passes if it is that of a salt of the right length and hash. -/
theorem saltMatches_iff (h db : Bytes) (saltLen : Nat) :
    saltMatches D messageHash h saltLen db = true ↔
      ∃ salt, salt.length = saltLen ∧ db = dataBlock db.length salt ∧
        saltedHash D messageHash salt = h := by
  unfold saltMatches
  constructor
  · intro hmatch
    split at hmatch
    · exact absurd hmatch (by decide)
    · next b salt hdrop =>
      simp only [Bool.and_eq_true, beq_iff_eq] at hmatch
      obtain ⟨⟨rfl, hlen⟩, hhash⟩ := hmatch
      exact ⟨salt, hlen, eq_dataBlock_of_dropZeros hdrop, hhash⟩
  · rintro ⟨salt, hlen, hdb, hhash⟩
    rw [hdb, dropZeros_dataBlock]
    simp [hlen, hhash]

/-! ### Encodings -/

/-- There is an encoding wherever digest and salt fit. -/
theorem exists_encode {emBits : Nat} {salt : Bytes}
    (hmask : bytesFor emBits - D.length - 1 ≤ (twoTo 32 - 1) * D.length)
    (hsalt : salt.length ≤ D.length) (hfit : D.length + salt.length + 2 ≤ bytesFor emBits) :
    ∃ em, encode D messageHash emBits salt = .ok em := by
  obtain ⟨m, hm, -⟩ := exists_mgf1 D (saltedHash D messageHash salt) hmask
  exact ⟨_, (encode_eq_ok_iff D messageHash emBits salt _).mpr ⟨hsalt, hfit, m, hm, rfl⟩⟩

variable {emBits : Nat} {salt em : Bytes}

/-- An encoding has the length of the block and its last byte. -/
theorem encode_framed (hmask : bytesFor emBits - D.length - 1 ≤ (twoTo 32 - 1) * D.length)
    (h : encode D messageHash emBits salt = .ok em) :
    em.length = bytesFor emBits ∧ D.length + salt.length + 2 ≤ bytesFor emBits ∧
      em.getLast? = some 0xbc := by
  obtain ⟨-, hfit, m, hm, rfl⟩ := (encode_eq_ok_iff D messageHash emBits salt em).mp h
  have hblock : (dataBlock (bytesFor emBits - D.length - 1) salt).length =
      bytesFor emBits - D.length - 1 := length_dataBlock (by omega)
  have hmlen := length_mgf1 D hmask hm
  refine ⟨?_, hfit, List.getLast?_concat⟩
  rw [List.length_append, List.length_append, List.length_singleton, saltedHash, D.length_hash,
    length_maskedBlock (hmlen.trans hblock.symm), hblock]
  omega

/-- Different salts are encoded differently. -/
theorem encode_inj {salt' : Bytes}
    (hmask : bytesFor emBits - D.length - 1 ≤ (twoTo 32 - 1) * D.length)
    (h : encode D messageHash emBits salt = .ok em)
    (h' : encode D messageHash emBits salt' = .ok em) : salt = salt' := by
  obtain ⟨hlen, hfit, hlast⟩ := encode_framed D messageHash hmask h
  obtain ⟨-, hfit', -⟩ := encode_framed D messageHash hmask h'
  obtain ⟨maskedDb, hash, hdb, hh, rfl⟩ := exists_parts D hlen (by omega) hlast
  obtain ⟨m, hm, hmlen⟩ := exists_mgf1 D hash hmask
  have hm' := hmlen.trans hdb.symm
  obtain ⟨-, -, hblock, -⟩ := (encode_parts_iff D messageHash hdb hh hm' hm hfit).mp h
  obtain ⟨-, -, hblock', -⟩ := (encode_parts_iff D messageHash hdb hh hm' hm hfit').mp h'
  exact dataBlock_inj (hblock.symm.trans hblock')

omit messageHash in
/-- The unused bits of a block are the first ones, so they are clear exactly if the block denotes
a number of `emBits` bits, whatever follows the data block. -/
theorem leadingClear_iff_value_lt_two_pow {maskedDb h : Bytes}
    (hdb : maskedDb.length = bytesFor emBits - D.length - 1) (hh : h.length = D.length)
    (hfit : D.length + 2 ≤ bytesFor emBits) :
    leadingClear (slack emBits) maskedDb = true ↔
      value (maskedDb ++ h ++ [0xbc]) < 2 ^ emBits := by
  have hpow : (2 : Nat) ^ (8 * maskedDb.length - slack emBits) * 256 ^ (h ++ [0xbc]).length =
      2 ^ emBits := by
    have h256 : (256 : Nat) = 2 ^ 8 := by decide
    rw [h256, ← Nat.pow_mul, ← Nat.pow_add, List.length_append, List.length_singleton]
    have hbits := le_eight_mul_bytesFor emBits
    have hslack := slack_lt emBits
    unfold slack at hslack ⊢
    congr 1
    omega
  rw [leadingClear_iff_value_lt, List.append_assoc, ← hpow]
  constructor
  · intro hlt
    exact value_append_lt hlt _
  · intro hlt
    rw [value_append] at hlt
    exact Nat.lt_of_mul_lt_mul_right (Nat.lt_of_le_of_lt (Nat.le_add_right _ _) hlt)

/-- An encoding of `emBits` bits denotes a number of `emBits` bits. -/
theorem value_encode_lt (hmask : bytesFor emBits - D.length - 1 ≤ (twoTo 32 - 1) * D.length)
    (h : encode D messageHash emBits salt = .ok em) : value em < 2 ^ emBits := by
  obtain ⟨hlen, hfit, hlast⟩ := encode_framed D messageHash hmask h
  obtain ⟨maskedDb, hash, hdb, hh, rfl⟩ := exists_parts D hlen (by omega) hlast
  obtain ⟨m, hm, hmlen⟩ := exists_mgf1 D hash hmask
  obtain ⟨-, hclear, -, -⟩ :=
    (encode_parts_iff D messageHash hdb hh (hmlen.trans hdb.symm) hm hfit).mp h
  exact (leadingClear_iff_value_lt_two_pow D hdb hh (by omega)).mp hclear

/-! ### The check and the encoder -/

/-- The check comes to an end, and accepts a block exactly if some salt is encoded to it. -/
theorem verify_iff_exists_encode (em : Bytes) {emBits saltLen : Nat}
    (hmask : bytesFor emBits - D.length - 1 ≤ (twoTo 32 - 1) * D.length)
    (hsalt : saltLen ≤ D.length) (hsum : D.length + saltLen + 2 < twoTo 64) :
    ∃ valid after, verify D messageHash em emBits saltLen = .ok (valid, after) ∧
      (valid = true ↔
        ∃ salt, salt.length = saltLen ∧ encode D messageHash emBits salt = .ok em) := by
  by_cases hframe : em.length = bytesFor emBits ∧ D.length + saltLen + 2 ≤ bytesFor emBits ∧
      em.getLast? = some 0xbc
  · obtain ⟨hlen, hfit, hlast⟩ := hframe
    obtain ⟨maskedDb, h, hdb, hh, rfl⟩ := exists_parts D hlen (by omega) hlast
    obtain ⟨m, hm, hmlen⟩ := exists_mgf1 D h hmask
    have hencode : ∀ salt : Bytes, salt.length = saltLen →
        (encode D messageHash emBits salt = .ok (maskedDb ++ h ++ [0xbc]) ↔
          leadingClear (slack emBits) maskedDb = true ∧
            maskedBlock emBits maskedDb m = dataBlock maskedDb.length salt ∧
            saltedHash D messageHash salt = h) := by
      rintro salt rfl
      rw [encode_parts_iff D messageHash hdb hh (hmlen.trans hdb.symm) hm hfit,
        and_iff_right hsalt]
    rw [verify_parts D messageHash hsum hfit hdb hh hm]
    by_cases hclear : leadingClear (slack emBits) maskedDb = true
    · rw [if_pos hclear]
      refine ⟨_, _, rfl, ?_⟩
      rw [saltMatches_iff, length_maskedBlock (hmlen.trans hdb.symm)]
      refine exists_congr fun salt => and_congr_right fun hlen => ?_
      rw [hencode salt hlen, and_iff_right hclear]
    · rw [if_neg hclear]
      refine ⟨false, _, rfl, ?_⟩
      simp only [Bool.false_eq_true, false_iff]
      rintro ⟨salt, hlen, henc⟩
      exact hclear ((hencode salt hlen).mp henc).1
  · -- the encoder gives no block without the frame
    refine ⟨false, em, verify_unframed D messageHash hsum hframe, ?_⟩
    simp only [Bool.false_eq_true, false_iff]
    rintro ⟨salt, rfl, henc⟩
    obtain ⟨hlen, hfit, hlast⟩ := encode_framed D messageHash hmask henc
    exact hframe ⟨hlen, hfit, hlast⟩

/-- Digests and salts that are too long for any block are not looked for in one. -/
theorem verify_of_sum {em : Bytes} {emBits saltLen : Nat} (hlen : em.length = bytesFor emBits)
    (hsum : ¬D.length + saltLen + 2 < twoTo 64) :
    verify D messageHash em emBits saltLen = .error .overflow := by
  unfold verify
  simp [hlen, sizeSum_eq_error hsum]

theorem verify_overflow {em after : Bytes} {emBits saltLen : Nat}
    (hsum : ¬D.length + saltLen + 2 < twoTo 64) :
    verify D messageHash em emBits saltLen ≠ .ok (true, after) := by
  by_cases hlen : em.length = bytesFor emBits
  · rw [verify_of_sum D messageHash hlen hsum]
    simp
  · unfold verify
    simp [hlen]

/-- A check that does not come to an end has run over a size. -/
theorem verify_error {em : Bytes} {emBits saltLen : Nat} {e : Error}
    (h : verify D messageHash em emBits saltLen = .error e) : e = .overflow := by
  unfold verify at h
  dsimp only at h
  split at h
  · cases h
  rcases bind_eq_error_iff.mp h with hsum | ⟨n, -, h⟩
  · unfold sizeSum at hsum
    dsimp only at hsum
    split at hsum <;> cases hsum
    rfl
  split at h
  · cases h
  split at h
  · cases h
  split at h
  · cases h
  rcases bind_eq_error_iff.mp h with hmask | ⟨m, -, h⟩
  · unfold mask at hmask
    split at hmask <;> cases hmask
    rfl
  · cases h

/-- A number of bits that is a 64-bit number is one of bytes that is. -/
theorem bytesFor_lt {emBits : Nat} (hbits : emBits < twoTo 64) : bytesFor emBits < twoTo 64 := by
  rw [twoTo_eq] at *
  unfold bytesFor
  omega

/-- **The check accepts exactly the image of the encoder.**  Of all blocks, whatever their
length, it says yes to those that the encoder gives for a salt of the expected length, and
there is only one such salt.  It comes to an end on every block as long as the sum of the
lengths it compares with is a 64-bit number.  Wherever digest and salt fit, down to the
shortest block, the encoder gives a block, and it is accepted. -/
theorem verify_iff_existsUnique_encode {emBits saltLen : Nat} (hbits : emBits < twoTo 64)
    (hmask : bytesFor emBits - D.length - 1 ≤ (twoTo 32 - 1) * D.length)
    (hsalt : saltLen ≤ D.length) :
    (∀ em, (∃ after, verify D messageHash em emBits saltLen = .ok (true, after)) ↔
      ∃! salt, salt.length = saltLen ∧ encode D messageHash emBits salt = .ok em) ∧
    (D.length + saltLen + 2 < twoTo 64 →
      ∀ em, ∃ valid after, verify D messageHash em emBits saltLen = .ok (valid, after)) ∧
    ∀ salt, salt.length = saltLen → D.length + saltLen + 2 ≤ bytesFor emBits →
      ∃ em after, encode D messageHash emBits salt = .ok em ∧
        verify D messageHash em emBits saltLen = .ok (true, after) := by
  refine ⟨fun em => ?_, fun hsum em => ?_, ?_⟩
  · by_cases hsum : D.length + saltLen + 2 < twoTo 64
    · obtain ⟨valid, after, hverify, hvalid⟩ :=
        verify_iff_exists_encode D messageHash em hmask hsalt hsum
      constructor
      · rintro ⟨after', haccept⟩
        rw [hverify] at haccept
        cases haccept
        obtain ⟨salt, hlen, henc⟩ := hvalid.mp rfl
        exact ⟨salt, ⟨hlen, henc⟩, fun salt' h => encode_inj D messageHash hmask h.2 henc⟩
      · intro henc
        rw [hvalid.mpr henc.exists] at hverify
        exact ⟨after, hverify⟩
    · -- lengths with a sum that is no 64-bit number fit no block
      constructor
      · rintro ⟨after, haccept⟩
        exact absurd haccept (verify_overflow D messageHash hsum)
      · rintro ⟨salt, ⟨rfl, henc⟩, -⟩
        obtain ⟨-, hfit, -⟩ := encode_framed D messageHash hmask henc
        exact absurd (Nat.lt_of_le_of_lt hfit (bytesFor_lt hbits)) hsum
  · obtain ⟨valid, after, hverify, -⟩ :=
      verify_iff_exists_encode D messageHash em hmask hsalt hsum
    exact ⟨valid, after, hverify⟩
  · rintro salt rfl hfit
    obtain ⟨em, henc⟩ := exists_encode D messageHash hmask hsalt hfit
    obtain ⟨valid, after, hverify, hvalid⟩ := verify_iff_exists_encode D messageHash em hmask hsalt
      (Nat.lt_of_le_of_lt hfit (bytesFor_lt hbits))
    rw [hvalid.mpr ⟨salt, rfl, henc⟩] at hverify
    exact ⟨em, after, henc, hverify⟩

/-- The shortest block that SHA-1 fits into, with seven unused bits in front. -/
theorem verify_encode_tight :
    329 < twoTo 64 ∧
      bytesFor 329 - HashAlgorithm.sha1.function.length - 1 ≤
        (twoTo 32 - 1) * HashAlgorithm.sha1.function.length ∧
      20 ≤ HashAlgorithm.sha1.function.length ∧
      ∃ em after, encode HashAlgorithm.sha1.function [] 329 (List.replicate 20 7) = .ok em ∧
        verify HashAlgorithm.sha1.function [] em 329 20 = .ok (true, after) :=
  ⟨by decide, by decide, by decide,
    (verify_iff_existsUnique_encode HashAlgorithm.sha1.function [] (by decide) (by decide)
      (by decide)).2.2 (List.replicate 20 7) rfl (by decide)⟩

end Keyring.Pss
