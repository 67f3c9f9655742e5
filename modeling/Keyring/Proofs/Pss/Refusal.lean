import Keyring.Proofs.Pss.Padding

/-!
# Parameters that the encoder refuses

The encoder refuses names without a PSS encoding, keys that are too small, salts that are longer
than the digest and blocks without room for both.  The check looks at all of this again, but for
one thing: it does not compare the salt with the digest (FIPS 186-5, 5.4 (g)).  So under
parameters that the encoder refuses no block is accepted, whatever it contains, unless the salt is
too long and still fits.

## Main results

* `verify_accepted` — a block is accepted only where digest, salt and mask fit.
* `refused_not_accepted` — **what the encoder refuses is not accepted**, but for long salts.
* `refused_accepted_sha1` — a block with a salt that is a byte longer than its digest.
-/

namespace Keyring.Pss

open Bytes

section Digest

variable (D : DigestFunction) (messageHash : Bytes) {emBits saltLen : Nat} {em after seed : Bytes}

/-- Whether there is a mask is a matter of its length, not of its seed. -/
theorem exists_mgf1_of_eq_some {m : Bytes} {n : Nat} (h : mgf1 D seed n = some m)
    (seed' : Bytes) : ∃ m', mgf1 D seed' n = some m' := by
  unfold mgf1 at h ⊢
  split at h
  · next hcount => exact ⟨_, if_pos hcount⟩
  · cases h

/-- A block is accepted only where digest, salt and mask fit. -/
theorem verify_accepted (h : verify D messageHash em emBits saltLen = .ok (true, after)) :
    D.length + saltLen + 2 ≤ bytesFor emBits ∧
      ∃ seed m, mgf1 D seed (bytesFor emBits - D.length - 1) = some m := by
  have hsum : D.length + saltLen + 2 < twoTo 64 := by
    by_contra hsum
    exact verify_overflow D messageHash hsum h
  have hframe : em.length = bytesFor emBits ∧ D.length + saltLen + 2 ≤ bytesFor emBits ∧
      em.getLast? = some 0xbc := by
    by_contra hframe
    rw [verify_unframed D messageHash hsum hframe] at h
    cases h
  obtain ⟨hlen, hfit, hlast⟩ := hframe
  obtain ⟨maskedDb, hash, hdb, hh, rfl⟩ := exists_parts D hlen (by omega) hlast
  rw [verify_framed D messageHash hsum hfit hdb hh] at h
  refine ⟨hfit, hash, ?_⟩
  cases hm : mgf1 D hash (bytesFor emBits - D.length - 1) with
  | some m => exact ⟨m, rfl⟩
  | none =>
    -- without a mask there is no verdict
    rw [hm] at h
    split at h <;> cases h

/-- Where a block is accepted, the encoder gives one for every salt of that length, if the salt
is not longer than the digest. -/
theorem exists_encode_of_accepted {salt : Bytes} (messageHash' : Bytes)
    (h : verify D messageHash em emBits salt.length = .ok (true, after))
    (hsalt : salt.length ≤ D.length) : ∃ em', encode D messageHash' emBits salt = .ok em' := by
  obtain ⟨hfit, seed, m, hm⟩ := verify_accepted D messageHash h
  obtain ⟨m', hm'⟩ := exists_mgf1_of_eq_some D hm (saltedHash D messageHash' salt)
  exact ⟨_, (encode_eq_ok_iff D messageHash' emBits salt _).mpr ⟨hsalt, hfit, m', hm', rfl⟩⟩

/-- For every salt that fits, however long, there is a block that the check accepts. -/
theorem exists_accepted (salt : Bytes) (hsum : D.length + salt.length + 2 < twoTo 64)
    (hmask : bytesFor emBits - D.length - 1 ≤ (twoTo 32 - 1) * D.length)
    (hfit : D.length + salt.length + 2 ≤ bytesFor emBits) :
    ∃ em after, em.length = bytesFor emBits ∧
      verify D messageHash em emBits salt.length = .ok (true, after) := by
  have hlen : (saltedHash D messageHash salt).length = D.length := D.length_hash _
  obtain ⟨m, hm, hmlen⟩ := exists_mgf1 D (saltedHash D messageHash salt) hmask
  have hblock : (dataBlock (bytesFor emBits - D.length - 1) salt).length =
      bytesFor emBits - D.length - 1 := length_dataBlock (by omega)
  have hmasked : (maskedBlock emBits (dataBlock (bytesFor emBits - D.length - 1) salt) m).length =
      bytesFor emBits - D.length - 1 := by
    rw [length_maskedBlock (hmlen.trans hblock.symm), hblock]
  have hverify := verify_parts D messageHash hsum hfit hmasked hlen hm
  rw [maskedBlock, leadingClear_clearLeading, ← maskedBlock, if_pos rfl,
    maskedBlock_maskedBlock (Nat.le_of_eq (hblock.trans hmlen.symm))] at hverify
  have hmatch : saltMatches D messageHash (saltedHash D messageHash salt) salt.length
      (dataBlock (bytesFor emBits - D.length - 1) salt) = true :=
    (saltMatches_iff D messageHash _ _ _).mpr ⟨salt, rfl, by rw [hblock], rfl⟩
  rw [hmatch] at hverify
  refine ⟨_, _, ?_, hverify⟩
  rw [List.length_append, List.length_append, List.length_singleton, hmasked, hlen]
  omega

end Digest

variable {a : HashAlgorithm} {name : String} {keyBits saltLen : Nat} {message salt block : Bytes}

theorem usableDigest_eq_ok_iff :
    usableDigest name keyBits = .ok a ↔ digest? name = some a ∧ 512 ≤ keyBits := by
  unfold usableDigest
  cases digest? name with
  | none => simp
  | some a' =>
    by_cases hbits : keyBits < minKeyBits
    · have hnot : ¬512 ≤ keyBits := Nat.not_le.mpr hbits
      simp [hbits, hnot]
    · have hle : 512 ≤ keyBits := Nat.not_lt.mp hbits
      simp [hbits, hle]

/-- A block is accepted under a hash algorithm that can be used, for the encoding in it. -/
theorem verifyPadding_accepted (h : verifyPadding name saltLen keyBits message block = .ok true) :
    ∃ a em after, usableDigest name keyBits = .ok a ∧
      verify a.function (a.digest message) em (keyBits - 1) saltLen = .ok (true, after) := by
  obtain ⟨a, ha, h⟩ := bind_eq_ok_iff.mp h
  cases hfit : fitBlock block (bytesFor (keyBits - 1)) with
  | none =>
    rw [hfit] at h
    cases h
  | some em =>
    rw [hfit] at h
    obtain ⟨⟨valid, after⟩, hverify, h⟩ := bind_eq_ok_iff.mp h
    cases h
    exact ⟨a, em, after, ha, hverify⟩

/-- **What the encoder refuses is not accepted**, but for long salts.  Under a name, a length of
the key and a length of the salt that the encoder refuses, the check accepts no block for any
message, if the salt is not longer than the digest.  A salt that is longer is refused as well, but
not looked for by the check: wherever it fits, there are blocks with it that are accepted. -/
theorem refused_not_accepted {e : Error} (h : addPadding name keyBits message salt = .error e) :
    ((∀ a, digest? name = some a → salt.length ≤ a.digestLength) →
      ∀ message' block, verifyPadding name salt.length keyBits message' block ≠ .ok true) ∧
    ∀ a, digest? name = some a → a.digestLength < salt.length → 512 ≤ keyBits →
      keyBits < 2 ^ 35 → a.digestLength + salt.length + 2 ≤ bytesFor (keyBits - 1) →
      ∀ message', ∃ block, verifyPadding name salt.length keyBits message' block = .ok true := by
  constructor
  · intro hsalt message' block haccept
    obtain ⟨a, em, after, ha, hverify⟩ := verifyPadding_accepted haccept
    have hshort := hsalt a (usableDigest_eq_ok_iff.mp ha).1
    obtain ⟨em', hencode⟩ :=
      exists_encode_of_accepted a.function _ (a.digest message) hverify hshort
    rw [addPadding, ha, ok_bind, hencode] at h
    cases h
  · intro a ha hlong hbits hmax hfit message'
    have hsum : a.function.length + salt.length + 2 < twoTo 64 := by
      have hlength : a.function.length = a.digestLength := rfl
      rw [twoTo_eq]
      unfold bytesFor at hfit
      omega
    obtain ⟨em, after, hlen, hverify⟩ :=
      exists_accepted a.function (a.digest message') salt hsum (maskLength_le a hmax) hfit
    have hblock : fitBlock em (bytesFor (keyBits - 1)) = some em :=
      fitBlock_eq_some_iff.mpr ⟨Nat.le_of_eq hlen.symm, hlen, rfl⟩
    refine ⟨em, ?_⟩
    rw [verifyPadding, usableDigest_eq_ok_iff.mpr ⟨ha, hbits⟩, ok_bind, hblock]
    simp only [hverify, ok_bind, pure_eq_ok]

/-- There is no room for SHA-512 and its salt in a key of 512 bits, so no block is accepted. -/
theorem refused_not_accepted_sha512 :
    addPadding "sha512" 512 [] (List.replicate 64 0) = .error .keyTooShort ∧
      ∀ message block, verifyPadding "sha512" 64 512 message block ≠ .ok true := by
  have hrefused : addPadding "sha512" 512 [] (List.replicate 64 0) = .error .keyTooShort := rfl
  refine ⟨hrefused, (refused_not_accepted hrefused).1 fun a ha => ?_⟩
  cases ha
  decide

/-- A block for a key of 512 bits that has a salt of 21 bytes. -/
def longSaltBlock : Bytes :=
  [0x29, 0x9e, 0x44, 0x59, 0xcf, 0xba, 0x95, 0x9a, 0x48, 0xc7, 0x91, 0x86, 0x4f, 0x2d, 0x95, 0x4b,
   0x41, 0x93, 0xc3, 0xe8, 0x51, 0x57, 0x95, 0x59, 0x60, 0x9b, 0xb7, 0x95, 0xed, 0x7b, 0xa7, 0x6b,
   0x98, 0x1f, 0xf3, 0x48, 0x95, 0x13, 0x47, 0x31, 0x45, 0xa2, 0xa2, 0x8e, 0xa4, 0x5d, 0x11, 0x82,
   0x52, 0x1f, 0x04, 0x2b, 0xff, 0xba, 0x9d, 0x8d, 0x00, 0x45, 0x47, 0x2d, 0xcf, 0x73, 0xdc, 0xbc]

/-- A salt of 21 bytes is longer than the digest of SHA-1, so the encoder refuses it, whatever
its bytes; the check accepts a block that has one. -/
theorem refused_accepted_sha1 :
    (∀ salt : Bytes, salt.length = 21 →
      addPadding "sha1" 512 [0x64, 0x61, 0x74, 0x61] salt = .error .invalidParameter) ∧
      verifyPadding "sha1" 21 512 [0x64, 0x61, 0x74, 0x61] longSaltBlock = .ok true := by
  constructor
  · intro salt hsalt
    have hlong : HashAlgorithm.sha1.function.length < salt.length := by
      rw [hsalt]
      decide
    have hdigest : usableDigest "sha1" 512 = .ok .sha1 := rfl
    rw [addPadding, hdigest, ok_bind, encode]
    simp [hlong]
  · have haccepted : (verifyPadding "sha1" 21 512 [0x64, 0x61, 0x74, 0x61]
        longSaltBlock).toOption = some true := by decide +kernel
    generalize verifyPadding "sha1" 21 512 [0x64, 0x61, 0x74, 0x61] longSaltBlock = verdict
      at haccepted ⊢
    cases verdict with
    | error e => cases haccepted
    | ok valid =>
      cases haccepted
      rfl

end Keyring.Pss
