import Keyring.Proofs.Pss.Mask
import Keyring.Proofs.Rsa.Power
import Keyring.Rsa.Encryption
import Keyring.Rsa.Signature

/-!
# Padded blocks

What goes through an RSA operation is padded to a block of as many bytes as the modulus has.  A
zero in front makes its number one below the modulus, so that the operation takes it and is undone
by its counterpart, and from the block the message is found again.

## Main definitions

* `IsMessageBlock` — the blocks of PKCS #1 version 1.5 for a message to be encrypted.
* `Oaep.blockOf`, `Oaep.IsBlock` — those of OAEP.

## Main results

* `PublicKey.value_lt_of_zero` — a block with a zero in front is below the modulus.
* `PrivateKey.IsConsistent.verify_sign` — **what is signed is verified.**
* `IsMessageBlock.unpadMessage_eq`, `Oaep.IsBlock.unpad_eq` — **what was padded is found again.**
-/

namespace Keyring.Rsa

open Bytes

variable {k : Nat} {e : Entropy} {m block : Bytes}

/-! ### Blocks with a zero in front -/

/-- A block with a zero in front denotes a number below the modulus. -/
theorem PublicKey.value_lt_of_zero {key : PublicKey} (hlen : block.length = key.byteSize)
    (hzero : block.head? = some 0) : value block < key.modulus := by
  obtain ⟨rest, rfl⟩ := List.head?_eq_some_iff.mp hzero
  have hbits : 8 * rest.length + 1 ≤ key.bitSize := by
    rw [List.length_cons, PublicKey.byteSize, bytesFor] at hlen
    omega
  have hpos : 0 < key.modulus := pos_of_bitLength_pos (Nat.lt_of_lt_of_le (Nat.succ_pos _) hbits)
  calc value (0 :: rest) = value rest := by rw [value_cons]; simp
    _ < 256 ^ rest.length := value_lt rest
    _ = 2 ^ (8 * rest.length) := (Nat.pow_mul 2 8 rest.length).symm
    _ ≤ 2 ^ (key.bitSize - 1) := Nat.pow_le_pow_right (by decide) (by omega)
    _ ≤ key.modulus := two_pow_le_of_bitLength hpos

namespace PrivateKey.IsConsistent

variable {key : PrivateKey} (hkey : key.IsConsistent) (husable : key.publicKey.isUsable = true)
  (hodd : ¬(key.modulus % 2 = 0 ∨ key.p % 2 = 0 ∨ key.q % 2 = 0))

include hkey husable hodd

/-- What a private key makes of a block, the public key makes into the block again. -/
theorem exists_applyBlock (hlen : block.length = key.publicKey.byteSize)
    (hlt : value block < key.modulus) :
    ∃ c, key.applyBlock block = some c ∧ key.publicKey.applyBlock c = some block := by
  obtain ⟨-, hroot, hundo, -⟩ := hkey.inverse _ hlt
  have hvalue : value (ofNat key.publicKey.byteSize (key.root (value block))) =
      key.root (value block) :=
    value_ofNat_of_lt (Nat.lt_trans hroot (lt_pow_byteLength key.modulus))
  have hpublic := PublicKey.applyBlock_eq husable
    (length_ofNat key.publicKey.byteSize (key.root (value block)))
    (by rw [hvalue]; exact hroot)
  refine ⟨_, PrivateKey.applyBlock_eq hodd hlen hlt, hpublic.trans ?_⟩
  have hsame : value (ofNat key.publicKey.byteSize (key.root (value block))) ^
      key.publicKey.exponent % key.publicKey.modulus = value block := by
    rw [hvalue]
    exact hundo
  rw [hsame, ← hlen, ofNat_value]

/-! ### Signatures -/

omit hkey husable hodd in
theorem padDigest_eq_some {info : Bytes} (h : padDigest k info = some block) :
    block.length = k ∧ block.head? = some 0 := by
  unfold padDigest at h
  split at h
  · cases h
  · cases h
    refine ⟨?_, rfl⟩
    simp only [List.length_append, List.length_cons, List.length_nil, List.length_replicate]
    omega

/-- A key with room for a digest and its identifier signs. -/
theorem exists_sign {a : HashAlgorithm}
    (hroom : (digestInfo a m).length + 11 ≤ key.publicKey.byteSize) :
    ∃ signature, key.sign a m = some signature := by
  obtain ⟨block, hblock⟩ :
      ∃ block, padDigest key.publicKey.byteSize (digestInfo a m) = some block :=
    ⟨_, if_neg (Nat.not_lt.mpr hroom)⟩
  obtain ⟨hlen, hzero⟩ := padDigest_eq_some hblock
  obtain ⟨c, hc, -⟩ :=
    hkey.exists_applyBlock husable hodd hlen (PublicKey.value_lt_of_zero hlen hzero)
  exact ⟨c, by rw [PrivateKey.sign, hblock, Option.bind_some, hc]⟩

/-- **What is signed is verified.** -/
theorem verify_sign {a : HashAlgorithm} {signature : Bytes} (h : key.sign a m = some signature) :
    key.publicKey.verify a m signature = true := by
  obtain ⟨block, hblock, hsign⟩ := Option.bind_eq_some_iff.mp h
  obtain ⟨hlen, hzero⟩ := padDigest_eq_some hblock
  obtain ⟨c, hc, hundo⟩ :=
    hkey.exists_applyBlock husable hodd hlen (PublicKey.value_lt_of_zero hlen hzero)
  cases hsign.symm.trans hc
  rw [PublicKey.verify, hblock, hundo]
  exact beq_self_eq_true block

end PrivateKey.IsConsistent

/-! ### PKCS #1 version 1.5 -/

/-- A block of `k` bytes is one of PKCS #1 version 1.5 for a message: at least eight bytes other
than zero go before it. -/
structure IsMessageBlock (k : Nat) (m block : Bytes) : Prop where
  length : block.length = k
  padded : ∃ padding, 8 ≤ padding.length ∧ (∀ x ∈ padding, x ≠ 0) ∧
    block = [0, 2] ++ padding ++ [0] ++ m

theorem IsMessageBlock.head? (h : IsMessageBlock k m block) : block.head? = some 0 := by
  obtain ⟨padding, -, -, rfl⟩ := h.padded
  rfl

theorem ne_zero_of_mem_nonzero {n : Nat} {x : UInt8} (hx : x ∈ e.nonzero n) : x ≠ 0 := by
  obtain ⟨y, -, rfl⟩ := List.mem_map.mp hx
  intro hzero
  have hvalue := congrArg UInt8.toNat hzero
  rw [UInt8.toNat_ofNat'] at hvalue
  have hmod : y.toNat % 255 < 255 := Nat.mod_lt _ (by decide)
  change (y.toNat % 255 + 1) % 256 = 0 at hvalue
  omega

theorem exists_padMessage (h : m.length + 11 ≤ k) (e : Entropy) :
    ∃ block, padMessage k e m = some block ∧ IsMessageBlock k m block := by
  refine ⟨_, if_neg (Nat.not_lt.mpr h), ?_, e.nonzero (k - 3 - m.length), ?_,
    fun _ => ne_zero_of_mem_nonzero, rfl⟩
  · simp only [List.length_append, List.length_cons, List.length_nil, Entropy.length_nonzero]
    omega
  · rw [Entropy.length_nonzero]
    omega

theorem padMessage_eq_none (h : k < m.length + 11) : padMessage k e m = none := if_pos h

/-- **From a block the message is found again**, and whatever zeros it starts with. -/
theorem IsMessageBlock.unpadMessage_eq (h : IsMessageBlock k m block) :
    unpadMessage block = some m := by
  obtain ⟨padding, hlen, hne, rfl⟩ := h.padded
  -- the padding ends at the first zero
  have hall : ∀ x ∈ padding, (x != 0) = true := fun x hx => bne_iff_ne.mpr (hne x hx)
  have htake : (padding ++ 0 :: m).takeWhile (· != 0) = padding := by
    rw [List.takeWhile_append_of_pos hall]
    simp
  have hdrop : (padding ++ 0 :: m).dropWhile (· != 0) = 0 :: m := by
    rw [List.dropWhile_append_of_pos hall]
    simp
  have hblock : [0, 2] ++ padding ++ [0] ++ m = 0 :: 2 :: (padding ++ 0 :: m) := by simp
  rw [hblock, unpadMessage, htake, if_neg (Nat.not_lt.mpr hlen), hdrop]

/-! ### OAEP -/

namespace Oaep

/-- The data block of OAEP for a message: a one after zeros goes before it. -/
def dataBlock (k : Nat) (m : Bytes) : Bytes :=
  hash.digest [] ++ List.replicate (k - 2 * hash.digestLength - 2 - m.length) 0 ++ 1 :: m

/-- The block of OAEP for a message under a seed. -/
def blockOf (k : Nat) (seed m : Bytes) : Bytes :=
  let masked := Bytes.xor (dataBlock k m) (mask seed (dataBlock k m).length)
  0 :: Bytes.xor seed (mask masked hash.digestLength) ++ masked

/-- A block of `k` bytes is one of OAEP for a message. -/
structure IsBlock (k : Nat) (m block : Bytes) : Prop where
  room : m.length + 42 ≤ k
  length : block.length = k
  padded : ∃ seed, seed.length = hash.digestLength ∧ block = blockOf k seed m

theorem IsBlock.head? (h : IsBlock k m block) : block.head? = some 0 := by
  obtain ⟨seed, -, rfl⟩ := h.padded
  rfl

theorem pad_eq_none (h : k < m.length + 42) : pad k e m = none := by
  have hdigest : hash.digestLength = 20 := rfl
  have hnone : k < 2 * hash.digestLength + 2 ∨ k - 2 * hash.digestLength - 2 < m.length := by
    rw [hdigest]
    omega
  exact if_pos (by simpa only [Bool.or_eq_true, decide_eq_true_eq] using hnone)

section Block

variable (hroom : m.length + 42 ≤ k)

include hroom

theorem length_dataBlock : (dataBlock k m).length = k - 21 := by
  have hdigest : hash.digestLength = 20 := rfl
  rw [dataBlock, List.length_append, List.length_append, HashAlgorithm.length_digest,
    List.length_replicate, List.length_cons, hdigest]
  omega

variable (hk : k ≤ (twoTo 32 - 1) * 20)

include hk

omit hroom in
/-- A mask for a part of a block is as long as the part. -/
theorem length_mask (seed : Bytes) {n : Nat} (hn : n ≤ k) : (mask seed n).length = n := by
  obtain ⟨b, hb, hlen⟩ := Pss.exists_mgf1 hash.function seed (Nat.le_trans hn hk)
  rw [mask, hb]
  exact hlen

theorem length_blockOf {seed : Bytes} (hseed : seed.length = hash.digestLength) :
    (blockOf k seed m).length = k := by
  have hdigest : hash.digestLength = 20 := rfl
  have hdata := length_dataBlock hroom
  have hmask := length_mask hk seed (n := (dataBlock k m).length) (by omega)
  have hmask' := fun s => length_mask hk s (n := hash.digestLength) (by omega)
  rw [blockOf, List.length_append, List.length_cons, length_xor_of_eq ((hmask' _).trans hseed.symm),
    length_xor_of_eq hmask, hseed, hdata, hdigest]
  omega

theorem exists_pad (e : Entropy) : ∃ block, pad k e m = some block ∧ IsBlock k m block := by
  have hdigest : hash.digestLength = 20 := rfl
  have hfits : ¬(k < 2 * hash.digestLength + 2 ∨ k - 2 * hash.digestLength - 2 < m.length) := by
    rw [hdigest]
    omega
  have hseed : (e.bytes hash.digestLength).length = hash.digestLength := Entropy.length_bytes _ _
  exact ⟨_, if_neg (by simpa only [Bool.or_eq_true, decide_eq_true_eq] using hfits),
    hroom, length_blockOf hroom hk hseed, _, hseed, rfl⟩

omit hroom in
/-- **From a block the message is found again**, and whatever zeros it starts with. -/
theorem IsBlock.unpad_eq (h : IsBlock k m block) : unpad block = some m := by
  have hroom := h.room
  have hlen := h.length
  obtain ⟨seed, hseed, rfl⟩ := h.padded
  have hdigest : hash.digestLength = 20 := rfl
  have hdata := length_dataBlock hroom
  have hmask := length_mask hk seed (n := (dataBlock k m).length) (by omega)
  generalize hmasked : Bytes.xor (dataBlock k m) (mask seed (dataBlock k m).length) = masked
  have hmaskedlen : masked.length = (dataBlock k m).length := by
    rw [← hmasked, length_xor_of_eq hmask]
  have hmask' := length_mask hk masked (n := hash.digestLength) (by omega)
  have hseedlen : (Bytes.xor seed (mask masked hash.digestLength)).length = hash.digestLength := by
    rw [length_xor_of_eq (hmask'.trans hseed.symm), hseed]
  -- masking again gives the seed and the data
  have hseed' : Bytes.xor (Bytes.xor seed (mask masked hash.digestLength))
      (mask masked hash.digestLength) = seed :=
    xor_xor_cancel (Nat.le_of_eq (hseed.trans hmask'.symm))
  have hdata' : Bytes.xor masked (mask seed masked.length) = dataBlock k m := by
    rw [hmaskedlen, ← hmasked]
    exact xor_xor_cancel (Nat.le_of_eq hmask.symm)
  -- the data are the digest of the label, zeros, a one and the message
  have hlabel : (hash.digest []).length = hash.digestLength := HashAlgorithm.length_digest _ _
  have htake : (dataBlock k m).take hash.digestLength = hash.digest [] := by
    rw [dataBlock, List.append_assoc, ← hlabel, List.take_left]
  have hdrop : (dataBlock k m).drop hash.digestLength =
      List.replicate (k - 2 * hash.digestLength - 2 - m.length) 0 ++ 1 :: m := by
    rw [dataBlock, List.append_assoc, ← hlabel, List.drop_left]
  have hblock : blockOf k seed m =
      0 :: (Bytes.xor seed (mask masked hash.digestLength) ++ masked) := by
    rw [blockOf, hmasked]
    rfl
  have hlong : ¬(0 :: (Bytes.xor seed (mask masked hash.digestLength) ++ masked)).length <
      2 * hash.digestLength + 2 := by
    rw [← hblock, hlen, hdigest]
    omega
  rw [hblock]
  simp only [unpad, if_neg hlong, List.take_left' hseedlen, List.drop_left' hseedlen, hseed',
    hdata', htake, hdrop, ne_eq, not_true_eq_false, if_false,
    dropZeros_zeros_append (x := 1) (by decide)]

end Block

end Oaep

end Keyring.Rsa
