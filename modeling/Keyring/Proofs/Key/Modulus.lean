import Keyring.Proofs.Key.Naming

/-!
# The modulus in an encoding

The modulus of an RSA key is taken from the encoding of the key, by a reader that shares nothing
with the decoder of the provider.  It finds the number of the key in as many bytes as the number
needs, for as long as the encoding is one that can be read at all.

A length takes at most four bytes in an encoding that the strict reader accepts, which bounds the
encoding by `2 ^ 32 + 6` bytes; up to there the modulus is found, and beyond nothing is.  The
reader drops the zero byte that keeps a number from being negative, and there is no more to drop.

## Main definitions

* `Provider.WritesRsa` — RSA keys are encoded in the one way there is.

## Main results

* `Inspection.modulusOf_written` — **the modulus in the encoding of a key, of any length.**
* `Inspection.head?_modulusOf` — no modulus starts with a zero byte.
* `exists_modulus_of_publicInfo` — **what is read agrees with what is known of the key.**
-/

namespace Keyring

open Asn1 Asn1.Strict Bytes

namespace Inspection

variable {k : Rsa.PublicKey} {b : Bytes}

/-- A written RSA key is an encoding, if it is not too long to be read. -/
theorem encodes_write (hwrite : PublicKey.write (.rsa k) = some b) (h : b.length < 2 ^ 32 + 6) :
    (PublicKeyInfo.mk Identifier.rsaEncryption (some Write.null) k.write).Encodes b where
  algorithm := by
    have hread : Oid.ofContent? Identifier.rsaEncryption.content =
        some Identifier.rsaEncryption := by decide
    exact (Oid.ofContent?_eq_some_iff.mp hread).1
  parameters := by
    rintro _ ⟨⟩
    exact ⟨⟨.null, [], Write.null⟩, ⟨by decide, by decide, rfl⟩, rfl⟩
  written := by
    -- no bit is unused, as the key is in whole bytes
    refine ⟨0, by decide, ?_, fun _ => rfl, (Option.some.inj hwrite).symm⟩
    exact one_dvd _
  length_lt := h

/-- The key is shorter than the encoding around it. -/
theorem length_write_lt (hwrite : PublicKey.write (.rsa k) = some b) (h : b.length < 2 ^ 32 + 6) :
    k.write.length < 2 ^ 32 := by
  have hb : b = Write.element 0x30
      (PublicKey.writeAlgorithm Identifier.rsaEncryption Write.null ++
        Write.element 0x03 (0 :: k.write)) := by
    rw [← Option.some.inj hwrite]
    simp [Write.sequence, Write.bitString]
  rw [hb] at h
  -- the content is what the limit is about; the key is a part of it
  have hcontent := length_element_lt_iff.mp h
  have hkey := length_lt_element 0x03 (0 :: k.write)
  rw [List.length_append] at hcontent
  have hcons : (0 :: k.write).length = k.write.length + 1 := List.length_cons
  omega

/-- **The modulus in the encoding of a key, of any length**: it is found exactly if the encoding
is not too long to be read. -/
theorem modulusOf_written (hwrite : PublicKey.write (.rsa k) = some b) :
    modulusOf b = if b.length < 2 ^ 32 + 6 then some (minimal k.modulus) else none := by
  unfold modulusOf
  split
  · next h =>
    simp only [read_eq_some_iff.mpr (encodes_write hwrite h), Option.bind_eq_bind,
      Option.bind_some, ne_eq, not_true, if_false, readRsaKey_write (length_write_lt hwrite h),
      dropZeros_eq_minimal, value_unsignedContent, Option.pure_def]
  · next h =>
    -- whatever could be read would be within the limit
    have hread : PublicKeyInfo.read b = none := by
      rw [Option.eq_none_iff_forall_ne_some]
      intro i hi
      exact h (read_eq_some_iff.mp hi).length_lt
    rw [hread]
    rfl

/-- No modulus starts with a zero byte. -/
theorem head?_modulusOf {m : Bytes} (h : modulusOf b = some m) : m.head? ≠ some 0 := by
  obtain ⟨i, -, h⟩ := Option.bind_eq_some_iff.mp h
  split at h
  · cases h
  · obtain ⟨⟨modulus, exponent⟩, -, h⟩ := Option.bind_eq_some_iff.mp h
    cases h
    rw [dropZeros_eq_minimal]
    exact head?_minimal _

end Inspection

/-- RSA keys are encoded in the one way there is, however long the encoding. -/
def Provider.WritesRsa (P : Provider) : Prop :=
  ∀ key b, P.encodePublic (.rsa key) = some b → PublicKey.write (.rsa key) = some b

/-- **What is read agrees with what is known of the key**: the modulus has the bytes and the bits
that the key has. -/
theorem exists_modulus_of_publicInfo {P : Provider} {k : PublicKey} {i : PublicInfo}
    (hP : P.WritesRsa) (hinfo : publicInfo P k = .ok i) (hrsa : i.algorithm = .rsa)
    (hlength : i.encoding.length < 2 ^ 32 + 6) :
    ∃ m, i.modulus = some m ∧ m.length = i.byteSize ∧ bitLength (value m) = i.bitSize := by
  obtain ⟨halgorithm, hsize, hencode, -⟩ := publicInfo_eq_ok hinfo
  rw [hrsa] at halgorithm
  -- keys of other algorithms do not have the algorithm of `i`
  cases k with
  | rsa key =>
    have hmodulus : i.modulus = some (minimal key.modulus) := by
      rw [PublicInfo.modulus, Inspection.modulusOf_written (hP key i.encoding hencode),
        if_pos hlength]
    refine ⟨minimal key.modulus, hmodulus, ?_, ?_⟩
    · rw [length_minimal, PublicInfo.byteSize, hsize]
      rfl
    · rw [value_minimal, hsize]
      rfl
  | rsaPss key => cases halgorithm
  | dsa key => cases halgorithm
  | ec key => cases halgorithm
  | other name => cases halgorithm

end Keyring
