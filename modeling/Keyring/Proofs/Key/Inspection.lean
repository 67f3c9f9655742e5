import Keyring.Key.Inspection
import Keyring.Key.Public
import Keyring.Proofs.Asn1.Strict

/-!
# What is inspected is what was written

An RSA key is written with the numbers it has, and the modulus that the strict reader
finds in its encoding is the modulus of the key, in as many bytes as it needs.  The zero
that keeps a number from being read as a negative one is not part of what is found.  The
reader takes lengths of up to four bytes, so keys have to be shorter than that.

## Main results

* `readRsaKey_write` — the numbers in a written RSA key.
* `read_sequence`, `read_write` — the structure around a key.
* `modulusOf_write` — **the modulus in the encoding of a key is that of the key.**
-/

namespace Keyring.Inspection

open Asn1 Asn1.Strict Bytes

variable {k : Rsa.PublicKey}

/-- The numbers in a written RSA key. -/
theorem readRsaKey_write (h : k.write.length < 2 ^ 32) :
    readRsaKey k.write =
      some (Write.unsignedContent k.modulus, Write.unsignedContent k.exponent) := by
  have hwrite : k.write = Write.element 0x30
      (Write.integer k.modulus ++ Write.integer k.exponent) := by
    simp [Rsa.PublicKey.write, Write.sequence]
  rw [hwrite] at h ⊢
  -- each content is shorter than the element around it
  have hcontent := Nat.lt_trans (length_lt_element _ _) h
  have hlength : (Write.integer k.modulus ++ Write.integer k.exponent).length =
      (Write.integer k.modulus).length + (Write.integer k.exponent).length := List.length_append
  have hmodulus : (Write.unsignedContent k.modulus).length < 2 ^ 32 := by
    have hlt := length_lt_element 0x02 (Write.unsignedContent k.modulus)
    rw [← Write.integer] at hlt
    omega
  have hexponent : (Write.unsignedContent k.exponent).length < 2 ^ 32 := by
    have hlt := length_lt_element 0x02 (Write.unsignedContent k.exponent)
    rw [← Write.integer] at hlt
    omega
  unfold readRsaKey
  rw [singleOf_element readTag_sequence hcontent]
  simp only [Option.bind_eq_bind, Option.bind_some, Write.integer]
  rw [next_element readTag_integer hmodulus]
  simp only [Option.bind_some, unsigned?_unsignedContent]
  rw [singleOf_element readTag_integer hexponent]
  simp only [Option.bind_some, unsigned?_unsignedContent]
  rfl

/-- The structure around a written key, whose algorithm has one element as its parameters. -/
theorem read_sequence {o : Oid} {identifier : UInt8} {tag : Tag} {content key b : Bytes}
    (hb : b = Write.sequence
      [PublicKey.writeAlgorithm o (Write.element identifier content), Write.bitString key])
    (ho : Oid.ofContent? o.content = some o)
    (htag : ∀ rest, readTag (identifier :: rest) = some (tag, rest)) (h : b.length < 2 ^ 32) :
    key.length < 2 ^ 32 ∧ content.length < 2 ^ 32 ∧
      PublicKeyInfo.read b = some ⟨o, some (Write.element identifier content), key⟩ := by
  have hb' : b = Write.element 0x30
      (Write.element 0x30 (Write.element 0x06 o.content ++ Write.element identifier content) ++
        Write.element 0x03 (0 :: key)) := by
    rw [hb]
    simp [PublicKey.writeAlgorithm, Write.sequence, Write.oid, Write.bitString]
  -- each content is shorter than the element around it
  have hwhole := length_lt_element 0x30
    (Write.element 0x30 (Write.element 0x06 o.content ++ Write.element identifier content) ++
      Write.element 0x03 (0 :: key))
  have halgorithm := length_lt_element 0x30
    (Write.element 0x06 o.content ++ Write.element identifier content)
  have hoid := length_lt_element 0x06 o.content
  have hparameters := length_lt_element identifier content
  have hkey := length_lt_element 0x03 (0 :: key)
  rw [← hb', List.length_append] at hwhole
  rw [List.length_append] at halgorithm
  have hcons : (0 :: key).length = key.length + 1 := List.length_cons
  refine ⟨by omega, by omega, ?_⟩
  have hread : readParameters (Write.element identifier content) =
      some (some (Write.element identifier content)) := by
    rw [readParameters, single_element htag (by omega)]
    rfl
  unfold PublicKeyInfo.read
  rw [hb', singleOf_element readTag_sequence (by rw [List.length_append]; omega)]
  simp only [Option.bind_eq_bind, Option.bind_some]
  rw [next_element readTag_sequence (by rw [List.length_append]; omega)]
  simp only [Option.bind_some]
  rw [next_element readTag_oid (by omega)]
  simp only [Option.bind_some, ho, hread]
  rw [singleOf_element readTag_bitString (by omega)]
  simp only [Option.bind_some, bitString?_cons_zero]
  rfl

/-- The structure around a written RSA key. -/
theorem read_write {b : Bytes} (hwrite : PublicKey.write (.rsa k) = some b)
    (h : b.length < 2 ^ 32) :
    k.write.length < 2 ^ 32 ∧
      PublicKeyInfo.read b = some ⟨Identifier.rsaEncryption, some Write.null, k.write⟩ := by
  have hnull : ∀ rest, readTag (0x05 :: rest) = some (.null, rest) := fun _ => rfl
  obtain ⟨hkey, -, hread⟩ := read_sequence (Option.some.inj hwrite).symm (by decide) hnull h
  exact ⟨hkey, hread⟩

/-- **The modulus in the encoding of a key is that of the key.** -/
theorem modulusOf_write {b : Bytes} (hwrite : PublicKey.write (.rsa k) = some b)
    (h : b.length < 2 ^ 32) : modulusOf b = some (minimal k.modulus) := by
  obtain ⟨hkey, hread⟩ := read_write hwrite h
  unfold modulusOf
  rw [hread]
  simp only [Option.bind_eq_bind, Option.bind_some, ne_eq, not_true, if_false]
  rw [readRsaKey_write hkey]
  simp only [Option.bind_some]
  rw [dropZeros_eq_minimal, value_unsignedContent]
  rfl

/-- A key whose encoding has less than `2 ^ 32` bytes has a modulus of less than `2 ^ 35`
bits. -/
theorem bitSize_lt {b : Bytes} (hwrite : PublicKey.write (.rsa k) = some b)
    (h : b.length < 2 ^ 32) : k.bitSize < 2 ^ 35 := by
  obtain ⟨hkey, -⟩ := read_write hwrite h
  have hcontent := length_unsignedContent k.modulus
  have hinteger : (Write.unsignedContent k.modulus).length < (Write.integer k.modulus).length :=
    length_lt_element _ _
  have hnumbers :
      (Write.integer k.modulus ++ Write.integer k.exponent).length < k.write.length := by
    simpa [Rsa.PublicKey.write, Write.sequence] using
      length_lt_element 0x30 (Write.integer k.modulus ++ Write.integer k.exponent)
  rw [List.length_append] at hnumbers
  unfold Rsa.PublicKey.bitSize
  omega

end Keyring.Inspection
