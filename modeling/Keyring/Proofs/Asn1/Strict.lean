import Keyring.Asn1.Strict
import Keyring.Asn1.Write
import Keyring.Proofs.Bytes

/-!
# Reading back what was written

The strict reader takes an element that was written apart again: it finds the tag, the
content and whatever follows.  Lengths of up to four bytes are read, so contents have to
be shorter than `2 ^ 32` bytes.

## Main results

* `readLength_length` — lengths are read back.
* `readElement_element` — **elements are read back**, `singleOf_element` and
  `next_element` by their tag.
* `unsigned?_unsignedContent` — integers are written in their shortest form, which is the
  only one that is read; `first_unsignedContent`, `second_unsignedContent` give its
  first bytes.
-/

namespace Keyring.Asn1.Strict

open Bytes

/-! ### Lengths -/

/-- The number of length bytes in the low bits of the first one. -/
theorem toNat_lengthByte : ∀ k : Fin 5,
    (UInt8.ofNat (128 + k.val) &&& 0x7f).toNat = k.val ∧ ¬UInt8.ofNat (128 + k.val) < 0x80 := by
  decide

theorem byteLength_le_four {n : Nat} (h : n < 2 ^ 32) : byteLength n ≤ 4 := by
  rcases Nat.eq_zero_or_pos n with rfl | hpos
  · decide
  · have hlt := (Nat.pow_lt_pow_iff_right Nat.one_lt_two).mp
      (Nat.lt_of_le_of_lt (two_pow_le_of_bitLength hpos) h)
    unfold byteLength bytesFor
    omega

theorem byteLength_pos {n : Nat} (h : 0 < n) : 0 < byteLength n := by
  refine Nat.pos_of_ne_zero fun hzero => ?_
  have hlt := lt_pow_byteLength n
  rw [hzero, Nat.pow_zero] at hlt
  omega

/-- Lengths are read back. -/
theorem readLength_length {n : Nat} (h : n < 2 ^ 32) (rest : Bytes) :
    readLength (Write.length n ++ rest) = some (n, rest) := by
  unfold Write.length
  by_cases hn : n < 128
  · have hbyte : (UInt8.ofNat n).toNat = n := by
      rw [UInt8.toNat_ofNat', Nat.mod_eq_of_lt (by omega)]
    have hlt : UInt8.ofNat n < 0x80 := UInt8.lt_iff_toNat_lt.mpr (by rw [hbyte]; exact hn)
    rw [if_pos hn, List.singleton_append, readLength, if_pos hlt, hbyte]
  · -- the first byte says how many bytes the length has
    have hfour := byteLength_le_four h
    have hpos : 0 < byteLength n := byteLength_pos (by omega)
    obtain ⟨hcount, hlong⟩ := toNat_lengthByte ⟨byteLength n, by omega⟩
    dsimp only at hcount hlong
    have htake : (minimal n ++ rest).take (byteLength n) = minimal n := by
      rw [← length_minimal n, List.take_left]
    have hdrop : (minimal n ++ rest).drop (byteLength n) = rest := by
      rw [← length_minimal n, List.drop_left]
    have hhead : ((minimal n).head? == some 0) = false :=
      beq_eq_false_iff_ne.mpr (head?_minimal n)
    rw [if_neg hn, List.cons_append, readLength, if_neg hlong]
    simp only [hcount, htake, hdrop, hhead, length_minimal, value_minimal]
    rw [if_neg, if_neg]
    · simpa using hn
    · simp
      omega

/-! ### Elements -/

/-- A content of less than `2 ^ 32` bytes is read back, with the tag of its identifier. -/
theorem readElement_element {identifier : UInt8} {tag : Tag} {content : Bytes}
    (htag : ∀ rest, readTag (identifier :: rest) = some (tag, rest))
    (h : content.length < 2 ^ 32) (rest : Bytes) :
    readElement (Write.element identifier content ++ rest) =
      some (⟨tag, content, Write.element identifier content⟩, rest) := by
  have hwhole : (Write.element identifier content ++ rest).take
      ((Write.element identifier content ++ rest).length - rest.length) =
      Write.element identifier content := by
    rw [List.length_append, Nat.add_sub_cancel, List.take_left]
  have hsplit : Write.element identifier content ++ rest =
      identifier :: (Write.length content.length ++ (content ++ rest)) := by
    rw [Write.element, List.cons_append, List.cons_append, List.append_assoc]
  unfold readElement
  rw [hsplit, htag]
  simp only [Option.bind_eq_bind, Option.bind_some, readLength_length h]
  rw [← hsplit, if_neg (by simp), List.take_left, List.drop_left, hwhole]
  rfl

section Tagged

variable {identifier : UInt8} {tag : Tag} {content : Bytes}

theorem single_element (htag : ∀ rest, readTag (identifier :: rest) = some (tag, rest))
    (h : content.length < 2 ^ 32) :
    single (Write.element identifier content) =
      some ⟨tag, content, Write.element identifier content⟩ := by
  have hread := readElement_element htag h []
  rw [List.append_nil] at hread
  rw [single, hread]

theorem singleOf_element (htag : ∀ rest, readTag (identifier :: rest) = some (tag, rest))
    (h : content.length < 2 ^ 32) :
    singleOf tag (Write.element identifier content) = some content := by
  rw [singleOf, single_element htag h]
  exact if_pos rfl

theorem next_element (htag : ∀ rest, readTag (identifier :: rest) = some (tag, rest))
    (h : content.length < 2 ^ 32) (rest : Bytes) :
    next tag (Write.element identifier content ++ rest) = some (content, rest) := by
  rw [next, readElement_element htag h]
  exact if_pos rfl

theorem length_lt_element (identifier : UInt8) (content : Bytes) :
    content.length < (Write.element identifier content).length := by
  rw [Write.element, List.length_append, List.length_cons]
  omega

end Tagged

/-! ### Identifiers -/

theorem readTag_sequence (rest : Bytes) : readTag (0x30 :: rest) = some (.sequence, rest) := rfl

theorem readTag_integer (rest : Bytes) : readTag (0x02 :: rest) = some (.integer, rest) := rfl

theorem readTag_bitString (rest : Bytes) : readTag (0x03 :: rest) = some (.bitString, rest) := rfl

theorem readTag_oid (rest : Bytes) : readTag (0x06 :: rest) = some (.oid, rest) := rfl

/-! ### Contents -/

/-- Whole bytes are read back from a bit string. -/
theorem bitString?_cons_zero (b : Bytes) : bitString? (0 :: b) = some b := by
  simp only [bitString?]
  cases hlast : b.getLast? with
  | none =>
    rw [List.getLast?_eq_none_iff.mp hlast]
    rfl
  | some last => simp

/-- The content of an integer denotes it. -/
theorem value_unsignedContent (n : Nat) : value (Write.unsignedContent n) = n := by
  have h256 : (256 : Nat) = 2 ^ 8 := by decide
  refine value_ofNat_of_lt (Nat.lt_of_lt_of_le (lt_two_pow_bitLength n) ?_)
  rw [h256, ← Nat.pow_mul]
  exact Nat.pow_le_pow_right (by decide) (by omega)

theorem length_unsignedContent (n : Nat) :
    (Write.unsignedContent n).length = bitLength n / 8 + 1 := length_ofNat _ _

/-- The weight of the top bit of a byte with `k` bytes behind it. -/
theorem topBit_eq (k : Nat) : 128 * 256 ^ k = 2 ^ (7 + 8 * k) := by
  have h256 : (256 : Nat) = 2 ^ 8 := by decide
  rw [h256, ← Nat.pow_mul, Nat.pow_add]

section FirstBytes

variable {n : Nat} {a b : UInt8} {rest : Bytes}

/-- The first byte of an integer keeps its top bit clear. -/
theorem first_unsignedContent (h : Write.unsignedContent n = a :: rest) : a < 0x80 := by
  have hlen := length_unsignedContent n
  have hval := value_unsignedContent n
  have hlt := lt_two_pow_bitLength n
  rw [h, List.length_cons] at hlen
  rw [h, value_cons] at hval
  have hpow : 2 ^ bitLength n ≤ 128 * 256 ^ rest.length := by
    rw [topBit_eq]
    exact Nat.pow_le_pow_right (by decide) (by omega)
  have hmul : a.toNat * 256 ^ rest.length < 128 * 256 ^ rest.length := by omega
  exact UInt8.lt_iff_toNat_lt.mpr (Nat.lt_of_mul_lt_mul_right hmul)

/-- If the first byte of an integer is zero, then the second has its top bit set. -/
theorem second_unsignedContent (h : Write.unsignedContent n = 0 :: b :: rest) : ¬b < 0x80 := by
  intro hb
  have hb' : b.toNat < 128 := UInt8.lt_iff_toNat_lt.mp hb
  have hlen := length_unsignedContent n
  have hval := value_unsignedContent n
  rw [h, List.length_cons, List.length_cons] at hlen
  rw [h, value_cons, value_cons, UInt8.toNat_zero, Nat.zero_mul, Nat.zero_add] at hval
  have hpos : 0 < n := pos_of_bitLength_pos (by omega)
  have hge := two_pow_le_of_bitLength hpos
  have hpow : 128 * 256 ^ rest.length ≤ 2 ^ (bitLength n - 1) := by
    rw [topBit_eq]
    exact Nat.pow_le_pow_right (by decide) (by omega)
  -- without the top bit the number would have a byte less
  have hrest := value_lt rest
  have hmul : (b.toNat + 1) * 256 ^ rest.length ≤ 128 * 256 ^ rest.length :=
    Nat.mul_le_mul_right _ hb'
  rw [Nat.succ_mul] at hmul
  omega

end FirstBytes

/-- Integers are written in their shortest form. -/
theorem unsigned?_unsignedContent (n : Nat) :
    unsigned? (Write.unsignedContent n) = some (Write.unsignedContent n) := by
  cases hc : Write.unsignedContent n with
  | nil =>
    have hlen := length_unsignedContent n
    rw [hc, List.length_nil] at hlen
    omega
  | cons a rest =>
    have ha := first_unsignedContent hc
    cases rest with
    | nil => rw [unsigned?, if_pos ha]
    | cons b rest =>
      rw [unsigned?, if_neg]
      simp only [Bool.or_eq_true, Bool.and_eq_true, decide_eq_true_eq, beq_iff_eq, not_or, not_and]
      refine ⟨UInt8.not_le.mpr ha, ?_⟩
      rintro rfl
      exact second_unsignedContent hc

end Keyring.Asn1.Strict
