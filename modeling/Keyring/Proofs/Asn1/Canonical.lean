import Keyring.Proofs.Asn1.Oid
import Keyring.Proofs.Asn1.Strict

/-!
# Strict reading is exact

Under the distinguished rules a value has one encoding.  So it is for the strict reader: it takes
a byte string apart exactly if that is an element as it is written, followed by what is left.

## Main definitions

* `Tag.write`, `Write.tagged` — tags and elements under any tag, as they are written.
* `Element.IsCanonical` — an element that is what is written of its tag and content.

## Main results

* `readTag_eq_some_iff`, `readLength_eq_some_iff`, `readElement_eq_some_iff` — **tags, lengths and
  elements are read exactly from what is written of them.**
* `single_eq_some_iff`, `singleOf_eq_some_iff`, `next_eq_some_iff` — elements by their tag.
* `bitString?_eq_some_iff` — the bits that do not count are zero.
-/

namespace Keyring.Asn1

open Bytes

/-! ### Tags -/

/-- The class in the two leading bits of an identifier byte. -/
def TagClass.bits : TagClass → Nat
  | universal => 0
  | application => 1
  | context => 2
  | privateUse => 3

namespace Tag

/-- The first byte of a tag, whose five low bits are given. -/
def leading (t : Tag) (low : Nat) : UInt8 :=
  UInt8.ofNat (64 * t.tagClass.bits + (if t.constructed then 32 else 0) + low)

/-- A tag in its shortest form: a number from 31 on does not fit the first byte. -/
def write (t : Tag) : Bytes :=
  if t.number < 31 then [t.leading t.number] else t.leading 31 :: Oid.base128 t.number

/-- The parts of a first byte. -/
theorem ofByte_leading (t : Tag) {low : Nat} (h : low < 32) :
    TagClass.ofByte (t.leading low) = t.tagClass ∧
      (t.leading low &&& 0x20 != 0) = t.constructed ∧ (t.leading low &&& 0x1f).toNat = low := by
  have hparts : ∀ (c : TagClass) (constructed : Bool) (low : Fin 32),
      let x := UInt8.ofNat (64 * c.bits + (if constructed then 32 else 0) + low.val)
      TagClass.ofByte x = c ∧ (x &&& 0x20 != 0) = constructed ∧ (x &&& 0x1f).toNat = low.val := by
    intro c constructed
    cases c <;> cases constructed <;> decide
  exact hparts t.tagClass t.constructed ⟨low, h⟩

/-- A first byte is made of its parts. -/
theorem leading_ofByte (x : UInt8) (n : Nat) :
    leading ⟨.ofByte x, x &&& 0x20 != 0, n⟩ (x &&& 0x1f).toNat = x ∧ (x &&& 0x1f).toNat < 32 := by
  have hparts : ∀ i : Fin 256, let x := UInt8.ofNat i.val
      UInt8.ofNat (64 * (TagClass.ofByte x).bits + (if x &&& 0x20 != 0 then 32 else 0) +
        (x &&& 0x1f).toNat) = x ∧ (x &&& 0x1f).toNat < 32 := by
    decide +kernel
  have hx := hparts ⟨x.toNat, x.toNat_lt⟩
  simp only [UInt8.ofNat_toNat] at hx
  exact hx

end Tag

namespace Write

/-- An element under any tag. -/
def tagged (t : Tag) (content : Bytes) : Bytes := t.write ++ length content.length ++ content

theorem element_eq_tagged {identifier : UInt8} {t : Tag} (h : t.write = [identifier])
    (content : Bytes) : element identifier content = tagged t content := by
  rw [element, tagged, h]
  rfl

end Write

/-- An element that is what is written of its tag and content, within the limits of the reader:
tags have numbers below `2 ^ 32`, contents are shorter than `2 ^ 32` bytes. -/
structure Element.IsCanonical (e : Element) : Prop where
  number_lt : e.tag.number < 2 ^ 32
  length_lt : e.content.length < 2 ^ 32
  whole_eq : e.whole = Write.tagged e.tag e.content

namespace Strict

theorem readTagNumber_eq (v : Nat) (first : Bool) (b : Bytes) :
    readTagNumber v first b = Oid.readNumber (2 ^ 32) v first b := by
  induction b generalizing v first with
  | nil => rfl
  | cons x b ih =>
    rw [readTagNumber, Oid.readNumber]
    simp only [twoTo_eq, ih]

/-- **Tags are read exactly from what is written of them.** -/
theorem readTag_eq_some_iff {b rest : Bytes} {t : Tag} :
    readTag b = some (t, rest) ↔ t.number < 2 ^ 32 ∧ b = t.write ++ rest := by
  constructor
  · intro h
    cases b with
    | nil => cases h
    | cons x b =>
      obtain ⟨hx, hlow⟩ := Tag.leading_ofByte x 0
      simp only [readTag] at h
      split at h
      · next hlong =>
        -- the number follows
        rw [hlong] at hx
        split at h
        · next n rest' hn =>
          obtain ⟨hlt, rfl⟩ := Oid.readNumber_eq_some_iff.mp ((readTagNumber_eq ..).symm.trans hn)
          split at h
          · cases h
          · next hge =>
            cases h
            refine ⟨hlt, ?_⟩
            rw [Tag.write, if_neg hge]
            exact congrArg (· :: _) hx.symm
        · cases h
      · next hshort =>
        cases h
        refine ⟨Nat.lt_of_lt_of_le hlow (by decide), ?_⟩
        rw [Tag.write, if_pos (show (x &&& 0x1f).toNat < 31 by omega)]
        exact congrArg (· :: rest) hx.symm
  · rintro ⟨hlt, rfl⟩
    unfold Tag.write
    split
    · next hshort =>
      obtain ⟨hclass, hconstructed, hnumber⟩ := t.ofByte_leading (by omega : t.number < 32)
      simp only [List.singleton_append, readTag, hclass, hconstructed, hnumber]
      rw [if_neg (by omega)]
    · next hlong =>
      obtain ⟨hclass, hconstructed, hnumber⟩ := t.ofByte_leading (by decide : 31 < 32)
      simp only [List.cons_append, readTag, hclass, hconstructed, hnumber, if_true,
        readTagNumber_eq, Oid.readNumber_base128 hlt]
      rw [if_neg hlong]

/-! ### Lengths -/

/-- The first byte of a long length. -/
theorem longLength_eq {x : UInt8} (h : ¬x < 0x80) :
    x = UInt8.ofNat (128 + (x &&& 0x7f).toNat) := by
  obtain ⟨d, -, hand, ⟨hlt, -⟩ | ⟨-, hx⟩⟩ := Oid.digit_cases x
  · exact absurd hlt h
  · rw [hand]
    exact hx

/-- **Lengths are read exactly from what is written of them.** -/
theorem readLength_eq_some_iff {b rest : Bytes} {n : Nat} :
    readLength b = some (n, rest) ↔ n < 2 ^ 32 ∧ b = Write.length n ++ rest := by
  constructor
  · intro h
    cases b with
    | nil => cases h
    | cons x b =>
      simp only [readLength] at h
      split at h
      · next hshort =>
        cases h
        have hlt : x.toNat < 128 := UInt8.lt_iff_toNat_lt.mp hshort
        refine ⟨by omega, ?_⟩
        rw [Write.length, if_pos hlt, UInt8.ofNat_toNat]
        rfl
      next hlong =>
      split at h
      · cases h
      next hcount =>
      split at h
      · cases h
      next hminimal =>
      cases h
      -- the digits are as many as the first byte says, without a zero in front
      generalize hk : (x &&& 0x7f).toNat = k at hcount hminimal
      simp only [Bool.or_eq_true, decide_eq_true_eq, not_or, List.length_take] at hcount
      simp only [Bool.or_eq_true, beq_iff_eq, decide_eq_true_eq, not_or] at hminimal
      have hlen : (b.take k).length = k := by
        rw [List.length_take]
        omega
      obtain ⟨d, ds, hdigits⟩ := List.exists_cons_of_length_pos
        (show 0 < (b.take k).length by omega)
      have hhead : d ≠ 0 := by
        rintro rfl
        rw [hdigits] at hminimal
        exact hminimal.1 rfl
      have hwrite : minimal (value (b.take k)) = b.take k := by
        rw [hdigits]
        exact minimal_value_cons hhead ds
      have hbytes : byteLength (value (b.take k)) = k := by
        rw [← length_minimal, hwrite, hlen]
      refine ⟨?_, ?_⟩
      · refine Nat.lt_of_lt_of_le (value_lt _) ?_
        rw [hlen, show (2 : Nat) ^ 32 = 256 ^ 4 by decide]
        exact Nat.pow_le_pow_right (by decide) (by omega)
      · have hx : x = UInt8.ofNat (128 + k) := hk ▸ longLength_eq hlong
        rw [Write.length, if_neg (by omega), hbytes, hwrite, ← hx, List.cons_append,
          List.take_append_drop]
  · rintro ⟨hn, rfl⟩
    exact readLength_length hn rest

/-! ### Elements -/

/-- **Elements are read exactly from what is written of them.** -/
theorem readElement_eq_some_iff {b rest : Bytes} {e : Element} :
    readElement b = some (e, rest) ↔ e.IsCanonical ∧ b = e.whole ++ rest := by
  constructor
  · intro h
    obtain ⟨⟨t, b₁⟩, htag, h⟩ := Option.bind_eq_some_iff.mp h
    obtain ⟨⟨n, b₂⟩, hlength, h⟩ := Option.bind_eq_some_iff.mp h
    obtain ⟨ht, rfl⟩ := readTag_eq_some_iff.mp htag
    obtain ⟨hn, rfl⟩ := readLength_eq_some_iff.mp hlength
    dsimp only at h
    split at h
    · cases h
    next hle =>
    cases h
    have hcontent : (b₂.take n).length = n := by
      rw [List.length_take]
      omega
    have hsplit : t.write ++ (Write.length n ++ b₂) =
        (t.write ++ Write.length n ++ b₂.take n) ++ b₂.drop n := by
      rw [List.append_assoc _ (b₂.take n), List.take_append_drop, List.append_assoc]
    have hwhole : (t.write ++ (Write.length n ++ b₂)).take
        ((t.write ++ (Write.length n ++ b₂)).length - (b₂.drop n).length) =
        t.write ++ Write.length n ++ b₂.take n := by
      rw [hsplit, List.length_append, Nat.add_sub_cancel, List.take_left]
    refine ⟨⟨ht, by rw [hcontent]; exact hn, ?_⟩, ?_⟩
    · rw [Write.tagged]
      dsimp only
      rw [hcontent]
      exact hwhole
    · dsimp only
      rw [hwhole]
      exact hsplit
  · rintro ⟨⟨hnumber, hlength, hwhole⟩, rfl⟩
    obtain ⟨t, content, whole⟩ := e
    dsimp only at hnumber hlength hwhole
    subst hwhole
    have hsplit : Write.tagged t content ++ rest =
        t.write ++ (Write.length content.length ++ (content ++ rest)) := by
      rw [Write.tagged, List.append_assoc, List.append_assoc]
    have htag : readTag (Write.tagged t content ++ rest) =
        some (t, Write.length content.length ++ (content ++ rest)) :=
      readTag_eq_some_iff.mpr ⟨hnumber, hsplit⟩
    unfold readElement
    rw [htag]
    simp only [Option.bind_eq_bind, Option.bind_some, readLength_length hlength]
    rw [if_neg (by simp), List.take_left, List.drop_left, List.length_append, Nat.add_sub_cancel,
      List.take_left]
    rfl

theorem single_eq_some_iff {b : Bytes} {e : Element} :
    single b = some e ↔ e.IsCanonical ∧ b = e.whole := by
  have hread : single b = some e ↔ readElement b = some (e, []) := by
    unfold single
    split
    · next e' h =>
      rw [h]
      simp
    · next h =>
      constructor
      · intro hnone
        cases hnone
      · intro hsome
        exact absurd hsome (h e)
  rw [hread, readElement_eq_some_iff, List.append_nil]

theorem singleOf_eq_some_iff {t : Tag} {b content : Bytes} (ht : t.number < 2 ^ 32) :
    singleOf t b = some content ↔ content.length < 2 ^ 32 ∧ b = Write.tagged t content := by
  constructor
  · intro h
    obtain ⟨e, he, h⟩ := Option.bind_eq_some_iff.mp h
    obtain ⟨⟨-, hlength, hwhole⟩, hb⟩ := single_eq_some_iff.mp he
    split at h
    · next htag =>
      cases h
      exact ⟨hlength, by rw [hb, hwhole, htag]⟩
    · cases h
  · rintro ⟨hlength, rfl⟩
    have he : single (Write.tagged t content) = some ⟨t, content, Write.tagged t content⟩ :=
      single_eq_some_iff.mpr ⟨⟨ht, hlength, rfl⟩, rfl⟩
    rw [singleOf, he]
    exact if_pos rfl

theorem next_eq_some_iff {t : Tag} {b content rest : Bytes} (ht : t.number < 2 ^ 32) :
    next t b = some (content, rest) ↔
      content.length < 2 ^ 32 ∧ b = Write.tagged t content ++ rest := by
  constructor
  · intro h
    obtain ⟨⟨e, rest'⟩, he, h⟩ := Option.bind_eq_some_iff.mp h
    obtain ⟨⟨-, hlength, hwhole⟩, hb⟩ := readElement_eq_some_iff.mp he
    dsimp only at h
    split at h
    · next htag =>
      cases h
      exact ⟨hlength, by rw [hb, hwhole, htag]⟩
    · cases h
  · rintro ⟨hlength, rfl⟩
    have he : readElement (Write.tagged t content ++ rest) =
        some (⟨t, content, Write.tagged t content⟩, rest) :=
      readElement_eq_some_iff.mpr ⟨⟨ht, hlength, rfl⟩, rfl⟩
    rw [next, he]
    exact if_pos rfl

/-! ### Bit strings -/

/-- The low bits of a byte are what remains modulo a power of two. -/
theorem and_lowBits {u : UInt8} (h : u.toNat < 8) (x : UInt8) :
    (x &&& ((1 <<< u) - 1)).toNat = x.toNat % 2 ^ u.toNat := by
  have hmask : ∀ i : Fin 8, ((1 : UInt8) <<< UInt8.ofNat i.val - 1).toNat = 2 ^ i.val - 1 := by
    decide
  have hu := hmask ⟨u.toNat, h⟩
  rw [UInt8.ofNat_toNat] at hu
  rw [UInt8.toNat_and, hu, Nat.and_two_pow_sub_one_eq_mod]

/-- The bits at the end of a string are those of its last byte. -/
theorem two_pow_dvd_value_concat {u : Nat} (h : u < 8) (b : Bytes) (x : UInt8) :
    2 ^ u ∣ value (b ++ [x]) ↔ x.toNat % 2 ^ u = 0 := by
  have hfull : 2 ^ u ∣ value b * 256 := by
    refine Dvd.dvd.mul_left ?_ _
    rw [show 256 = 2 ^ 8 from rfl]
    exact Nat.pow_dvd_pow 2 (by omega)
  rw [value_concat, Nat.dvd_add_right hfull, Nat.dvd_iff_mod_eq_zero]

/-- **Bit strings are read exactly from their bytes**, after the number of bits that do not count;
these are at most seven and zero. -/
theorem bitString?_eq_some_iff {c b : Bytes} :
    bitString? c = some b ↔ ∃ unused : UInt8, c = unused :: b ∧ unused.toNat < 8 ∧
      2 ^ unused.toNat ∣ value b ∧ (b = [] → unused = 0) := by
  cases c with
  | nil => simp [bitString?]
  | cons u c =>
    simp only [bitString?, List.cons.injEq]
    cases hlast : c.getLast? with
    | none =>
      obtain rfl := List.getLast?_eq_none_iff.mp hlast
      constructor
      · intro h
        dsimp only at h
        split at h
        · next hzero =>
          cases h
          exact ⟨u, ⟨rfl, rfl⟩, by rw [hzero]; decide, by simp, fun _ => hzero⟩
        · cases h
      · rintro ⟨_, ⟨rfl, rfl⟩, -, -, hzero⟩
        exact if_pos (hzero rfl)
    | some last =>
      obtain ⟨init, rfl⟩ := List.getLast?_eq_some_iff.mp hlast
      have hseven : 7 < u ↔ ¬u.toNat < 8 := by
        rw [UInt8.lt_iff_toNat_lt]
        exact Nat.not_lt.symm
      constructor
      · intro h
        dsimp only at h
        split at h
        · cases h
        · next hbits =>
          cases h
          simp only [Bool.or_eq_true, decide_eq_true_eq, bne_iff_ne, ne_eq, not_or, not_not,
            hseven] at hbits
          refine ⟨u, ⟨rfl, rfl⟩, hbits.1, ?_, by simp⟩
          rw [two_pow_dvd_value_concat hbits.1, ← and_lowBits hbits.1, hbits.2]
          rfl
      · rintro ⟨_, ⟨rfl, rfl⟩, hu, hdvd, -⟩
        have hzero : last &&& ((1 <<< u) - 1) = 0 := by
          rw [← UInt8.toNat_inj, and_lowBits hu]
          exact (two_pow_dvd_value_concat hu init last).mp hdvd
        dsimp only
        rw [if_neg]
        simp [hzero, hseven, hu]

end Strict

end Keyring.Asn1
