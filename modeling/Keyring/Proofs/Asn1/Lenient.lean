import Keyring.Asn1.Lenient
import Keyring.Proofs.Asn1.Strict
import Mathlib.Algebra.BigOperators.Group.List.Basic

/-!
# The first element, and nothing else

The lenient reader takes the first element of a byte string apart from what follows it: whatever
is put behind, the same element is read, and what was put there is left.  An element without a
length reaches up to its end mark, and the search for that is given as many steps as there are
bytes; more bytes only give it more steps.  What was written it reads back.

## Main results

* `afterEnd_append` — more steps and more bytes do not change where a content ends.
* `readElement_append` — **what follows an element does not matter**, `leading_append`.
* `reads_written` — elements are read back, `children_flatten` in a row.
* `integer?_signedOf` — so are integers.
-/

namespace Keyring.Asn1.Lenient

open Bytes

variable {b r x : Bytes} {e : Element}

/-! ### What comes first -/

/-- An element starts with its tag. -/
theorem exists_readTag (h : readElement b = some (e, r)) :
    ∃ rest, readTag b = some (e.tag, rest) := by
  obtain ⟨⟨t, n, rest⟩, hheader, h⟩ := Option.bind_eq_some_iff.mp h
  obtain ⟨⟨t', rest'⟩, htag, hheader⟩ := Option.bind_eq_some_iff.mp hheader
  obtain ⟨⟨n', rest''⟩, -, hheader⟩ := Option.bind_eq_some_iff.mp hheader
  have ht : t' = t := by
    dsimp only at hheader
    split at hheader <;> cases hheader
    rfl
  subst ht
  refine ⟨rest', htag.trans ?_⟩
  cases n with
  | some n =>
    dsimp only at h
    split at h <;> cases h
    rfl
  | none =>
    obtain ⟨after, -, h⟩ := Option.bind_eq_some_iff.mp h
    cases h
    rfl

/-! ### What follows -/

theorem readTagNumber_append {v n : Nat} (h : readTagNumber v b = some (n, r)) :
    readTagNumber v (b ++ x) = some (n, r ++ x) := by
  induction b generalizing v with
  | nil => cases h
  | cons a b ih =>
    rw [List.cons_append]
    dsimp only [readTagNumber] at h ⊢
    split at h
    · next hlast =>
      cases h
      rw [if_pos hlast]
    · next hmore =>
      rw [if_neg hmore]
      split at h
      · cases h
      · next hsmall =>
        rw [if_neg hsmall]
        exact ih h

theorem readTag_append {t : Tag} (h : readTag b = some (t, r)) :
    readTag (b ++ x) = some (t, r ++ x) := by
  cases b with
  | nil => cases h
  | cons a b =>
    rw [List.cons_append]
    dsimp only [readTag] at h ⊢
    split at h
    · next hmore =>
      obtain ⟨⟨n, r'⟩, hnumber, heq⟩ := Option.map_eq_some_iff.mp h
      cases heq
      rw [if_pos hmore, readTagNumber_append hnumber]
      rfl
    · next hshort =>
      cases h
      rw [if_neg hshort]

theorem readLength_append {n : Option Nat} (h : readLength b = some (n, r)) :
    readLength (b ++ x) = some (n, r ++ x) := by
  cases b with
  | nil => cases h
  | cons a b =>
    rw [List.cons_append]
    dsimp only [readLength] at h ⊢
    split at h
    · next hshort =>
      cases h
      rw [if_pos hshort]
    next hlong =>
    rw [if_neg hlong]
    split at h
    · next hindefinite =>
      cases h
      rw [if_pos hindefinite]
    next hdefinite =>
    rw [if_neg hdefinite]
    split at h
    · cases h
    · next hfits =>
      cases h
      -- all bytes of the length are there
      have hcount : (a &&& 0x7f).toNat ≤ b.length := by
        simp only [Bool.or_eq_true, decide_eq_true_eq, not_or, not_lt, List.length_take] at hfits
        omega
      rw [List.take_append_of_le_length hcount, if_neg hfits, List.drop_append_of_le_length hcount]

theorem readHeader_append {t : Tag} {n : Option Nat} (h : readHeader b = some (t, n, r)) :
    readHeader (b ++ x) = some (t, n, r ++ x) := by
  obtain ⟨⟨t', r'⟩, htag, h⟩ := Option.bind_eq_some_iff.mp h
  obtain ⟨⟨n', r''⟩, hlength, h⟩ := Option.bind_eq_some_iff.mp h
  unfold readHeader
  rw [readTag_append htag]
  simp only [Option.bind_eq_bind, Option.bind_some]
  rw [readLength_append hlength]
  dsimp only [Option.bind_some] at h ⊢
  split at h
  · cases h
  · next hconstructed =>
    cases h
    rw [if_neg hconstructed]
    rfl

/-- Where no end mark is, but the header of an element, there is none with more bytes behind. -/
theorem ne_endMark_append (hmark : ∀ rest, b ≠ 0 :: 0 :: rest) (h : (readHeader b).isSome) :
    ∀ rest, b ++ x ≠ 0 :: 0 :: rest := by
  rintro rest heq
  match b with
  | [] => cases h
  | [a] =>
    rw [List.cons_append] at heq
    cases heq
    cases h
  | a :: a' :: b =>
    cases heq
    exact hmark _ rfl

/-- What follows the end mark of a content is left with more bytes behind it. -/
theorem afterEnd_append {fuel fuel' depth : Nat} (h : afterEnd fuel depth b = some r)
    (hle : fuel ≤ fuel') : afterEnd fuel' depth (b ++ x) = some (r ++ x) := by
  induction fuel generalizing fuel' depth b with
  | zero => cases h
  | succ fuel ih =>
    obtain ⟨fuel', rfl⟩ := Nat.exists_eq_add_of_le' (Nat.one_le_of_lt hle)
    have hle' : fuel ≤ fuel' := Nat.le_of_succ_le_succ hle
    unfold afterEnd at h
    split at h
    · -- an end mark
      rw [List.cons_append, List.cons_append, afterEnd.eq_2]
      split at h
      · next hlast =>
        cases h
        rw [if_pos hlast]
      · next hmore =>
        rw [if_neg hmore]
        exact ih h hle'
    · next hmark =>
      cases hheader : readHeader b with
      | none =>
        rw [hheader] at h
        cases h
      | some p =>
        obtain ⟨t, n, rest⟩ := p
        have hmark' := ne_endMark_append (x := x) hmark (by rw [hheader]; rfl)
        rw [hheader] at h
        rw [afterEnd.eq_3 _ _ _ hmark', readHeader_append hheader]
        cases n with
        | none => exact ih h hle'
        | some n =>
          dsimp only at h ⊢
          split at h
          · cases h
          · next hfits =>
            rw [if_neg (by rw [List.length_append]; omega),
              List.drop_append_of_le_length (by omega)]
            exact ih h hle'

/-- **What follows an element does not matter**: it is left behind. -/
theorem readElement_append (h : readElement b = some (e, r)) :
    readElement (b ++ x) = some (e, r ++ x) := by
  obtain ⟨⟨t, n, rest⟩, hheader, h⟩ := Option.bind_eq_some_iff.mp h
  -- the bytes of an element are counted from the end
  have hcount : ∀ a c : Bytes, (a ++ x).length - (c ++ x).length = a.length - c.length := by
    intro a c
    rw [List.length_append, List.length_append, Nat.add_sub_add_right]
  have htake : ∀ (a : Bytes) (k : Nat), k ≤ a.length → (a ++ x).take k = a.take k :=
    fun a k hk => List.take_append_of_le_length hk
  unfold readElement
  rw [readHeader_append hheader]
  simp only [Option.bind_eq_bind, Option.bind_some]
  cases n with
  | some n =>
    dsimp only at h ⊢
    split at h
    · cases h
    · next hfits =>
      cases h
      rw [if_neg (by rw [List.length_append]; omega),
        List.drop_append_of_le_length (by omega), hcount, htake _ _ (by omega),
        htake _ _ (Nat.sub_le _ _)]
      rfl
  | none =>
    obtain ⟨after, hafter, h⟩ := Option.bind_eq_some_iff.mp h
    cases h
    dsimp only
    rw [afterEnd_append hafter (by rw [List.length_append]; omega)]
    simp only [Option.bind_some]
    rw [hcount, hcount, htake _ _ (by omega), htake _ _ (Nat.sub_le _ _)]
    rfl

/-- The element that a byte string begins with. -/
def leading (b : Bytes) : Option Element := (readElement b).map (·.1)

theorem leading_append (h : (leading b).isSome) : leading (b ++ x) = leading b := by
  obtain ⟨⟨e, r⟩, hread⟩ := Option.isSome_iff_exists.mp (Option.isSome_map.symm.trans h)
  rw [leading, leading, readElement_append hread, hread]
  rfl

variable {b' : Bytes} {t : Tag}

/-- Whoever looks at the first element looks at nothing else. -/
theorem first_congr (h : leading b = leading b') : first t b = first t b' := by
  have hfirst : ∀ b, first t b =
      (leading b).bind fun e => if sameTag t e.tag then some e else none := by
    intro b
    rw [first, leading]
    cases readElement b <;> rfl
  rw [hfirst, hfirst, h]

theorem sequence_congr (h : leading b = leading b') : Lenient.sequence b = Lenient.sequence b' := by
  rw [Lenient.sequence, Lenient.sequence, first_congr h]

theorem isSome_leading {parts : List Element} (h : Lenient.sequence b = some parts) :
    (leading b).isSome := by
  obtain ⟨e, hfirst, -⟩ := Option.bind_eq_some_iff.mp h
  obtain ⟨p, hread, -⟩ := Option.bind_eq_some_iff.mp hfirst
  rw [leading, hread]
  rfl

/-! ### Elements that were written -/

/-- The number of length bytes in the low bits of the first one. -/
theorem toNat_lengthByte : ∀ k : Fin 9, (UInt8.ofNat (128 + k.val) &&& 0x7f).toNat = k.val ∧
    ¬UInt8.ofNat (128 + k.val) < 0x80 := by
  decide

/-- Lengths are read back, if they are numbers of 63 bits. -/
theorem readLength_length {n : Nat} (h : n < 2 ^ 63) (rest : Bytes) :
    readLength (Write.length n ++ rest) = some (some n, rest) := by
  unfold Write.length
  by_cases hn : n < 128
  · have hbyte : (UInt8.ofNat n).toNat = n := by
      rw [UInt8.toNat_ofNat', Nat.mod_eq_of_lt (by omega)]
    have hlt : UInt8.ofNat n < 0x80 := UInt8.lt_iff_toNat_lt.mpr (by rw [hbyte]; exact hn)
    rw [if_pos hn, List.singleton_append, readLength, if_pos hlt, hbyte]
  · -- the first byte says how many bytes the length has
    have height : byteLength n ≤ 8 := by
      have hbits := bitLength_le_iff.mpr h
      unfold byteLength bytesFor
      omega
    have hpos : 0 < byteLength n := Strict.byteLength_pos (by omega)
    obtain ⟨hcount, hlong⟩ := toNat_lengthByte ⟨byteLength n, by omega⟩
    dsimp only at hcount hlong
    have htake : (minimal n ++ rest).take (byteLength n) = minimal n := by
      rw [← length_minimal n, List.take_left]
    have hdrop : (minimal n ++ rest).drop (byteLength n) = rest := by
      rw [← length_minimal n, List.drop_left]
    rw [if_neg hn, List.cons_append, readLength, if_neg hlong]
    simp only [hcount, htake, hdrop, length_minimal, value_minimal]
    have hfits : ¬twoTo 63 ≤ n := Nat.not_le.mpr h
    rw [if_neg hpos.ne', decide_eq_false (Nat.lt_irrefl _), decide_eq_false hfits]
    exact if_neg Bool.false_ne_true

/-- An element can be read from its bytes, whatever follows them. -/
def Reads (e : Element) : Prop := ∀ rest, readElement (e.whole ++ rest) = some (e, rest)

/-- An element under an identifier byte. -/
def written (identifier : UInt8) (tag : Tag) (content : Bytes) : Element :=
  ⟨tag, content, Write.element identifier content⟩

/-- Elements are read back, with the tag of their identifier. -/
theorem reads_written {identifier : UInt8} {tag : Tag} {content : Bytes}
    (htag : ∀ rest, readTag (identifier :: rest) = some (tag, rest))
    (h : (written identifier tag content).whole.length < 2 ^ 63) :
    Reads (written identifier tag content) := by
  intro rest
  have hlength := Nat.lt_trans (Strict.length_lt_element identifier content) h
  have hwhole : (Write.element identifier content ++ rest).take
      ((Write.element identifier content ++ rest).length - rest.length) =
      Write.element identifier content := by
    rw [List.length_append, Nat.add_sub_cancel, List.take_left]
  have hsplit : Write.element identifier content ++ rest =
      identifier :: (Write.length content.length ++ (content ++ rest)) := by
    rw [Write.element, List.cons_append, List.cons_append, List.append_assoc]
  have hheader : readHeader (Write.element identifier content ++ rest) =
      some (tag, some content.length, content ++ rest) := by
    rw [hsplit, readHeader, htag]
    simp only [Option.bind_eq_bind, Option.bind_some, readLength_length hlength]
    rfl
  unfold readElement
  rw [written, hheader]
  simp only [Option.bind_eq_bind, Option.bind_some]
  rw [if_neg (by simp), List.take_left, List.drop_left, hwhole]
  rfl

theorem Reads.whole_ne_nil (h : Reads e) : e.whole ≠ [] := by
  intro hnil
  have hread := h []
  rw [hnil] at hread
  cases hread

variable {es : List Element}

/-- Elements in a row are read back. -/
theorem children_flatten (h : ∀ e ∈ es, Reads e) :
    children (es.map (·.whole)).flatten = some es := by
  have hfuel : ∀ fuel, es.length ≤ fuel →
      childrenUpTo fuel (es.map (·.whole)).flatten = some es := by
    induction es with
    | nil =>
      intro fuel _
      cases fuel <;> rfl
    | cons e es ih =>
      intro fuel hle
      obtain ⟨he, hes⟩ := List.forall_mem_cons.mp h
      obtain ⟨fuel, rfl⟩ := Nat.exists_eq_add_of_le' (Nat.one_le_of_lt hle)
      have hmore := ih hes fuel (Nat.le_of_succ_le_succ hle)
      rw [List.map_cons, List.flatten_cons]
      have hne : e.whole ++ (es.map (·.whole)).flatten ≠ [] := by simp [he.whole_ne_nil]
      rw [childrenUpTo.eq_3 _ _ hne, he]
      simp only [Option.bind_eq_bind, Option.bind_some, hmore]
      rfl
  -- no element is empty
  have hpos : ∀ n ∈ (es.map (·.whole)).map List.length, 1 ≤ n := by
    intro n hn
    obtain ⟨w, hw, rfl⟩ := List.mem_map.mp hn
    obtain ⟨e, he, rfl⟩ := List.mem_map.mp hw
    exact List.length_pos_of_ne_nil (h e he).whole_ne_nil
  have hlength := List.length_le_sum_of_one_le _ hpos
  rw [List.length_map, List.length_map, ← List.length_flatten] at hlength
  exact hfuel _ hlength

/-! ### Values that were written -/

/-- A sequence of elements. -/
def sequenceOf (es : List Element) : Element :=
  written 0x30 .sequence (es.map (·.whole)).flatten

/-- An integer, not negative. -/
def integerOf (n : Nat) : Element := written 0x02 .integer (Write.unsignedContent n)

/-- An integer. -/
def signedOf (i : Int) : Element := written 0x02 .integer (Write.integerContent i)

/-- A bit string of whole bytes. -/
def bitsOf (b : Bytes) : Element := written 0x03 .bitString (0 :: b)

/-- An object identifier. -/
def oidOf (o : Oid) : Element := written 0x06 .oid o.content

/-- NULL. -/
def nullOf : Element := written 0x05 .null []

/-- An element is shorter than the sequence around it. -/
theorem length_whole_lt (h : e ∈ es) : e.whole.length < (sequenceOf es).whole.length := by
  have hmem : e.whole ∈ es.map (·.whole) := List.mem_map_of_mem h
  have hle := (List.sublist_flatten_of_mem hmem).length_le
  exact Nat.lt_of_le_of_lt hle (Strict.length_lt_element 0x30 _)

theorem partsOf_sequenceOf (h : ∀ e ∈ es, Reads e) : partsOf (sequenceOf es) = some es := by
  rw [partsOf]
  exact (if_pos rfl).trans (children_flatten h)

/-- A sequence is read back from the bytes that begin with it. -/
theorem sequence_sequenceOf (h : ∀ e ∈ es, Reads e) (hes : Reads (sequenceOf es)) (rest : Bytes) :
    Lenient.sequence ((sequenceOf es).whole ++ rest) = some es := by
  rw [Lenient.sequence, first, hes]
  exact partsOf_sequenceOf h

theorem unsigned?_integerOf (n : Nat) : unsigned? (integerOf n) = some n := by
  rw [unsigned?, integerOf, written]
  exact congrArg some (Strict.value_unsignedContent n)

/-- Whole bytes are read back from a bit string. -/
theorem bits_bitsOf (b : Bytes) : bits (bitsOf b) = some b := by
  have hoctets : octets (bitsOf b) = some (0 :: b) := rfl
  rw [bits, bitsWithUnused, hoctets]
  simp only [Option.bind_eq_bind, Option.bind_some]
  rw [if_neg (by decide)]
  cases hlast : b.getLast? with
  | none =>
    rw [List.getLast?_eq_none_iff.mp hlast]
    rfl
  | some last =>
    have hconcat := List.dropLast_append_getLast? last hlast
    have hmask : last &&& ((0xff : UInt8) <<< (0 : UInt8)) = last := UInt8.and_neg_one
    simp only [Option.map_some]
    rw [hmask, hconcat]

/-! ### Integers that were written -/

/-- A byte string with all bits turned over. -/
theorem value_map_not (b : Bytes) : value (b.map (~~~ ·)) + value b + 1 = 256 ^ b.length := by
  induction b with
  | nil => rfl
  | cons x b ih =>
    have hx : (~~~x).toNat = 255 - x.toNat := UInt8.toNat_not ..
    have hlt := x.toNat_lt
    have hsum : (255 - x.toNat) * 256 ^ b.length + x.toNat * 256 ^ b.length =
        255 * 256 ^ b.length := by
      rw [← Nat.add_mul, Nat.sub_add_cancel (by omega)]
    rw [List.map_cons, value_cons, value_cons, List.length_map, List.length_cons, Nat.pow_succ, hx]
    omega

/-- Of a byte and its complement, one has the top bit. -/
theorem complement_lt_iff {x : UInt8} : ~~~x < 0x80 ↔ ¬x < 0x80 := by
  have hx : (~~~x).toNat = 255 - x.toNat := UInt8.toNat_not ..
  have hlt := x.toNat_lt
  rw [UInt8.lt_iff_toNat_lt, UInt8.lt_iff_toNat_lt, hx]
  show 255 - x.toNat < 128 ↔ ¬x.toNat < 128
  omega

theorem isPadded_map_not (b : Bytes) : isPadded (b.map (~~~ ·)) = isPadded b := by
  match b with
  | [] => rfl
  | [_] => rfl
  | x :: y :: b =>
    have hle : ∀ z : UInt8, (0x80 ≤ z) ↔ ¬z < 0x80 := fun z => UInt8.not_lt.symm
    have hzero : ~~~x = 0 ↔ x = 0xff := by
      rw [UInt8.not_eq_comm]
      rfl
    have hfull : ~~~x = 0xff ↔ x = 0 := by
      rw [UInt8.not_eq_comm]
      rfl
    rw [Bool.eq_iff_iff]
    simp only [List.map_cons, isPadded, Bool.or_eq_true, Bool.and_eq_true, beq_iff_eq,
      decide_eq_true_eq, hle, complement_lt_iff, not_not, hzero, hfull]
    exact or_comm

/-- A number has a first byte, with its top bit clear. -/
theorem exists_first_unsignedContent (n : Nat) :
    ∃ a rest, Write.unsignedContent n = a :: rest ∧ a < 0x80 := by
  cases hc : Write.unsignedContent n with
  | nil =>
    have hlen := Strict.length_unsignedContent n
    rw [hc, List.length_nil] at hlen
    omega
  | cons a rest => exact ⟨a, rest, rfl, Strict.first_unsignedContent hc⟩

theorem isPadded_unsignedContent (n : Nat) : isPadded (Write.unsignedContent n) = false := by
  obtain ⟨a, rest, hc, ha⟩ := exists_first_unsignedContent n
  rw [hc]
  cases rest with
  | nil => rfl
  | cons b rest =>
    have hne : a ≠ 0xff := by
      rintro rfl
      exact absurd ha (by decide)
    have hzero : a = 0 → 0x80 ≤ b := by
      rintro rfl
      exact UInt8.not_lt.mp (Strict.second_unsignedContent hc)
    simpa [isPadded, hne] using hzero

/-- **Integers are read back**, negative ones by their complement. -/
theorem integer?_signedOf (i : Int) : integer? (signedOf i) = some i := by
  have hinteger : ∀ c : Bytes, isPadded c = false → integer? (written 0x02 .integer c) =
      if 0x80 ≤ c.headD 0 then some (Int.ofNat (value c) - Int.ofNat (twoTo (8 * c.length)))
      else some (Int.ofNat (value c)) := by
    intro c hc
    rw [integer?, if_neg]
    · rfl
    · rw [written, hc]
      exact Bool.false_ne_true
  cases i with
  | ofNat n =>
    obtain ⟨a, rest, hc, ha⟩ := exists_first_unsignedContent n
    have hpositive : ¬0x80 ≤ (Write.unsignedContent n).headD 0 := by
      rw [hc]
      exact UInt8.not_le.mpr ha
    rw [signedOf, Write.integerContent, hinteger _ (isPadded_unsignedContent n),
      if_neg hpositive, Strict.value_unsignedContent]
  | negSucc n =>
    obtain ⟨a, rest, hc, ha⟩ := exists_first_unsignedContent n
    have hnegative : 0x80 ≤ ((Write.unsignedContent n).map (~~~ ·)).headD 0 := by
      rw [hc]
      exact UInt8.not_lt.mp fun h => complement_lt_iff.mp h ha
    have hvalue := value_map_not (Write.unsignedContent n)
    have hpow : twoTo (8 * (Write.unsignedContent n).length) =
        256 ^ (Write.unsignedContent n).length := by
      rw [twoTo_eq, Nat.pow_mul]
    rw [Strict.value_unsignedContent] at hvalue
    rw [signedOf, Write.integerContent,
      hinteger _ ((isPadded_map_not _).trans (isPadded_unsignedContent n)), if_pos hnegative,
      List.length_map, hpow, ← hvalue]
    congr 1
    simp only [Int.ofNat_eq_natCast]
    omega

end Keyring.Asn1.Lenient
