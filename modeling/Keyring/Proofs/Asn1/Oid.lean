import Keyring.Asn1.Oid
import Keyring.Proofs.Bytes
import Mathlib.Data.List.Basic

/-!
# Object identifiers and their encodings

The reader takes exactly the encodings of the paths within its limits, each as its path.  A number
that has been read in part is as good as the digits that were read; this one invariant serves
reading and writing.

## Main definitions

* `Oid.continued` — the digits of a number of which more follow.
* `Oid.readNumber` — one number in base 128, below a limit.
* `Oid.Readable` — a path within the limits of the reader.

## Main results

* `Oid.readNumber_eq_some_iff` — **a number is read exactly from its digits.**
* `Oid.ofContent?_eq_some_iff` — **a path is read exactly from its encoding.**
* `Oid.text_injective` — a path is told by its dotted form.
-/

namespace Keyring

/-- A digit less has seven bits less. -/
theorem bitLength_div_128 (n : Nat) : bitLength (n / 128) = bitLength n - 7 := by
  refine eq_of_forall_ge_iff fun k => ?_
  rw [bitLength_le_iff, Nat.sub_le_iff_le_add, bitLength_le_iff, Nat.pow_add,
    Nat.div_lt_iff_lt_mul (by decide)]

namespace Oid

/-! ### Numbers in base 128 -/

/-- The digits of a number of which more follow; none for zero. -/
def continued (n : Nat) : Bytes := base128Prefix ((bitLength n + 6) / 7) n

@[simp] theorem continued_zero : continued 0 = [] := rfl

theorem continued_of_pos {n : Nat} (h : 0 < n) :
    continued n = continued (n / 128) ++ [UInt8.ofNat (128 + n % 128)] := by
  have hbits : 0 < bitLength n := Nat.pos_of_ne_zero fun h0 => by
    have hlt := lt_two_pow_bitLength n
    rw [h0] at hlt
    omega
  have hdigits : (bitLength n + 6) / 7 = (bitLength (n / 128) + 6) / 7 + 1 := by
    rw [bitLength_div_128]
    omega
  rw [continued, hdigits]
  rfl

theorem base128_eq (n : Nat) : base128 n = continued (n / 128) ++ [UInt8.ofNat (n % 128)] := rfl

theorem base128_ne_nil (n : Nat) : base128 n ≠ [] := by
  simp [base128_eq]

/-- The last digit of a number. -/
theorem toNat_last {d : Nat} (h : d < 128) :
    (UInt8.ofNat d &&& 0x7f).toNat = d ∧ UInt8.ofNat d < 0x80 := by
  have hdigit : (UInt8.ofNat d).toNat = d := by
    rw [UInt8.toNat_ofNat']
    omega
  have hmask : (0x7f : UInt8).toNat = 2 ^ 7 - 1 := rfl
  refine ⟨?_, UInt8.lt_iff_toNat_lt.mpr (by rw [hdigit]; exact h)⟩
  rw [UInt8.toNat_and, hdigit, hmask, Nat.and_two_pow_sub_one_eq_mod]
  omega

/-- A digit of which more follow. -/
theorem toNat_more {d : Nat} (h : d < 128) :
    (UInt8.ofNat (128 + d) &&& 0x7f).toNat = d ∧ ¬UInt8.ofNat (128 + d) < 0x80 := by
  have hdigit : (UInt8.ofNat (128 + d)).toNat = 128 + d := by
    rw [UInt8.toNat_ofNat']
    omega
  have hmask : (0x7f : UInt8).toNat = 2 ^ 7 - 1 := rfl
  constructor
  · rw [UInt8.toNat_and, hdigit, hmask, Nat.and_two_pow_sub_one_eq_mod]
    omega
  · rw [UInt8.lt_iff_toNat_lt, hdigit]
    simp

/-- A byte is one of the two. -/
theorem digit_cases (b : UInt8) : ∃ d < 128, (b &&& 0x7f).toNat = d ∧
    (b < 0x80 ∧ b = UInt8.ofNat d ∨ ¬b < 0x80 ∧ b = UInt8.ofNat (128 + d)) := by
  have hb := b.toNat_lt
  have hmask : (0x7f : UInt8).toNat = 2 ^ 7 - 1 := rfl
  have hand : (b &&& 0x7f).toNat = b.toNat % 128 := by
    rw [UInt8.toNat_and, hmask, Nat.and_two_pow_sub_one_eq_mod]
  refine ⟨b.toNat % 128, Nat.mod_lt _ (by decide), hand, ?_⟩
  by_cases h : b < 0x80
  · have hlt : b.toNat < 128 := UInt8.lt_iff_toNat_lt.mp h
    refine .inl ⟨h, ?_⟩
    rw [Nat.mod_eq_of_lt hlt, UInt8.ofNat_toNat]
  · have hge : 128 ≤ b.toNat := Nat.not_lt.mp fun hlt => h (UInt8.lt_iff_toNat_lt.mpr hlt)
    refine .inr ⟨h, ?_⟩
    rw [show 128 + b.toNat % 128 = b.toNat by omega, UInt8.ofNat_toNat]

/-- Reads a number below a limit, of which `v` was read so far. -/
def readNumber (limit v : Nat) (fresh : Bool) : Bytes → Option (Nat × Bytes)
  | [] => none
  | b :: rest =>
    if fresh && b == 0x80 then none
    else
      let v := v * 128 + (b &&& 0x7f).toNat
      if limit ≤ v then none
      else if b < 0x80 then some (v, rest)
      else readNumber limit v false rest

section Read

variable {limit v : Nat}

/-- What was read of a number stands for its digits. -/
theorem readNumber_continued (h : v < limit) (rest : Bytes) :
    readNumber limit 0 true (continued v ++ rest) = readNumber limit v (v == 0) rest := by
  induction v using Nat.strongRecOn generalizing rest with
  | ind v ih =>
    rcases Nat.eq_zero_or_pos v with rfl | hpos
    · rfl
    obtain ⟨hand, hmore⟩ := toNat_more (Nat.mod_lt v (by decide : 0 < 128))
    have hfirst : ((v / 128 == 0) && UInt8.ofNat (128 + v % 128) == 0x80) = false := by
      by_contra hne
      simp only [Bool.not_eq_false, Bool.and_eq_true, beq_iff_eq] at hne
      have hzero : v % 128 = 0 := by
        rw [← hand, hne.2]
        rfl
      omega
    have hvalue : v / 128 * 128 + v % 128 = v := by omega
    have hne : (v == 0) = false := by simp; omega
    rw [continued_of_pos hpos, List.append_assoc, ih (v / 128) (by omega) (by omega)]
    simp only [List.singleton_append, readNumber, hfirst, hand, hvalue, if_neg hmore, hne]
    rw [if_neg (by simp), if_neg (Nat.not_le.mpr h)]

/-- A number is read back. -/
theorem readNumber_base128 (h : v < limit) (rest : Bytes) :
    readNumber limit 0 true (base128 v ++ rest) = some (v, rest) := by
  obtain ⟨hand, hlast⟩ := toNat_last (Nat.mod_lt v (by decide : 0 < 128))
  have hne : UInt8.ofNat (v % 128) ≠ 0x80 := by
    intro heq
    rw [heq] at hlast
    exact absurd hlast (by decide)
  have hfirst : ((v / 128 == 0) && UInt8.ofNat (v % 128) == 0x80) = false := by
    rw [beq_eq_false_iff_ne.mpr hne, Bool.and_false]
  have hvalue : v / 128 * 128 + v % 128 = v := by omega
  rw [base128_eq, List.append_assoc, readNumber_continued (by omega)]
  simp only [List.singleton_append, readNumber, hfirst, hand, hvalue, if_pos hlast]
  rw [if_neg (by simp), if_neg (Nat.not_le.mpr h)]

/-- What is read has minimal digits. -/
theorem eq_of_readNumber {c rest : Bytes} {n : Nat}
    (h : readNumber limit v (v == 0) c = some (n, rest)) :
    n < limit ∧ continued v ++ c = base128 n ++ rest := by
  induction c generalizing v with
  | nil => cases h
  | cons b c ih =>
    obtain ⟨d, hd, hand, hb⟩ := digit_cases b
    simp only [readNumber, hand] at h
    split at h
    · cases h
    next hfirst =>
    split at h
    · cases h
    next hlimit =>
    have hdiv : (v * 128 + d) / 128 = v := by omega
    have hmod : (v * 128 + d) % 128 = d := by omega
    rcases hb with ⟨hlast, rfl⟩ | ⟨hmore, rfl⟩
    · -- the number is complete
      rw [if_pos hlast] at h
      cases h
      refine ⟨Nat.not_le.mp hlimit, ?_⟩
      rw [base128_eq, hdiv, hmod, List.append_assoc]
      rfl
    · -- it goes on, and is not zero
      rw [if_neg hmore] at h
      have hpos : 0 < v * 128 + d := by
        refine Nat.pos_of_ne_zero fun hzero => hfirst ?_
        obtain ⟨rfl, rfl⟩ : v = 0 ∧ d = 0 := by omega
        rfl
      have hfresh : (v * 128 + d == 0) = false := by simp; omega
      rw [← hfresh] at h
      obtain ⟨hn, hc⟩ := ih h
      rw [continued_of_pos hpos, hdiv, hmod, List.append_assoc] at hc
      exact ⟨hn, hc⟩

/-- **A number is read exactly from its digits.** -/
theorem readNumber_eq_some_iff {c rest : Bytes} {n : Nat} :
    readNumber limit 0 true c = some (n, rest) ↔ n < limit ∧ c = base128 n ++ rest := by
  constructor
  · exact eq_of_readNumber
  · rintro ⟨hn, rfl⟩
    exact readNumber_base128 hn rest

end Read

/-- Numbers are read one after the other. -/
theorem readNumbers_eq {v : Nat} {fresh : Bool} {c : Bytes} (h : fresh = false ∨ c ≠ []) :
    readNumbers v fresh c = (readNumber (2 ^ 128) v fresh c).bind fun x =>
      (readNumbers 0 true x.2).map (x.1 :: ·) := by
  induction c generalizing v fresh with
  | nil =>
    rw [h.resolve_right (not_not_intro rfl)]
    rfl
  | cons b c ih =>
    rw [readNumbers, readNumber]
    dsimp only
    split
    · rfl
    split
    · next hlimit =>
      rw [if_pos (show 2 ^ 128 ≤ _ from hlimit)]
      rfl
    next hlimit =>
    rw [if_neg (show ¬2 ^ 128 ≤ _ from hlimit)]
    split
    · rfl
    · exact ih (.inl rfl)

/-- They are read exactly from their digits. -/
theorem readNumbers_eq_some_iff {c : Bytes} {ns : List Nat} :
    readNumbers 0 true c = some ns ↔ c = ns.flatMap base128 ∧ ∀ n ∈ ns, n < 2 ^ 128 := by
  induction ns generalizing c with
  | nil =>
    cases c with
    | nil => simp [readNumbers]
    | cons b c =>
      rw [readNumbers_eq (.inr (List.cons_ne_nil b c))]
      simp [Option.bind_eq_some_iff]
  | cons n ns ih =>
    cases c with
    | nil => simp [readNumbers, base128_ne_nil]
    | cons b c =>
      rw [readNumbers_eq (.inr (List.cons_ne_nil b c)), List.flatMap_cons, List.forall_mem_cons]
      constructor
      · intro h
        obtain ⟨⟨n', rest⟩, hn, h⟩ := Option.bind_eq_some_iff.mp h
        obtain ⟨ns', hns, h⟩ := Option.map_eq_some_iff.mp h
        cases h
        obtain ⟨hlt, hc⟩ := readNumber_eq_some_iff.mp hn
        obtain ⟨rfl, hlt'⟩ := ih.mp hns
        exact ⟨hc, hlt, hlt'⟩
      · rintro ⟨hc, hlt, hlt'⟩
        rw [readNumber_eq_some_iff.mpr ⟨hlt, hc⟩, Option.bind_some, ih.mpr ⟨rfl, hlt'⟩]
        rfl

/-! ### Paths -/

/-- A path within the limits of the reader: the first number is at most two, below two the second
is below 40, and the encoding has at most 63 bytes with numbers below `2 ^ 128`. -/
structure Readable (o : Oid) : Prop where
  exists_eq : ∃ a b rest, o = a :: b :: rest ∧ (a < 2 ∧ b < 40 ∨ a = 2) ∧
    40 * a + b < 2 ^ 128 ∧ ∀ n ∈ rest, n < 2 ^ 128
  length_le : o.content.length ≤ 63

/-- Splitting the first number undoes that two were merged. -/
theorem splitFirst_eq_iff {n a b : Nat} :
    splitFirst n = [a, b] ↔ n = 40 * a + b ∧ (a < 2 ∧ b < 40 ∨ a = 2) := by
  unfold splitFirst
  split
  · simp only [List.cons.injEq, and_true]
    omega
  · simp only [List.cons.injEq, and_true]
    omega

theorem exists_splitFirst (n : Nat) : ∃ a b, splitFirst n = [a, b] := by
  unfold splitFirst
  split
  · exact ⟨_, _, rfl⟩
  · exact ⟨_, _, rfl⟩

/-- **A path is read exactly from its encoding.** -/
theorem ofContent?_eq_some_iff {c : Bytes} {o : Oid} :
    ofContent? c = some o ↔ o.Readable ∧ c = o.content := by
  constructor
  · intro h
    unfold ofContent? at h
    split at h
    · cases h
    next hlength =>
    split at h
    · next n rest hread =>
      obtain ⟨rfl, hns⟩ := readNumbers_eq_some_iff.mp hread
      obtain ⟨hn, hrest⟩ := List.forall_mem_cons.mp hns
      obtain ⟨a, b, hsplit⟩ := exists_splitFirst n
      obtain ⟨rfl, hab⟩ := splitFirst_eq_iff.mp hsplit
      rw [hsplit] at h
      cases h
      exact ⟨⟨⟨a, b, rest, rfl, hab, hn, hrest⟩, Nat.not_lt.mp hlength⟩, rfl⟩
    · cases h
  · rintro ⟨⟨⟨a, b, rest, rfl, hab, hn, hrest⟩, hlength⟩, rfl⟩
    have hread : readNumbers 0 true (content (a :: b :: rest)) =
        some ((40 * a + b) :: rest) :=
      readNumbers_eq_some_iff.mpr ⟨rfl, List.forall_mem_cons.mpr ⟨hn, hrest⟩⟩
    rw [ofContent?, if_neg (Nat.not_lt.mpr hlength), hread]
    simp only [splitFirst_eq_iff.mpr ⟨rfl, hab⟩]
    rfl

/-! ### Dotted forms -/

/-- The dotted form, character by character. -/
theorem toList_text (o : Oid) :
    o.text.toList = ['.'].intercalate (o.map (Nat.toDigits 10)) := by
  have hdigits : ∀ n : Nat, (toString n).toList = Nat.toDigits 10 n := fun n => Nat.toList_repr
  rw [text, String.toList_intercalate, List.map_map]
  congr 1
  exact List.map_congr_left fun n _ => hdigits n

theorem dot_notMem_toDigits (n : Nat) : '.' ∉ Nat.toDigits 10 n := by
  intro h
  exact absurd (Nat.isDigit_of_mem_toDigits (by decide) (by decide) h) (by decide)

/-- Nothing but digits and dots. -/
theorem mem_text {o : Oid} {c : Char} (h : c ∈ o.text.toList) : c = '.' ∨ c.isDigit := by
  rw [toList_text] at h
  induction o with
  | nil => cases h
  | cons n o ih =>
    cases o with
    | nil =>
      simp only [List.map_cons, List.map_nil, List.intercalate_singleton] at h
      exact .inr (Nat.isDigit_of_mem_toDigits (by decide) (by decide) h)
    | cons m o =>
      simp only [List.map_cons, List.intercalate_cons_cons] at h ih
      simp only [List.append_assoc, List.mem_append, List.mem_singleton] at h
      rcases h with h | rfl | h
      · exact .inr (Nat.isDigit_of_mem_toDigits (by decide) (by decide) h)
      · exact .inl rfl
      · exact ih h

/-- A path is told by its dotted form. -/
theorem text_injective : Function.Injective text := by
  intro o o' h
  have hlist := congrArg String.toList h
  rw [toList_text, toList_text] at hlist
  -- the digits are what stands between the dots
  have hsplit : ∀ p : Oid, p ≠ [] →
      (['.'].intercalate (p.map (Nat.toDigits 10))).splitOn '.' = p.map (Nat.toDigits 10) := by
    intro p hp
    refine List.splitOn_intercalate '.' ?_ (by simpa using hp)
    intro l hl
    obtain ⟨n, -, rfl⟩ := List.mem_map.mp hl
    exact dot_notMem_toDigits n
  have hnil : ∀ p : Oid, ['.'].intercalate (p.map (Nat.toDigits 10)) = [] → p = [] := by
    intro p hp
    by_contra hne
    have hdigits := hsplit p hne
    rw [hp] at hdigits
    obtain ⟨n, p, rfl⟩ := List.exists_cons_of_ne_nil hne
    simp only [List.splitOn_nil, List.map_cons, List.cons.injEq] at hdigits
    exact Nat.toDigits_ne_nil hdigits.1.symm
  by_cases ho : o = []
  · subst ho
    exact (hnil o' hlist.symm).symm
  · have ho' : o' ≠ [] := by
      rintro rfl
      exact ho (hnil o hlist)
    have hdigits : Function.LeftInverse (fun l => Nat.ofDigitChars 10 l 0) (Nat.toDigits 10) :=
      fun n => Nat.ofDigitChars_toDigits (by decide) (by decide)
    refine List.map_injective_iff.mpr hdigits.injective ?_
    rw [← hsplit o ho, hlist, hsplit o' ho']

end Oid

end Keyring
