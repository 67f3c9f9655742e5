import Keyring.Bytes

/-!
# The leading bits of a byte string

A block of `b` bits is stored in whole bytes, so up to seven bits in front of it
must be zero.  One function clears leading bits, the other tests them; bits that
a short string does not have count as zero.
-/

namespace Keyring.Pss

/-- Clears the `x` leading bits. -/
def clearLeading : Nat → Bytes → Bytes
  | _, [] => []
  | x, b :: rest =>
    if 8 ≤ x then 0 :: clearLeading (x - 8) rest
    else (b &&& (0xff >>> UInt8.ofNat x)) :: rest

/-- Whether the `x` leading bits are zero. -/
def leadingClear : Nat → Bytes → Bool
  | _, [] => true
  | x, b :: rest =>
    if 8 ≤ x then b == 0 && leadingClear (x - 8) rest
    else b &&& ~~~(0xff >>> UInt8.ofNat x) == 0

@[simp] theorem length_clearLeading (x : Nat) (v : Bytes) :
    (clearLeading x v).length = v.length := by
  induction v generalizing x with
  | nil => rfl
  | cons b rest ih => unfold clearLeading; split <;> simp [ih]

end Keyring.Pss
