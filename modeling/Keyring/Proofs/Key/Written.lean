import Keyring.Key.Public
import Keyring.Proofs.Asn1.Lenient

/-!
# Keys are read back

What is written of an RSA or DSA key, with its algorithm or without, is read back as the key,
whatever follows it.

The lenient reader takes lengths below `2 ^ 63`, which is the one condition.  An element that is
written is read as itself if it is that short, and the parts of a sequence are shorter than the
sequence; so the bound is put to the whole encoding once, and each part gets its own from there.

## Main results

* `PublicKey.read_keyOf` — the structure around a key.
* `Rsa.PublicKey.read_write` — RSA keys in their own structure.
* `PublicKey.read_write_rsa`, `PublicKey.read_write_dsa` — **keys with their algorithm.**
-/

namespace Keyring

open Asn1 Asn1.Lenient

/-! ### Numbers -/

/-- The numbers in a sequence can be read, if the sequence is not too long. -/
theorem Asn1.Lenient.reads_integers {numbers : List Nat}
    (h : (sequenceOf (numbers.map integerOf)).whole.length < 2 ^ 63) :
    (∀ e ∈ numbers.map integerOf, Reads e) ∧ Reads (sequenceOf (numbers.map integerOf)) := by
  refine ⟨fun e he => ?_, reads_written (fun _ => rfl) h⟩
  have hlength := Nat.lt_trans (length_whole_lt he) h
  obtain ⟨n, -, rfl⟩ := List.mem_map.mp he
  exact reads_written (fun _ => rfl) hlength

/-- **RSA keys are read back**, whatever follows them. -/
theorem Rsa.PublicKey.read_write {k : Rsa.PublicKey} (h : k.write.length < 2 ^ 63) (rest : Bytes) :
    read (k.write ++ rest) = some k := by
  have hwrite : k.write = (sequenceOf ([k.modulus, k.exponent].map integerOf)).whole := rfl
  -- as elements: a sequence of two numbers
  rw [hwrite] at h ⊢
  obtain ⟨hparts, hkey⟩ := reads_integers h
  have htake : ∀ n, Lenient.take .integer [integerOf n] = some (integerOf n, []) := fun _ => rfl
  rw [read, sequence_sequenceOf hparts hkey rest]
  simp only [Option.bind_some, List.map_cons, List.map_nil, ofParts, htake, Option.bind_eq_bind,
    unsigned?_integerOf]
  rfl

/-- The numbers of a group are read back. -/
theorem Dsa.Domain.ofParts_numbers (d : Domain) :
    ofParts ([d.p, d.q, d.g].map integerOf) = some d := by
  have htags : ([d.p, d.q, d.g].map integerOf).any
      (fun e => !Lenient.sameTag .integer e.tag) = false := rfl
  simp only [List.map_cons, List.map_nil] at htags ⊢
  simp only [ofParts, htags, Bool.false_eq_true, if_false, unsigned?_integerOf,
    Option.bind_eq_bind, Option.bind_some]
  rfl

namespace PublicKey

/-! ### The structure around a key -/

/-- A key with its algorithm, which has one element as its parameters. -/
def keyOf (o : Oid) (parameters : Element) (key : Bytes) : Element :=
  sequenceOf [sequenceOf [oidOf o, parameters], bitsOf key]

section

variable {o : Oid} {p : Element} {key : Bytes}

variable (o p key) in
/-- Parameters and key are shorter than what is around them. -/
theorem length_lt_keyOf : (oidOf o).whole.length < (keyOf o p key).whole.length ∧
    p.whole.length < (keyOf o p key).whole.length ∧
    key.length < (keyOf o p key).whole.length := by
  -- from the outside in, each element is shorter than the one around it
  have halgorithm : (sequenceOf [oidOf o, p]).whole.length < (keyOf o p key).whole.length :=
    length_whole_lt List.mem_cons_self
  have hbits : (bitsOf key).whole.length < (keyOf o p key).whole.length :=
    length_whole_lt (List.mem_cons_of_mem _ List.mem_cons_self)
  have hoid : (oidOf o).whole.length < (sequenceOf [oidOf o, p]).whole.length :=
    length_whole_lt List.mem_cons_self
  have hparameters : p.whole.length < (sequenceOf [oidOf o, p]).whole.length :=
    length_whole_lt (List.mem_cons_of_mem _ List.mem_cons_self)
  have hkey : (0 :: key).length < (bitsOf key).whole.length := Strict.length_lt_element 0x03 _
  rw [List.length_cons] at hkey
  omega

/-- The structure around a key is read back: it is the key of its algorithm. -/
theorem read_keyOf (ho : oid? (oidOf o) = some o.content) (hp : Reads p)
    (hwell : isWellFormed p = true) (h : (keyOf o p key).whole.length < 2 ^ 63) (rest : Bytes) :
    read ((keyOf o p key).whole ++ rest) = ofAlgorithm ⟨o.content, some p⟩ key := by
  have halgorithm : ∀ e ∈ [oidOf o, p], Reads e := by
    intro e he
    rcases List.mem_pair.mp he with rfl | rfl
    · exact reads_written (fun _ => rfl) (Nat.lt_trans (length_lt_keyOf o p key).1 h)
    · exact hp
  have hparts : ∀ e ∈ [sequenceOf [oidOf o, p], bitsOf key], Reads e := by
    intro e he
    have hlength := Nat.lt_trans (length_whole_lt he) h
    rcases List.mem_pair.mp he with rfl | rfl
    · exact reads_written (fun _ => rfl) hlength
    · exact reads_written (fun _ => rfl) hlength
  -- the sequence is read, its two parts are taken, and the first is an algorithm
  have hreads : Reads (keyOf o p key) := reads_written (fun _ => rfl) h
  have hfirst : first .sequence ((keyOf o p key).whole ++ rest) = some (keyOf o p key) := by
    rw [first, hreads]
    rfl
  have hreadAlgorithm : Lenient.algorithm? (sequenceOf [oidOf o, p]) =
      some ⟨o.content, some p⟩ := by
    have htag : sameTag .oid (oidOf o).tag = true := rfl
    rw [Lenient.algorithm?, partsOf_sequenceOf halgorithm]
    simp only [Option.bind_eq_bind, Option.bind_some, htag, hwell, Bool.not_true, Bool.or_self,
      Bool.false_eq_true, if_false, ho]
    rfl
  have hreadParts : readParts (keyOf o p key) = some (⟨o.content, some p⟩, key) := by
    have htake : Lenient.take .sequence [sequenceOf [oidOf o, p], bitsOf key] =
        some (sequenceOf [oidOf o, p], [bitsOf key]) := rfl
    have hsequence : sameTag .sequence (keyOf o p key).tag = true := rfl
    have hbits : sameTag .bitString (bitsOf key).tag = true := rfl
    have hpartsOf : partsOf (keyOf o p key) = some [sequenceOf [oidOf o, p], bitsOf key] :=
      partsOf_sequenceOf hparts
    simp only [readParts, hsequence, hpartsOf, hbits, Bool.not_true, Bool.false_eq_true, if_false,
      if_true, Option.bind_eq_bind, Option.bind_some, takeAlgorithm, htake, hreadAlgorithm,
      Option.pure_def, bits_bitsOf]
  rw [read, hfirst, Option.bind_some, ofElement, hreadParts]
  rfl

end

/-! ### Keys -/

variable {b : Bytes}

theorem write_rsa {k : Rsa.PublicKey} (hwrite : write (.rsa k) = some b) :
    b = (keyOf Identifier.rsaEncryption nullOf k.write).whole := (Option.some.inj hwrite).symm

theorem length_write_rsa {k : Rsa.PublicKey} (hwrite : write (.rsa k) = some b) :
    k.write.length < b.length := by
  rw [write_rsa hwrite]
  exact (length_lt_keyOf _ _ _).2.2

/-- **RSA keys with their algorithm are read back**, whatever follows them. -/
theorem read_write_rsa {k : Rsa.PublicKey} (hwrite : write (.rsa k) = some b)
    (h : b.length < 2 ^ 63) (rest : Bytes) : read (b ++ rest) = some (.rsa k) := by
  have hread : Rsa.PublicKey.read k.write = some k := by
    have hread := Rsa.PublicKey.read_write (Nat.lt_trans (length_write_rsa hwrite) h) []
    rwa [List.append_nil] at hread
  have hnull : Reads nullOf := reads_written (fun _ => rfl) (by decide)
  rw [write_rsa hwrite] at h ⊢
  rw [read_keyOf (by decide) hnull rfl h, ofAlgorithm, if_pos (by decide), hread]
  rfl

/-- **DSA keys with their algorithm are read back**, whatever follows them. -/
theorem read_write_dsa {k : Dsa.PublicKey} (hwrite : write (.dsa k) = some b)
    (h : b.length < 2 ^ 63) (rest : Bytes) : read (b ++ rest) = some (.dsa k) := by
  -- the numbers of the group stay folded up, so that only their list is unfolded
  obtain ⟨group, hgroup⟩ : ∃ group, group = [k.domain.p, k.domain.q, k.domain.g].map integerOf :=
    ⟨_, rfl⟩
  have hwhole : b = (keyOf Identifier.dsa (sequenceOf group) (signedOf k.y).whole).whole := by
    rw [hgroup]
    exact (Option.some.inj hwrite).symm
  rw [hwhole] at h ⊢
  obtain ⟨-, hparameters, hkey⟩ :=
    length_lt_keyOf Identifier.dsa (sequenceOf group) (signedOf k.y).whole
  have hparts : (∀ e ∈ group, Reads e) ∧ Reads (sequenceOf group) := by
    have hlength := Nat.lt_trans hparameters h
    rw [hgroup] at hlength ⊢
    exact reads_integers hlength
  have hfirst : first .integer (signedOf k.y).whole = some (signedOf k.y) := by
    have hreads : Reads (signedOf k.y) := reads_written (fun _ => rfl) (Nat.lt_trans hkey h)
    have hread := hreads []
    rw [List.append_nil] at hread
    rw [first, hread]
    rfl
  have hdomain : Dsa.Domain.ofParts group = some k.domain := by
    rw [hgroup]
    exact k.domain.ofParts_numbers
  have hreadDsa : readDsa (some (sequenceOf group)) (signedOf k.y).whole = some (.dsa k) := by
    have hsequence : sameTag .sequence (sequenceOf group).tag = true := rfl
    simp only [readDsa, Option.bind_eq_bind, Option.bind_some, hsequence, Bool.not_true,
      Bool.false_eq_true, if_false, partsOf_sequenceOf hparts.1, hdomain, hfirst,
      integer?_signedOf]
    rfl
  have halgorithm : ∀ p content, ofAlgorithm ⟨Identifier.dsa.content, p⟩ content =
      readDsa p content := fun _ _ => rfl
  rw [read_keyOf (by decide) hparts.2 rfl h, halgorithm, hreadDsa]

end PublicKey

end Keyring
