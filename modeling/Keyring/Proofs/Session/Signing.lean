import Keyring.Proofs.Provider.Standard
import Keyring.Proofs.Pss.Padding
import Keyring.Session.Signing

/-!
# PSS signatures

A PSS signature of a message is a number below the modulus, in as many bytes as the modulus
has, from which the public operation recovers the number of an encoding of the message.
Verifying accepts exactly these, and signing makes one wherever the key has room for an
encoding.

## Main definitions

* `IsPssSignature` — what a PSS signature is.

## Main results

* `exists_verify_pss` — verifying says whether there is a signature.
* `verify_pss_iff` — **verifying is that of RFC 8017**, and congruent numbers do not both
  pass.
* `sign_pss_complete` — **what is signed is verified**, or there is no room for it.
-/

namespace Keyring

open Registry Bytes

/-- A PSS signature of a message: the public operation `f` recovers an encoding of one bit
less than the modulus, under a salt of the length of the digest. -/
def IsPssSignature (key : Rsa.PublicKey) (f : Nat → Nat) (a : HashAlgorithm)
    (message signature : Bytes) : Prop :=
  signature.length = key.byteSize ∧ value signature < key.modulus ∧
    ∃ salt em, salt.length = a.digestLength ∧
      Pss.encode a.function (a.digest message) (key.bitSize - 1) salt = .ok em ∧
      f (value signature) = value em

variable {P : Provider} {r : Registry} {f g : Nat → Nat} {a : HashAlgorithm}
  {message signature : Bytes} {e : Entropy}

/-! ### Signing -/

section Sign

variable {key : Rsa.PrivateKey} {k : PrivateHandle}

theorem sign_pss_eq (hk : k.Live P r key) (a : HashAlgorithm) :
    (sign P .pss a.name k message e).run r = (signPss P a k message e).run r := by
  obtain ⟨i, -, hparameters, -⟩ := privateInfo_rsa hk.info
  have halgorithm : requireAlgorithm k.info.algorithm SignatureScheme.pss.algorithm = .ok () := by
    rw [PrivateInfo.algorithm, hparameters]
    rfl
  have hhash : hashAlgorithm a.name = .ok a := by rw [hashAlgorithm, HashAlgorithm.ofName?_name]
  rw [sign, halgorithm, hhash]
  exact (Action.run_bind_ok rfl).trans (Action.run_bind_ok rfl)

/-- A key without room for an encoding does not sign, and nothing happens. -/
theorem sign_pss_error (hk : k.Live P r key) (ha : a ≠ .md5)
    (h : ¬(512 ≤ key.publicKey.bitSize ∧
      2 * a.digestLength + 2 ≤ bytesFor (key.publicKey.bitSize - 1))) :
    (sign P .pss a.name k message e).run r = .ok (.error .pssPadding) r := by
  obtain ⟨i, -, -, hsize⟩ := privateInfo_rsa hk.info
  have hsalt : (e.bytes (Pss.saltLength a)).length = a.digestLength := by
    rw [Entropy.length_bytes, Pss.saltLength_eq ha]
  have hpad : (ofPss (Pss.addPadding a.name k.info.bitSize message
      (e.bytes (Pss.saltLength a)))).run r = .ok (.error .pssPadding) r := by
    rw [hsize]
    rcases Pss.addPadding_error message ha hsalt h with herror | herror <;>
      rw [herror] <;> rfl
  rw [sign_pss_eq hk, signPss]
  exact Action.run_bind_error hpad

/-- A key with room for an encoding signs it. -/
theorem exists_sign_pss (hr : r.Sound) (hk : k.Live P r key) (hP : P.EncodesRsa key.publicKey)
    (hraw : P.RawPrivate key g) (ha : a ≠ .md5) (hbits : 512 ≤ key.publicKey.bitSize)
    (hfit : 2 * a.digestLength + 2 ≤ bytesFor (key.publicKey.bitSize - 1)) (message : Bytes)
    (e : Entropy) :
    ∃ salt em, salt.length = a.digestLength ∧
      Pss.encode a.function (a.digest message) (key.publicKey.bitSize - 1) salt = .ok em ∧
      value em < key.modulus ∧
      (sign P .pss a.name k message e).run r =
        .ok (.ok (ofNat key.publicKey.byteSize (g (value em)))) { r with last := r.last + 3 } := by
  obtain ⟨i, hi, -, hsize⟩ := privateInfo_rsa hk.info
  obtain ⟨-, hmax⟩ := modulus_of_publicInfo hP hi
  have hmask := Pss.maskLength_le a hmax
  have hsalt : (e.bytes (Pss.saltLength a)).length = a.digestLength := by
    rw [Entropy.length_bytes, Pss.saltLength_eq ha]
  have hlength : a.function.length = a.digestLength := rfl
  obtain ⟨em, henc⟩ := Pss.exists_encode a.function (a.digest message) hmask
    (Nat.le_of_eq (hsalt.trans hlength.symm)) (by rw [hsalt, hlength]; omega)
  obtain ⟨hlen, -, -⟩ := Pss.encode_framed _ _ hmask henc
  -- an encoding has one bit less than the modulus
  have hlt : value em < key.modulus :=
    Nat.lt_of_lt_of_le (Pss.value_encode_lt _ _ hmask henc)
      (two_pow_le_of_bitLength (pos_of_bitLength_pos (Nat.lt_of_lt_of_le (by decide) hbits)))
  have hle : em.length ≤ key.publicKey.byteSize := by
    rw [hlen, Rsa.PublicKey.byteSize, bytesFor, bytesFor]
    omega
  have hout := hraw (padLeft key.publicKey.byteSize em) (length_padLeft hle)
    (by rw [value_padLeft]; exact hlt)
  rw [value_padLeft] at hout
  have hpad : (ofPss (Pss.addPadding a.name k.info.bitSize message
      (e.bytes (Pss.saltLength a)))).run r = .ok (.ok em) r := by
    rw [hsize, Pss.addPadding_eq ha hbits, henc]
    rfl
  refine ⟨_, em, hsalt, henc, hlt, ?_⟩
  rw [sign_pss_eq hk, signPss]
  exact (Action.run_bind_ok hpad).trans (decryptUnder_raw hr hk hle hout)

/-- What is signed is a signature, if the private operation undoes the public one. -/
theorem exists_sign_isPssSignature (hr : r.Sound) (hk : k.Live P r key)
    (hP : P.EncodesRsa key.publicKey) (hprivate : P.RawPrivate key g)
    (hinverse : ∀ x < key.modulus, f x < key.modulus ∧ g x < key.modulus ∧ f (g x) = x ∧
      g (f x) = x)
    (ha : a ≠ .md5) (hbits : 512 ≤ key.publicKey.bitSize)
    (hfit : 2 * a.digestLength + 2 ≤ bytesFor (key.publicKey.bitSize - 1)) (message : Bytes)
    (e : Entropy) :
    ∃ signature, (sign P .pss a.name k message e).run r =
        .ok (.ok signature) { r with last := r.last + 3 } ∧
      IsPssSignature key.publicKey f a message signature := by
  obtain ⟨salt, em, hsalt, henc, hlt, hsign⟩ := exists_sign_pss hr hk hP hprivate ha hbits
    hfit message e
  obtain ⟨-, hg, hfg, -⟩ := hinverse _ hlt
  have hvalue : value (ofNat key.publicKey.byteSize (g (value em))) = g (value em) :=
    value_ofNat_of_lt (Nat.lt_trans hg (lt_pow_byteLength key.modulus))
  exact ⟨_, hsign, length_ofNat _ _, by rw [hvalue]; exact hg, salt, em, hsalt, henc,
    by rw [hvalue, hfg]⟩

/-- A registry with both halves of a key of 609 bits. -/
theorem exists_live_mersenneKey : ∃ r k s, r.Sound ∧
    PrivateHandle.Live .standard r Rsa.mersenneKey k ∧
    PublicSource.Live .standard r Rsa.mersenneKey.publicKey s := by
  have hkeys := Sound.empty.insert (.key ⟨.ofPrivate (.rsa Rsa.mersenneKey), true, true⟩)
  have hsound := hkeys.insert (.key ⟨.ofPublic (.rsa Rsa.mersenneKey.publicKey), true, true⟩)
  generalize hr : Registry.insert _ (.key ⟨.ofPublic (.rsa Rsa.mersenneKey.publicKey), true, true⟩)
    = r at hsound
  exact ⟨r, ⟨some 1, ⟨.rsa, _, _, _⟩⟩, .key ⟨some 2, ⟨.rsa, _, _⟩⟩, hsound,
    ⟨⟨1, ⟨.ofPrivate (.rsa Rsa.mersenneKey), true, true⟩, rfl, by rw [← hr]; rfl, rfl⟩, rfl⟩,
    ⟨⟨2, ⟨.ofPublic (.rsa Rsa.mersenneKey.publicKey), true, true⟩, rfl, by rw [← hr]; rfl, rfl⟩,
      rfl⟩⟩

end Sign

/-! ### Verifying -/

section Verify

variable {key : Rsa.PublicKey}

/-- On signatures of the length of the modulus the order of bytes is that of the numbers. -/
theorem signatureInRange_minimal :
    signatureInRange (minimal key.modulus) signature = true ↔
      signature.length = key.byteSize ∧ value signature < key.modulus := by
  rw [signatureInRange, Bool.and_eq_true, beq_iff_eq, decide_eq_true_eq]
  constructor
  · rintro ⟨hlen, hlt⟩
    rw [lt_iff_value_lt hlen, value_minimal] at hlt
    exact ⟨hlen.trans (length_minimal _), hlt⟩
  · rintro ⟨hlen, hlt⟩
    have hlen' : signature.length = (minimal key.modulus).length :=
      hlen.trans (length_minimal _).symm
    rw [lt_iff_value_lt hlen', value_minimal]
    exact ⟨hlen', hlt⟩

/-- The check of a PSS signature, once the modulus is known. -/
theorem verifyPss_run {k : PublicHandle} {x : Ref} {n : Bytes} (hx : k.ref = some x)
    (hn : k.info.modulus = some n) :
    (verifyPss P a k signature message e).run r =
      (if signatureInRange n signature = true then do
        let block ← encryptUnder P .raw k signature e
        ofPss (Pss.verifyPadding a.name (Pss.saltLength a) k.info.bitSize message block)
      else return false : Action Bool).run r := by
  have howned : (Action.ofExcept (owned k.ref)).run r = .ok (.ok x) r := by rw [hx]; rfl
  rw [verifyPss]
  refine (Action.run_bind_ok howned).trans ?_
  rw [hn]

/-- Of a number in range the check looks at what the public operation makes of it. -/
theorem exists_verifyPss_of_inRange {k : PublicHandle} (hr : r.Sound) (hk : k.Live P r key)
    (hP : P.EncodesRsa key) (hraw : P.RawPublic key f) (hf : ∀ x < key.modulus, f x < key.modulus)
    (ha : a ≠ .md5) (hbits : 512 ≤ key.bitSize) (hlen : signature.length = key.byteSize)
    (hlt : value signature < key.modulus) (message : Bytes) (e : Entropy) :
    ∃ valid, (verifyPss P a k signature message e).run r =
        .ok (.ok valid) { r with last := r.last + 3 } ∧
      (valid = true ↔ IsPssSignature key f a message signature) := by
  obtain ⟨x, -, hx, -⟩ := hk.object
  obtain ⟨hmodulus, hmax⟩ := modulus_of_publicInfo hP hk.info
  obtain ⟨-, hsize, -⟩ := publicInfo_rsa hk.info
  have hencrypt := encryptUnder_raw hr hk (Nat.le_of_eq hlen)
    (by rw [padLeft_of_length hlen]; exact hraw e signature hlen hlt)
  have hblock : value (ofNat key.byteSize (f (value signature))) = f (value signature) :=
    value_ofNat_of_lt (Nat.lt_trans (hf _ hlt) (lt_pow_byteLength key.modulus))
  -- an encoding is as long as the modulus, or a byte shorter
  have hfit : bytesFor (key.bitSize - 1) ≤
      (ofNat key.byteSize (f (value signature))).length := by
    rw [length_ofNat, Rsa.PublicKey.byteSize, bytesFor, bytesFor]
    omega
  obtain ⟨valid, hverify, hvalid⟩ := Pss.exists_verifyPadding message ha hbits hmax hfit
  refine ⟨valid, ?_, hvalid.trans ?_⟩
  · rw [verifyPss_run hx hmodulus, if_pos (signatureInRange_minimal.mpr ⟨hlen, hlt⟩)]
    refine (Action.run_bind_ok hencrypt).trans ?_
    rw [hsize, hverify]
    rfl
  · rw [hblock, IsPssSignature, and_iff_right hlen, and_iff_right hlt]
    simp only [eq_comm]

/-- The check of a PSS signature says whether there is one, and leaves no object behind. -/
theorem exists_verifyPss {k : PublicHandle} (hr : r.Sound) (hk : k.Live P r key)
    (hP : P.EncodesRsa key) (hraw : P.RawPublic key f) (hf : ∀ x < key.modulus, f x < key.modulus)
    (ha : a ≠ .md5) (hbits : 512 ≤ key.bitSize) (message signature : Bytes) (e : Entropy) :
    ∃ valid n, r.last ≤ n ∧
      (verifyPss P a k signature message e).run r = .ok (.ok valid) { r with last := n } ∧
      (valid = true ↔ IsPssSignature key f a message signature) := by
  by_cases hrange : signatureInRange (minimal key.modulus) signature = true
  · obtain ⟨hlen, hlt⟩ := signatureInRange_minimal.mp hrange
    obtain ⟨valid, hverify, hvalid⟩ := exists_verifyPss_of_inRange hr hk hP hraw hf ha hbits hlen
      hlt message e
    exact ⟨valid, r.last + 3, Nat.le_add_right _ 3, hverify, hvalid⟩
  · -- out of range nothing is asked of the service
    obtain ⟨x, -, hx, -⟩ := hk.object
    obtain ⟨hmodulus, -⟩ := modulus_of_publicInfo hP hk.info
    refine ⟨false, r.last, Nat.le_refl _, ?_, ?_⟩
    · rw [verifyPss_run hx hmodulus, if_neg hrange]
      rfl
    · simp only [Bool.false_eq_true, false_iff]
      rintro ⟨hlen, hlt, -⟩
      exact hrange (signatureInRange_minimal.mpr ⟨hlen, hlt⟩)

/-- Verifying comes to an end, and says whether there is a signature. -/
theorem exists_verify_pss {s : PublicSource} (hr : r.Sound) (hs : s.Live P r key)
    (hP : P.EncodesRsa key) (hraw : P.RawPublic key f) (hf : ∀ x < key.modulus, f x < key.modulus)
    (ha : a ≠ .md5) (hbits : 512 ≤ key.bitSize) (message signature : Bytes) (e : Entropy) :
    ∃ valid s' r', verify P .pss a.name s signature message e r = .ok (verdict valid, s') r' ∧
      (valid = true ↔ IsPssSignature key f a message signature) := by
  obtain ⟨k, s', r', hkey, hr', hk, -, -⟩ := PublicSource.exists_publicKey hr hs
  obtain ⟨valid, n, -, hverify, hvalid⟩ := exists_verifyPss hr' hk hP hraw hf ha hbits
    message signature e
  have hhash : hashAlgorithm a.name = .ok a := by rw [hashAlgorithm, HashAlgorithm.ofName?_name]
  refine ⟨valid, s', { r' with last := n }, ?_, hvalid⟩
  exact PublicSource.use_eq hs.algorithm hhash hkey (Action.run_bind_ok hverify)

/-- A byte string passes as a PSS signature under a key: it is accepted for some message,
through some live public key or certificate. -/
def PassesPss (P : Provider) (key : Rsa.PublicKey) (signature : Bytes) : Prop :=
  ∃ (r : Registry) (s : PublicSource) (a : HashAlgorithm) (message : Bytes) (e : Entropy)
    (s' : PublicSource) (r' : Registry), r.Sound ∧ s.Live P r key ∧ a ≠ .md5 ∧
      verify P .pss a.name s signature message e r = .ok (.ok (), s') r'

theorem PassesPss.inRange (h : PassesPss P key signature) (hP : P.EncodesRsa key)
    (hraw : P.RawPublic key f) (hf : ∀ x < key.modulus, f x < key.modulus)
    (hbits : 512 ≤ key.bitSize) :
    signature.length = key.byteSize ∧ value signature < key.modulus := by
  obtain ⟨r, s, a, message, e, s', r', hr, hs, ha, hpass⟩ := h
  obtain ⟨valid, s'', r'', hverify, hvalid⟩ := exists_verify_pss hr hs hP hraw hf ha hbits
    message signature e
  rw [hpass] at hverify
  cases valid with
  | false => cases hverify
  | true =>
    obtain ⟨hlen, hlt, -⟩ := hvalid.mp rfl
    exact ⟨hlen, hlt⟩

/-- **Verifying is RSASSA-PSS-VERIFY of RFC 8017.**  Through every live public key or
certificate it accepts exactly the byte strings of the length of the modulus that denote a
number below it from which the public exponent recovers an encoding of the message; all
others it refuses as invalid.  Different byte strings of congruent numbers do not both
pass. -/
theorem verify_pss_iff (hP : P.EncodesRsa key)
    (hraw : P.RawPublic key fun x => x ^ key.exponent % key.modulus) (hbits : 512 ≤ key.bitSize) :
    (∀ r s a signature message e, r.Sound → s.Live P r key → a ≠ .md5 →
      ∃ result s' r', verify P .pss a.name s signature message e r = .ok (result, s') r' ∧
        (result = .ok () ↔
          IsPssSignature key (fun x => x ^ key.exponent % key.modulus) a message signature) ∧
        (result ≠ .ok () → result = .error .invalidSignature)) ∧
    ∀ signature signature', PassesPss P key signature → PassesPss P key signature' →
      value signature % key.modulus = value signature' % key.modulus → signature = signature' := by
  have hpos : 0 < key.modulus :=
    pos_of_bitLength_pos (Nat.lt_of_lt_of_le (by decide) hbits)
  have hf : ∀ x < key.modulus, x ^ key.exponent % key.modulus < key.modulus :=
    fun x _ => Nat.mod_lt _ hpos
  constructor
  · intro r s a signature message e hr hs ha
    obtain ⟨valid, s', r', hverify, hvalid⟩ := exists_verify_pss hr hs hP hraw hf ha hbits
      message signature e
    refine ⟨verdict valid, s', r', hverify, ?_, ?_⟩
    · rw [← hvalid]
      cases valid <;> simp [verdict]
    · cases valid <;> simp [verdict]
  · intro signature signature' hpass hpass' hmod
    obtain ⟨hlen, hlt⟩ := hpass.inRange hP hraw hf hbits
    obtain ⟨hlen', hlt'⟩ := hpass'.inRange hP hraw hf hbits
    rw [Nat.mod_eq_of_lt hlt, Nat.mod_eq_of_lt hlt'] at hmod
    exact value_inj (hlen.trans hlen'.symm) hmod

/-- Of two strings of 77 bytes for congruent numbers, a signature by a key of 609 bits and the
one that denotes the modulus more, the first passes and the second does not. -/
theorem verify_pss_congruent : ∃ r s signature larger, r.Sound ∧
    PublicSource.Live .standard r Rsa.mersenneKey.publicKey s ∧
    (∃ s' r', verify .standard .pss "sha256" s signature [1, 2, 3] (fun _ => 0) r =
      .ok (.ok (), s') r') ∧
    larger.length = signature.length ∧
    value larger = value signature + Rsa.mersenneKey.publicKey.modulus ∧
    PassesPss .standard Rsa.mersenneKey.publicKey signature ∧
    ¬PassesPss .standard Rsa.mersenneKey.publicKey larger := by
  have hbits : 512 ≤ Rsa.mersenneKey.publicKey.bitSize := by rw [Rsa.mersenneKey_bitSize]; decide
  have hP := Provider.standard_encodesRsa_mersenneKey
  obtain ⟨r, k, s, hsound, hprivate, hpublic⟩ := exists_live_mersenneKey
  obtain ⟨signature, -, hsignature⟩ := exists_sign_isPssSignature hsound hprivate hP
    (Provider.standard_rawPrivate (by decide +kernel)) Rsa.mersenneKey_isConsistent.inverse
    (a := .sha256) (by decide) hbits (by decide +kernel) [1, 2, 3] fun _ => 0
  obtain ⟨hexact, hone⟩ :=
    verify_pss_iff hP (Provider.standard_rawPublic (by decide +kernel)) hbits
  obtain ⟨result, s', r', hverify, haccept, -⟩ :=
    hexact r s .sha256 signature [1, 2, 3] (fun _ => 0) hsound hpublic (by decide)
  rw [haccept.mpr hsignature] at hverify
  have hpass : PassesPss .standard Rsa.mersenneKey.publicKey signature :=
    ⟨r, s, .sha256, [1, 2, 3], fun _ => 0, s', r', hsound, hpublic, by decide, hverify⟩
  obtain ⟨hlen, hlt, -⟩ := hsignature
  -- 77 bytes have room for numbers of 616 bits
  have hroom : value signature + Rsa.mersenneKey.publicKey.modulus < 256 ^ 77 := by
    exact Nat.lt_trans (Nat.add_lt_add_right hlt _) (by decide +kernel)
  have hvalue := value_ofNat_of_lt hroom
  refine ⟨r, s, signature, ofNat 77 (value signature + Rsa.mersenneKey.publicKey.modulus),
    hsound, hpublic, ⟨s', r', hverify⟩, ?_, hvalue, hpass, fun hlarger => ?_⟩
  · rw [length_ofNat, hlen]
    decide +kernel
  · -- with both accepted they would be one string
    have heq := hone _ _ hpass hlarger (by rw [hvalue]; exact (Nat.add_mod_right _ _).symm)
    rw [← heq] at hvalue
    have hpos : 0 < Rsa.mersenneKey.publicKey.modulus := by decide +kernel
    omega

end Verify

/-! ### Signing and verifying -/

section Completeness

variable {key : Rsa.PrivateKey} {k : PrivateHandle}

/-- **What is signed is verified.**  A live private key whose modulus has room for an
encoding signs every message, with a number below the modulus in as many bytes as the
modulus has, and leaves no object behind; verifying through any live public key or
certificate of the same key accepts the signature.  Without room, signing fails and does
nothing. -/
theorem sign_pss_complete (hP : P.EncodesRsa key.publicKey) (hpublic : P.RawPublic key.publicKey f)
    (hprivate : P.RawPrivate key g)
    (hinverse : ∀ x < key.modulus, f x < key.modulus ∧ g x < key.modulus ∧ f (g x) = x ∧
      g (f x) = x)
    (hr : r.Sound) (hk : k.Live P r key) (ha : a ≠ .md5) (message : Bytes) (e : Entropy) :
    (512 ≤ key.publicKey.bitSize ∧
        2 * a.digestLength + 2 ≤ bytesFor (key.publicKey.bitSize - 1) →
      ∃ signature, (sign P .pss a.name k message e).run r =
          .ok (.ok signature) { r with last := r.last + 3 } ∧
        signature.length = key.publicKey.byteSize ∧ value signature < key.modulus ∧
        ∀ r' s e', r'.Sound → s.Live P r' key.publicKey →
          ∃ s' r'', verify P .pss a.name s signature message e' r' = .ok (.ok (), s') r'') ∧
    (¬(512 ≤ key.publicKey.bitSize ∧
        2 * a.digestLength + 2 ≤ bytesFor (key.publicKey.bitSize - 1)) →
      (sign P .pss a.name k message e).run r = .ok (.error .pssPadding) r) := by
  refine ⟨?_, sign_pss_error hk ha⟩
  rintro ⟨hbits, hfit⟩
  obtain ⟨signature, hsign, hsignature⟩ := exists_sign_isPssSignature hr hk hP hprivate hinverse ha
    hbits hfit message e
  refine ⟨signature, hsign, hsignature.1, hsignature.2.1, fun r' s e' hr' hs => ?_⟩
  obtain ⟨valid, s', r'', hverify, hvalid⟩ := exists_verify_pss hr' hs hP hpublic
    (fun x hx => (hinverse x hx).1) ha hbits message signature e'
  rw [hvalid.mpr hsignature] at hverify
  exact ⟨s', r'', hverify⟩

/-- A key of 609 bits signs for SHA-256, and the signature is verified. -/
theorem sign_pss_verified : ∃ r k s signature, r.Sound ∧
    PrivateHandle.Live .standard r Rsa.mersenneKey k ∧
    PublicSource.Live .standard r Rsa.mersenneKey.publicKey s ∧
    (sign .standard .pss "sha256" k [1, 2, 3] fun _ => 0).run r =
      .ok (.ok signature) { r with last := r.last + 3 } ∧
    ∃ s' r', verify .standard .pss "sha256" s signature [1, 2, 3] (fun _ => 0)
      { r with last := r.last + 3 } = .ok (.ok (), s') r' := by
  obtain ⟨r, k, s, hsound, hprivate, hpublic⟩ := exists_live_mersenneKey
  obtain ⟨signature, hsign, -, -, hverify⟩ :=
    (sign_pss_complete Provider.standard_encodesRsa_mersenneKey
      (Provider.standard_rawPublic (by decide +kernel))
      (Provider.standard_rawPrivate (by decide +kernel)) Rsa.mersenneKey_isConsistent.inverse
      hsound hprivate (a := .sha256) (by decide) [1, 2, 3] fun _ => 0).1 (by decide +kernel)
  exact ⟨r, k, s, signature, hsound, hprivate, hpublic, hsign,
    hverify _ _ _ (hsound.skip (Nat.le_add_right _ 3)) (hpublic.skip _)⟩

end Completeness

end Keyring
