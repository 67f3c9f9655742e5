import Keyring.Proofs.Rsa.Power
import Keyring.Proofs.Session.Encryption
import Keyring.Provider.Standard
import Mathlib.NumberTheory.LucasLehmer

/-!
# What holds of the provider in use

The provider in use writes RSA keys so that they can be read back, and its raw operations
compute powers.  What is proved of providers with these properties holds of it.

To see that the properties are met together there is a key to try things on.  Its primes are known
to be prime without a computation on numbers of that size: one is a Mersenne prime, for which the
test of Lucas and Lehmer decides, and the other is three.

## Main definitions

* `Rsa.mersenneKey` — a key to try things on.

## Main results

* `Provider.standard_encodesRsa`, `Provider.standard_rawPublic`,
  `Provider.standard_rawPrivate` — **the properties of the provider in use.**
-/

namespace Keyring

open Bytes

namespace Provider

theorem standard_encodesRsa {key : Rsa.PublicKey}
    (h : ∀ b, PublicKey.write (.rsa key) = some b → b.length < 2 ^ 32) :
    standard.EncodesRsa key :=
  fun b hb => ⟨hb, h b hb⟩

theorem standard_rawPublic {key : Rsa.PublicKey} (h : key.isUsable = true) :
    standard.RawPublic key fun x => x ^ key.exponent % key.modulus :=
  fun _ _ hlen hlt => Rsa.PublicKey.applyBlock_eq h hlen hlt

theorem standard_rawPrivate {key : Rsa.PrivateKey}
    (h : ¬(key.modulus % 2 = 0 ∨ key.p % 2 = 0 ∨ key.q % 2 = 0)) :
    standard.RawPrivate key key.root :=
  fun _ hlen hlt => Rsa.PrivateKey.applyBlock_eq h hlen hlt

end Provider

/-! ### Comparing keys -/

deriving instance DecidableEq for Elliptic.Group, Elliptic.PublicKey, Elliptic.PrivateKey

deriving instance DecidableEq for PublicKey, PrivateKey, X509

/-! ### A key to try things on -/

namespace Rsa

/-- A key of 609 bits, one more than whole bytes: an encoding has a byte less than the
modulus. -/
def mersenneKey : PrivateKey where
  version := 0
  modulus := (2 ^ 607 - 1) * 3
  exponent := 65537
  privateExponent := (43692 * (2 ^ 607 - 2) + 1) / 65537
  p := 2 ^ 607 - 1
  q := 3
  dp := (43692 * (2 ^ 607 - 2) + 1) / 65537 % (2 ^ 607 - 2)
  dq := 1
  qInverse := (2 ^ 608 - 1) / 3
  others := none

theorem mersenneKey_isConsistent : mersenneKey.IsConsistent where
  prime_p := lucas_lehmer_sufficiency 607 (by norm_num) (by norm_num)
  prime_q := Nat.prime_three
  ne := by decide +kernel
  modulus_eq := by decide +kernel
  exponent_p := by decide +kernel
  exponent_q := by decide +kernel

theorem mersenneKey_bitSize : mersenneKey.publicKey.bitSize = 609 := by decide +kernel

end Rsa

theorem Provider.standard_encodesRsa_mersenneKey :
    standard.EncodesRsa Rsa.mersenneKey.publicKey := by
  refine standard_encodesRsa fun b hb => ?_
  cases hb
  decide +kernel

/-- The public key can be loaded. -/
theorem exists_loadPublic_mersenneKey : ∃ i k r,
    publicInfo .standard (.rsa Rsa.mersenneKey.publicKey) = .ok i ∧
    (loadPublic .standard (.parsed i)).run {} = .ok (.ok k) r ∧ r.Sound ∧
    k.Live .standard r Rsa.mersenneKey.publicKey := by
  let key := Rsa.mersenneKey.publicKey
  obtain ⟨i, hi⟩ : ∃ i, publicInfo .standard (.rsa key) = .ok i := ⟨⟨.rsa, _, _⟩, rfl⟩
  -- the encoding that is known of the key is the one that is written
  have hdecode : Provider.standard.publicKey i.encoding = some (.rsa key) := by
    obtain ⟨-, -, hencode⟩ := publicInfo_rsa hi
    have hread : (PublicKey.write (.rsa key)).bind Provider.standard.publicKey =
        some (.rsa key) := by decide +kernel
    rwa [show PublicKey.write (.rsa key) = some i.encoding from hencode, Option.bind_some] at hread
  obtain ⟨k, r, himport, hr, hk⟩ := exists_importPublic (P := .standard) .empty hi hdecode
  exact ⟨i, k, r, hi, (Action.run_bind_ok rfl).trans himport, hr, hk⟩

/-- So can the private key. -/
theorem exists_loadPrivate_mersenneKey : ∃ i k r,
    privateInfo .standard (.rsa Rsa.mersenneKey) = .ok i ∧
    (loadPrivate .standard (.parsed i) none).run {} = .ok (.ok k) r ∧ r.Sound ∧
    k.Live .standard r Rsa.mersenneKey := by
  obtain ⟨i, hi, hbare⟩ : ∃ i, privateInfo .standard (.rsa Rsa.mersenneKey) = .ok i ∧
      i.bare = Rsa.mersenneKey.write := ⟨⟨.rsa, _, _, _⟩, rfl, rfl⟩
  -- its structure is read back as it was written
  have hdecode : Provider.standard.rsaPrivateKey i.bare = some (.rsa Rsa.mersenneKey) := by
    rw [hbare]
    decide +kernel
  obtain ⟨k, r, himport, hr, hk⟩ := exists_importPrivate (P := .standard) .empty hi hdecode
  exact ⟨i, k, r, hi, (Action.run_bind_ok rfl).trans himport, hr, hk⟩

end Keyring
