import Keyring.Proofs.Session.Handle
import Keyring.Proofs.Session.Scope
import Keyring.Session.Encryption

/-!
# Raw operations through handles

Without padding an input is filled up with zeros in front to the size of the modulus, and
the operation of the provider gives the output.  The provider's operations are taken to
compute functions of numbers below the modulus.

A raw operation through a handle is a transform: three objects are created for it, the input, the
transform and the output, and all three are given back.  So the registry afterwards is the one
before, with three references used up.  What a signature with PSS padding, or raw encryption, says
of the registry comes from here.

## Main definitions

* `Provider.RawPublic`, `Provider.RawPrivate` — what a raw operation computes.

## Main results

* `encryptUnder_raw`, `decryptUnder_raw` — **raw operations through live handles**, which
  leave no object behind.
-/

namespace Keyring

open Registry Bytes

variable {P : Provider} {r : Registry} {e : Entropy} {b out : Bytes}

/-! ### What the provider computes -/

/-- The raw operation of a public key computes a function of numbers below the modulus. -/
def Provider.RawPublic (P : Provider) (key : Rsa.PublicKey) (f : Nat → Nat) : Prop :=
  ∀ e block, block.length = key.byteSize → value block < key.modulus →
    P.rsaEncrypt key .raw e block = some (ofNat key.byteSize (f (value block)))

/-- The raw operation of a private key computes a function of numbers below the modulus. -/
def Provider.RawPrivate (P : Provider) (key : Rsa.PrivateKey) (g : Nat → Nat) : Prop :=
  ∀ block, block.length = key.publicKey.byteSize → value block < key.modulus →
    P.rsaDecrypt key .raw block = some (ofNat key.publicKey.byteSize (g (value block)))

/-! ### Operations of key objects -/

/-- Zeros in front fill an input up. -/
theorem Service.fitInput_raw {size : Nat} (h : b.length ≤ size) :
    fitInput .raw size b = .ok (padLeft size b) := by
  unfold fitInput
  -- an input of the right length is not filled up
  by_cases hlen : b.length = size
  · rw [padLeft_of_length hlen]
    simp [hlen]
  · simp [hlen, Nat.not_lt.mpr h]

theorem Service.run_encrypt_raw {key : Rsa.PublicKey} {o : KeyObject}
    (ho : o.material = .ofPublic (.rsa key)) (hb : b.length ≤ key.byteSize)
    (hout : P.rsaEncrypt key .raw e (padLeft key.byteSize b) = some out) :
    Captured.run P ⟨.encrypt, o, some .raw, none, b, none⟩ e = .ok (.data out) := by
  have hrsa : o.material.publicKey.rsa? = some key := by rw [ho]; rfl
  have hwith : encryptWith P o .raw (outputSize o) e b = .ok out := by
    simp [encryptWith, outputSize, hrsa, asRsa, fitInput_raw hb, hout, performed]
  simp only [Captured.run, Option.getD_some, hwith, Except.map]

theorem Service.run_decrypt_raw {key : Rsa.PrivateKey} {o : KeyObject}
    (ho : o.material = .ofPrivate (.rsa key)) (hb : b.length ≤ key.publicKey.byteSize)
    (hout : P.rsaDecrypt key .raw (padLeft key.publicKey.byteSize b) = some out) :
    Captured.run P ⟨.decrypt, o, some .raw, none, b, none⟩ e = .ok (.data out) := by
  have hsize : outputSize o = key.publicKey.byteSize := by rw [outputSize, ho]; rfl
  have hwith : decryptWith P o .raw (outputSize o) b = .ok out := by
    simp [decryptWith, hsize, ho, PrivateKey.rsa?, asRsa, fitInput_raw hb, hout, performed]
  simp only [Captured.run, Option.getD_some, hwith, Except.map]

/-! ### Operations through handles -/

/-- A raw operation of a live public key. -/
theorem encryptUnder_raw {key : Rsa.PublicKey} {k : PublicHandle} (hr : r.Sound)
    (hk : k.Live P r key) (hb : b.length ≤ key.byteSize)
    (hout : P.rsaEncrypt key .raw e (padLeft key.byteSize b) = some out) :
    (encryptUnder P .raw k b e).run r = .ok (.ok out) { r with last := r.last + 3 } := by
  obtain ⟨x, o, hx, ho, hkey⟩ := hk.object
  rw [encryptUnder, hx]
  -- the handle is live, so the operation is that of its object
  refine (Action.run_bind_ok rfl).trans (stagedCipher_eq hr ho ?_ (.inl rfl)
    (Service.run_encrypt_raw hkey hb hout))
  rw [hkey]
  rfl

/-- A raw operation of a live private key. -/
theorem decryptUnder_raw {key : Rsa.PrivateKey} {k : PrivateHandle} (hr : r.Sound)
    (hk : k.Live P r key) (hb : b.length ≤ key.publicKey.byteSize)
    (hout : P.rsaDecrypt key .raw (padLeft key.publicKey.byteSize b) = some out) :
    (decryptUnder P .raw k b e).run r = .ok (.ok out) { r with last := r.last + 3 } := by
  obtain ⟨x, o, hx, ho, hkey⟩ := hk.object
  rw [decryptUnder, hx]
  refine (Action.run_bind_ok rfl).trans (stagedCipher_eq hr ho ?_ (.inr ⟨rfl, ?_⟩)
    (Service.run_decrypt_raw hkey hb hout))
  · -- the key is for RSA, and it is private
    rw [hkey]
    rfl
  · rw [hkey]
    rfl

end Keyring
