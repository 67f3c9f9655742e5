import Keyring.Proofs.Session.RoundTrip

/-!
# Raw operations are maps of numbers

Without padding, data are a number, and a raw operation raises it to an exponent.  The bytes that
the number is written in do not matter, as long as they are not more than the modulus has: what is
shorter is filled up in front, what is longer is refused, and so is a number that is not below the
modulus.  The power comes in as many bytes as the modulus has.

The provider is taken to carry out the operations on blocks of the length of the modulus.  Of
other lengths it is never asked: the service fills data up before it calls the operation, and
refuses what is too long.  So all that a request does to data is said by `Outcome.raised`, a
function of the data, the modulus and the exponent, and what is promised of requests is read off
that function.

## Main definitions

* `Provider.RaisesPublic`, `Provider.RaisesPrivate` — what is asked of the provider.
* `Outcome.raised` — what becomes of data under a modulus and an exponent.
* `Session.MapsNumbers` — requests of a session are a map of numbers.

## Main results

* `Provider.standard_raisesPublic`, `Provider.standard_raisesPrivate` — the provider in use.
* `Session.Runs.raw_exact` — **raw operations are exact maps of numbers.**
-/

namespace Keyring

open Registry Service Bytes Rsa

variable {P : Provider} {s : Session} {name : String} {data c : Bytes} {e : Entropy}
  {k n exponent : Nat}

/-! ### What is asked of the provider -/

/-- The raw operation of a public key, on blocks of the length of the modulus, raises the numbers
below the modulus to the public exponent and fails on all others. -/
structure Provider.RaisesPublic (P : Provider) (key : Rsa.PublicKey) : Prop where
  raises : P.RawPublic key fun x => x ^ key.exponent % key.modulus
  refuses : ∀ e block, block.length = key.byteSize → key.modulus ≤ value block →
    P.rsaEncrypt key .raw e block = none

/-- The raw operation of a private key does the same with the private exponent. -/
structure Provider.RaisesPrivate (P : Provider) (key : Rsa.PrivateKey) : Prop where
  raises : P.RawPrivate key fun x => x ^ key.privateExponent % key.modulus
  refuses : ∀ block, block.length = key.publicKey.byteSize → key.modulus ≤ value block →
    P.rsaDecrypt key .raw block = none

namespace Provider

theorem standard_raisesPublic {key : Rsa.PublicKey} (husable : key.isUsable = true) :
    standard.RaisesPublic key where
  raises := standard_rawPublic husable
  refuses := by
    intro e block hlen hle
    show key.applyBlock block = none
    simp [PublicKey.applyBlock, PublicKey.apply, hlen, Nat.not_lt.mpr hle]

/-- For a key whose exponents undo each other, the way by the primes leads to the same power. -/
theorem standard_raisesPrivate {key : Rsa.PrivateKey} (hkey : key.IsConsistent)
    (hodd : ¬(key.modulus % 2 = 0 ∨ key.p % 2 = 0 ∨ key.q % 2 = 0)) :
    standard.RaisesPrivate key where
  raises := by
    intro block hlen hlt
    -- the way by the primes, and back to the exponent
    rw [standard_rawPrivate hodd block hlen hlt, hkey.root_eq hlt]
  refuses := by
    intro block hlen hle
    show key.applyBlock block = none
    simp [PrivateKey.applyBlock, PrivateKey.apply, hlen, hle]

/-- What a provider decodes does not matter for its operations. -/
theorem RaisesPublic.taking {key : Rsa.PublicKey} (h : P.RaisesPublic key) (taken : List Bytes) :
    (P.taking taken).RaisesPublic key :=
  ⟨h.raises, h.refuses⟩

theorem RaisesPrivate.taking {key : Rsa.PrivateKey} (h : P.RaisesPrivate key)
    (taken : List Bytes) : (P.taking taken).RaisesPrivate key :=
  ⟨h.raises, h.refuses⟩

end Provider

/-! ### What becomes of data -/

/-- What becomes of data in a raw operation under a modulus `n` of `k` bytes. -/
def Outcome.raised (k n exponent : Nat) (data : Bytes) : Outcome :=
  if k < data.length then .failure (.service .inputTooLong)
  else if value data < n then .answer (.bytes (ofNat k (value data ^ exponent % n)))
  else .failure (.service .operationFailed)

theorem Service.fitInput_raw_of_lt {size : Nat} (h : size < data.length) :
    fitInput .raw size data = .error .inputTooLong := by
  have hne : data.length ≠ size := Nat.ne_of_gt h
  simp [fitInput, hne, h]

/-- Data that are filled up to the length of the modulus go through an operation that raises the
numbers below it and fails on others. -/
theorem Outcome.ofExcept_raised {op : Bytes → Option Bytes}
    (hraises : ∀ block, block.length = k → value block < n →
      op block = some (ofNat k (value block ^ exponent % n)))
    (hrefuses : ∀ block, block.length = k → n ≤ value block → op block = none) (data : Bytes) :
    Outcome.ofExcept .bytes ((do performed (op (← fitInput .raw k data)) :
      Except ServiceError Bytes).mapError .service) = .raised k n exponent data := by
  unfold raised
  by_cases hlong : k < data.length
  · rw [if_pos hlong, fitInput_raw_of_lt hlong]
    rfl
  · -- filled up the data denote what they did before
    have hlen := length_padLeft (Nat.not_lt.mp hlong)
    rw [if_neg hlong, fitInput_raw (Nat.not_lt.mp hlong), ok_bind, ofExcept_performed]
    by_cases hlt : value data < n
    · rw [if_pos hlt, hraises _ hlen (by rwa [value_padLeft]), value_padLeft]
      rfl
    · rw [if_neg hlt, hrefuses _ hlen (by rw [value_padLeft]; exact Nat.not_lt.mp hlt)]
      rfl

namespace Session

/-! ### Requests -/

section Requests

variable (hP : P.Rereads) (hs : s.Runs P)

include hP hs

theorem Runs.run_encrypt_raw {key : Rsa.PublicKey} (hkey : s.PublicAt name (.rsa key))
    (hraises : P.RaisesPublic key) (data : Bytes) (e : Entropy) :
    ∃ s', (Request.ofPublic name (.encrypt .raw data)).run P e s =
      .ok (.raised key.byteSize key.modulus key.exponent data) s' := by
  obtain ⟨s', hrun⟩ := hs.run_encrypt hP hkey .raw data e
  rw [encryptWith_eq_bind,
    Outcome.ofExcept_raised (hraises.raises e) (hraises.refuses e)] at hrun
  exact ⟨s', hrun⟩

theorem Runs.run_decrypt_raw {key : Rsa.PrivateKey} (hkey : s.PrivateAt name (.rsa key))
    (hraises : P.RaisesPrivate key) (data : Bytes) (e : Entropy) :
    ∃ s', (Request.ofPrivate name (.decrypt .raw data)).run P e s =
      .ok (.raised key.publicKey.byteSize key.modulus key.privateExponent data) s' := by
  obtain ⟨s', hrun⟩ := hs.run_decrypt hP hkey .raw data e
  rw [decryptWith_eq_bind, Outcome.ofExcept_raised hraises.raises hraises.refuses] at hrun
  exact ⟨s', hrun⟩

end Requests

/-- The requests on data are the map that raises numbers below `n` to an exponent, from data of at
most `k` bytes to `k` bytes. -/
structure MapsNumbers (P : Provider) (s : Session) (request : Bytes → Request)
    (k n exponent : Nat) : Prop where
  /-- Data that are not too long and denote a number below the modulus are answered. -/
  answered : ∀ data e, data.length ≤ k → value data < n →
    ∃ s', (request data).run P e s =
      .ok (.answer (.bytes (ofNat k (value data ^ exponent % n)))) s'
  /-- All others are refused by the service, zeros in front included. -/
  refused : ∀ data e, ¬(data.length ≤ k ∧ value data < n) →
    ∃ err s', (request data).run P e s = .ok (.failure (.service err)) s'
  /-- An answer is the power, in `k` bytes. -/
  exact : ∀ data e c s', (request data).run P e s = .ok (.answer (.bytes c)) s' →
    c.length = k ∧ value c = value data ^ exponent % n
  /-- The outcome depends on the number alone. -/
  congr : ∀ data data' e e', data.length ≤ k → data'.length ≤ k → value data = value data' →
    ∃ outcome s₁ s₂, (request data).run P e s = .ok outcome s₁ ∧
      (request data').run P e' s = .ok outcome s₂

theorem mapsNumbers_of_raised {request : Bytes → Request} (hn : n < 256 ^ k)
    (h : ∀ data e, ∃ s', (request data).run P e s = .ok (.raised k n exponent data) s') :
    MapsNumbers P s request k n exponent where
  answered := by
    intro data e hlen hlt
    obtain ⟨s', hrun⟩ := h data e
    rw [Outcome.raised, if_neg (Nat.not_lt.mpr hlen), if_pos hlt] at hrun
    exact ⟨s', hrun⟩
  refused := by
    intro data e hnot
    obtain ⟨s', hrun⟩ := h data e
    -- refused for the length, or else for the number
    by_cases hlong : k < data.length
    · rw [Outcome.raised, if_pos hlong] at hrun
      exact ⟨_, s', hrun⟩
    · have hge : ¬value data < n := fun hlt => hnot ⟨Nat.not_lt.mp hlong, hlt⟩
      rw [Outcome.raised, if_neg hlong, if_neg hge] at hrun
      exact ⟨_, s', hrun⟩
  exact := by
    intro data e c s' hanswer
    obtain ⟨s'', hrun⟩ := h data e
    rw [hanswer, Outcome.raised] at hrun
    split at hrun
    · cases hrun
    split at hrun
    · next hlt =>
      cases hrun
      -- a power below the modulus is written in `k` bytes as it is
      have hpower : value data ^ exponent % n < n := Nat.mod_lt _ (by omega)
      exact ⟨length_ofNat _ _, value_ofNat_of_lt (Nat.lt_trans hpower hn)⟩
    · cases hrun
  congr := by
    intro data data' e e' hlen hlen' hvalue
    obtain ⟨s₁, hrun⟩ := h data e
    obtain ⟨s₂, hrun'⟩ := h data' e'
    have hsame : Outcome.raised k n exponent data' = .raised k n exponent data := by
      rw [Outcome.raised, Outcome.raised, if_neg (Nat.not_lt.mpr hlen),
        if_neg (Nat.not_lt.mpr hlen'), hvalue]
    rw [hsame] at hrun'
    exact ⟨_, s₁, s₂, hrun, hrun'⟩

/-- **Raw operations are exact maps of numbers.**  Every unreleased handle of a session that tells
that it is one on an RSA key stands for such a key, and if the provider carries out the raw
operation of the key on blocks, the requests map numbers: on a public key or certificate to powers
of the public exponent, on a private key to powers of the private one.  Data are answered exactly
if they have at most as many bytes as the modulus and denote a number below it, whatever the bytes
are in which they do; data that are longer are refused, even for zeros in front. -/
theorem Runs.raw_exact (hP : P.Rereads) (hs : s.Runs P) :
    (∀ name (k : PublicSource), s.find? name = some k.handle → k.handle.isReleased = false →
      k.algorithm = .rsa → ∃ key, s.PublicAt name (.rsa key)) ∧
    (∀ name key, s.PublicAt name (.rsa key) → P.RaisesPublic key →
      MapsNumbers P s (fun data => .ofPublic name (.encrypt .raw data)) key.byteSize key.modulus
        key.exponent) ∧
    (∀ name k, s.find? name = some (.privateKey k) → k.ref.isSome → k.info.algorithm = .rsa →
      ∃ key, s.PrivateAt name (.rsa key)) ∧
    ∀ name key, s.PrivateAt name (.rsa key) → P.RaisesPrivate key →
      MapsNumbers P s (fun data => .ofPrivate name (.decrypt .raw data)) key.publicKey.byteSize
        key.modulus key.privateExponent := by
  refine ⟨fun name k hfind hlive hrsa => ?_, fun name key hkey hraises => ?_,
    fun name k hfind hlive hrsa => ?_, fun name key hkey hraises => ?_⟩
  · -- what the handle tells is the algorithm of its key
    obtain ⟨key, hkey, halgorithm⟩ := hs.exists_publicAt hP hfind hlive
    rw [hrsa] at halgorithm
    obtain ⟨rsa, rfl⟩ := PublicKey.exists_rsa halgorithm
    exact ⟨rsa, hkey⟩
  · exact mapsNumbers_of_raised (lt_pow_byteLength key.modulus)
      (hs.run_encrypt_raw hP hkey hraises)
  · obtain ⟨key, hkey, halgorithm⟩ := hs.exists_privateAt hP hfind hlive
    rw [hrsa] at halgorithm
    obtain ⟨rsa, rfl⟩ := PrivateKey.exists_rsa halgorithm
    exact ⟨rsa, hkey⟩
  · exact mapsNumbers_of_raised (lt_pow_byteLength key.modulus)
      (hs.run_decrypt_raw hP hkey hraises)

/-- With a key of 609 bits, the number two is raised to either exponent, also with a zero in front;
in 78 bytes it is refused. -/
theorem raw_exact_mersenne : ∃ s : Session, s.Runs .narrow ∧
    (∃ s', (Request.ofPublic "c" (.encrypt .raw [0, 2])).run .narrow (fun _ => 0) s =
      .ok (.answer (.bytes (ofNat 77
        (2 ^ mersenneKey.publicKey.exponent % mersenneKey.publicKey.modulus)))) s') ∧
    (∃ s', (Request.ofPrivate "k" (.decrypt .raw [2])).run .narrow (fun _ => 0) s =
      .ok (.answer (.bytes (ofNat 77 (2 ^ mersenneKey.privateExponent % mersenneKey.modulus))))
        s') ∧
    ∃ err s', (Request.ofPublic "c" (.encrypt .raw (List.replicate 77 0 ++ [2]))).run .narrow
      (fun _ => 0) s = .ok (.failure (.service err)) s' := by
  have hsize : mersenneKey.publicKey.byteSize = 77 := by decide +kernel
  have husable : mersenneKey.publicKey.isUsable = true := by decide +kernel
  have hpublic : Provider.narrow.RaisesPublic mersenneKey.publicKey :=
    (Provider.standard_raisesPublic husable).taking _
  have hprivate : Provider.narrow.RaisesPrivate mersenneKey :=
    (Provider.standard_raisesPrivate mersenneKey_isConsistent (by decide +kernel)).taking _
  obtain ⟨s, hs, hk, -, hc⟩ := exists_at_mersenne
  obtain ⟨-, hencrypt, -, hdecrypt⟩ := Runs.raw_exact Provider.narrow_rereads hs
  have hraise := hencrypt "c" _ hc hpublic
  have hroot := hdecrypt "k" _ hk hprivate
  rw [hsize] at hraise hroot
  have hvalue : value [0, 2] = 2 ∧ value [2] = 2 := ⟨rfl, rfl⟩
  obtain ⟨s₁, hraised⟩ := hraise.answered [0, 2] (fun _ => 0) (by decide) (by decide +kernel)
  obtain ⟨s₂, hrooted⟩ := hroot.answered [2] (fun _ => 0) (by decide) (by decide +kernel)
  rw [hvalue.1] at hraised
  rw [hvalue.2] at hrooted
  exact ⟨s, hs, ⟨s₁, hraised⟩, ⟨s₂, hrooted⟩, hraise.refused _ _ (by simp)⟩

end Session

end Keyring
