import Keyring.Proofs.Rsa.Blocks
import Keyring.Proofs.Session.Requests

/-!
# Encrypting and decrypting

What is encrypted with a public key, or for a certificate, is decrypted with the private key, if it
is short enough for the padding, and refused otherwise.  Padding takes eleven bytes of the modulus
with PKCS #1 version 1.5 and forty-two with OAEP under SHA-1.  Without padding zeros fill the input
up in front, and they are still there when it comes back.

The provider is taken to pad as RFC 8017 says, and its raw operations to undo each other.

## Main definitions

* `Provider.Undoes` — the raw operations of a key pair undo each other.
* `Provider.Pads` — encrypting and decrypting under a padding go through the raw operations.
* `Session.RoundTrips` — what is encrypted in one session is decrypted in another.

## Main results

* `Provider.standard_undoes`, `Provider.standard_pads_pkcs1`, `Provider.standard_pads_oaep` — so
  does the provider in use.
* `Session.Runs.decrypt_encrypt` — **what is encrypted is decrypted**, up to the limits, and
  nothing beyond them is encrypted.
-/

namespace Keyring

open Registry Service Bytes Rsa

variable {P : Provider} {key : Rsa.PrivateKey} {f g : Nat → Nat} {e : Entropy} {m block : Bytes}
  {padding : RsaPadding} {room : Nat} {IsBlock : Nat → Bytes → Bytes → Prop}

/-! ### What is asked of the provider -/

/-- The raw operations of a key pair undo each other: they compute functions that are inverse to
each other on the numbers below the modulus. -/
structure Provider.Undoes (P : Provider) (key : Rsa.PrivateKey) (f g : Nat → Nat) : Prop where
  rawPublic : P.RawPublic key.publicKey f
  rawPrivate : P.RawPrivate key g
  inverse : ∀ x < key.modulus, f x < key.modulus ∧ g x < key.modulus ∧ f (g x) = x ∧ g (f x) = x

/-- The provider pads messages that leave `room` bytes of the modulus: it makes them into blocks
that go through the raw operation, and refuses longer ones.  In its block a message is found
again. -/
structure Provider.Pads (P : Provider) (key : Rsa.PrivateKey) (padding : RsaPadding) (room : Nat)
    (IsBlock : Nat → Bytes → Bytes → Prop) : Prop where
  encrypt : ∀ e m, m.length + room ≤ key.publicKey.byteSize →
    ∃ block, IsBlock key.publicKey.byteSize m block ∧
      P.rsaEncrypt key.publicKey padding e m = P.rsaEncrypt key.publicKey .raw e block
  refuse : ∀ e m, key.publicKey.byteSize < m.length + room →
    P.rsaEncrypt key.publicKey padding e m = none
  decrypt : ∀ c m block, c.length = key.publicKey.byteSize →
    P.rsaDecrypt key .raw c = some block → IsBlock key.publicKey.byteSize m block →
    P.rsaDecrypt key padding c = some m

namespace Provider.Undoes

variable (hraw : P.Undoes key f g) (hlen : block.length = key.publicKey.byteSize)
  (hlt : value block < key.modulus)

include hraw hlen hlt

/-- A block that is encrypted is decrypted. -/
theorem exists_encrypt (e : Entropy) :
    ∃ c, P.rsaEncrypt key.publicKey .raw e block = some c ∧
      c.length = key.publicKey.byteSize ∧ P.rsaDecrypt key .raw c = some block := by
  obtain ⟨hf, -, -, hgf⟩ := hraw.inverse _ hlt
  -- the result is below the modulus, so nothing is lost when it is written in as many bytes
  have hvalue : value (ofNat key.publicKey.byteSize (f (value block))) = f (value block) :=
    value_ofNat_of_lt (Nat.lt_trans hf (lt_pow_byteLength key.modulus))
  refine ⟨_, hraw.rawPublic e block hlen hlt, length_ofNat _ _, ?_⟩
  rw [hraw.rawPrivate _ (length_ofNat _ _) (by rw [hvalue]; exact hf), hvalue, hgf, ← hlen,
    ofNat_value]

/-- A block that is decrypted is encrypted. -/
theorem exists_decrypt :
    ∃ c, P.rsaDecrypt key .raw block = some c ∧ c.length = key.publicKey.byteSize ∧
      ∀ e, P.rsaEncrypt key.publicKey .raw e c = some block := by
  obtain ⟨-, hg, hfg, -⟩ := hraw.inverse _ hlt
  have hvalue : value (ofNat key.publicKey.byteSize (g (value block))) = g (value block) :=
    value_ofNat_of_lt (Nat.lt_trans hg (lt_pow_byteLength key.modulus))
  refine ⟨_, hraw.rawPrivate block hlen hlt, length_ofNat _ _, fun e => ?_⟩
  rw [hraw.rawPublic e _ (length_ofNat _ _) (by rw [hvalue]; exact hg), hvalue, hfg, ← hlen,
    ofNat_value]

end Provider.Undoes

/-- What fits is encrypted to as many bytes as the modulus has, and decrypted. -/
theorem Provider.Pads.exists_encrypt (hpads : P.Pads key padding room IsBlock)
    (hblock : ∀ k m block, IsBlock k m block → block.length = k ∧ block.head? = some 0)
    (hraw : P.Undoes key f g) (hfits : m.length + room ≤ key.publicKey.byteSize) (e : Entropy) :
    ∃ c, P.rsaEncrypt key.publicKey padding e m = some c ∧
      c.length = key.publicKey.byteSize ∧ P.rsaDecrypt key padding c = some m := by
  obtain ⟨block, his, hencrypt⟩ := hpads.encrypt e m hfits
  obtain ⟨hlen, hzero⟩ := hblock _ _ _ his
  -- a block starts with a zero, and so its value is below the modulus
  obtain ⟨c, hc, hlen', hdecrypt⟩ :=
    hraw.exists_encrypt hlen (PublicKey.value_lt_of_zero hlen hzero) e
  exact ⟨c, hencrypt.trans hc, hlen', hpads.decrypt c m block hlen' hdecrypt his⟩

/-! ### The provider in use -/

namespace Provider

theorem standard_undoes (hkey : key.IsConsistent) (husable : key.publicKey.isUsable = true)
    (hodd : ¬(key.modulus % 2 = 0 ∨ key.p % 2 = 0 ∨ key.q % 2 = 0)) :
    standard.Undoes key (fun x => x ^ key.exponent % key.modulus) key.root :=
  ⟨standard_rawPublic husable, standard_rawPrivate hodd, hkey.inverse⟩

theorem standard_pads_pkcs1 (hexponent : byteLength key.privateExponent ≤ key.publicKey.byteSize) :
    standard.Pads key .pkcs1 11 IsMessageBlock where
  encrypt := by
    intro e m hfits
    obtain ⟨block, hblock, his⟩ := exists_padMessage hfits e
    refine ⟨block, his, ?_⟩
    show (padMessage key.publicKey.byteSize e m).bind key.publicKey.applyBlock = _
    rw [hblock]
    rfl
  refuse := by
    intro e m hlong
    show (padMessage key.publicKey.byteSize e m).bind key.publicKey.applyBlock = none
    rw [padMessage_eq_none hlong]
    rfl
  decrypt := by
    intro c m block hlen hraw his
    have happly : key.applyBlock c = some block := hraw
    obtain ⟨padding, hpadding, -, hblock⟩ := his.padded
    have hsize : 11 ≤ key.publicKey.byteSize := by
      rw [← his.length, hblock]
      simp only [List.length_append, List.length_cons, List.length_nil]
      omega
    have hne : c ≠ [] := by
      rintro rfl
      rw [List.length_nil] at hlen
      omega
    show key.decrypt c = some m
    simp [PrivateKey.decrypt, hne, Nat.not_lt.mpr hsize, happly, Nat.not_lt.mpr hexponent,
      his.unpadMessage_eq]

theorem standard_pads_oaep (hsize : key.publicKey.byteSize ≤ (twoTo 32 - 1) * 20) :
    standard.Pads key .oaep 42 Oaep.IsBlock where
  encrypt := by
    intro e m hfits
    obtain ⟨block, hblock, his⟩ := Oaep.exists_pad hfits hsize e
    refine ⟨block, his, ?_⟩
    show (Oaep.pad key.publicKey.byteSize e m).bind key.publicKey.applyBlock = _
    rw [hblock]
    rfl
  refuse := by
    intro e m hlong
    show (Oaep.pad key.publicKey.byteSize e m).bind key.publicKey.applyBlock = none
    rw [Oaep.pad_eq_none hlong]
    rfl
  decrypt := by
    intro c m block hlen hraw his
    have happly : key.applyBlock c = some block := hraw
    have hroom := his.room
    have hne : c ≠ [] := by
      rintro rfl
      rw [List.length_nil] at hlen
      omega
    show key.decryptOaep c = some m
    simp [PrivateKey.decryptOaep, hne, happly, his.unpad_eq hsize]

/-- What a provider decodes does not matter for its operations. -/
theorem Undoes.taking (h : P.Undoes key f g) (taken : List Bytes) :
    (P.taking taken).Undoes key f g :=
  ⟨h.rawPublic, h.rawPrivate, h.inverse⟩

theorem Pads.taking (h : P.Pads key padding room IsBlock) (taken : List Bytes) :
    (P.taking taken).Pads key padding room IsBlock :=
  ⟨h.encrypt, h.refuse, h.decrypt⟩

end Provider

/-! ### Operations of key objects -/

/-- Padding does not need the input to be filled up. -/
theorem Service.fitInput_padded {n : Nat} (hpadding : padding ≠ .raw) :
    fitInput padding n m = .ok m := by
  simp [fitInput, hpadding]

/-- An input is fitted to the size of the key, and goes through the operation of the provider. -/
theorem Service.encryptWith_eq_bind {rsa : Rsa.PublicKey} :
    encryptWith P ⟨.ofPublic (.rsa rsa), false, true⟩ padding rsa.byteSize e m =
      (do performed (P.rsaEncrypt rsa padding e (← fitInput padding rsa.byteSize m))) := by
  have hrsa : (KeyMaterial.ofPublic (.rsa rsa)).publicKey.rsa? = some rsa := rfl
  rw [encryptWith, hrsa, asRsa, ok_bind, if_neg (Nat.lt_irrefl _)]

theorem Service.decryptWith_eq_bind :
    decryptWith P ⟨.ofPrivate (.rsa key), true, true⟩ padding key.publicKey.byteSize m =
      (do performed (P.rsaDecrypt key padding (← fitInput padding key.publicKey.byteSize m))) := by
  have hrsa : (PrivateKey.rsa key).rsa? = some key := rfl
  simp only [decryptWith, hrsa, asRsa, ok_bind, if_neg (Nat.lt_irrefl _)]

theorem Service.encryptWith_eq {rsa : Rsa.PublicKey} {input : Bytes}
    (hfit : fitInput padding rsa.byteSize m = .ok input) :
    encryptWith P ⟨.ofPublic (.rsa rsa), false, true⟩ padding rsa.byteSize e m =
      performed (P.rsaEncrypt rsa padding e input) := by
  rw [encryptWith_eq_bind, hfit, ok_bind]

theorem Service.decryptWith_eq {input : Bytes}
    (hfit : fitInput padding key.publicKey.byteSize m = .ok input) :
    decryptWith P ⟨.ofPrivate (.rsa key), true, true⟩ padding key.publicKey.byteSize m =
      performed (P.rsaDecrypt key padding input) := by
  rw [decryptWith_eq_bind, hfit, ok_bind]

namespace Session

variable {s s' : Session} {name name' : String}

section Requests

variable (hP : P.Rereads) (hs : s.Runs P) {input : Bytes}

include hP hs

/-- Encrypting ends as the operation of the provider does. -/
theorem Runs.exists_encrypt (hkey : s.PublicAt name (.rsa key.publicKey))
    (hfit : fitInput padding key.publicKey.byteSize m = .ok input) (e : Entropy) :
    ∃ s', (Request.ofPublic name (.encrypt padding m)).run P e s =
      .ok (.ofPerformed (P.rsaEncrypt key.publicKey padding e input)) s' := by
  obtain ⟨s', hrun⟩ := hs.run_encrypt hP hkey padding m e
  rw [encryptWith_eq hfit, Outcome.ofExcept_performed] at hrun
  exact ⟨s', hrun⟩

/-- Decrypting ends as the operation of the provider does. -/
theorem Runs.exists_decrypt (hkey : s.PrivateAt name (.rsa key))
    (hfit : fitInput padding key.publicKey.byteSize m = .ok input) (e : Entropy) :
    ∃ s', (Request.ofPrivate name (.decrypt padding m)).run P e s =
      .ok (.ofPerformed (P.rsaDecrypt key padding input)) s' := by
  obtain ⟨s', hrun⟩ := hs.run_decrypt hP hkey padding m e
  rw [decryptWith_eq hfit, Outcome.ofExcept_performed] at hrun
  exact ⟨s', hrun⟩

end Requests

/-! ### There and back -/

/-- Under a padding that takes `room` bytes of a modulus of `k` bytes, every message that fits is
encrypted by one session, to `k` bytes, and decrypted by another, and longer messages are refused
by the service. -/
structure RoundTrips (P : Provider) (s s' : Session) (name name' : String) (padding : RsaPadding)
    (k room : Nat) : Prop where
  fits : ∀ m e, m.length + room ≤ k →
    ∃ c s₁, (Request.ofPublic name (.encrypt padding m)).run P e s =
        .ok (.answer (.bytes c)) s₁ ∧ c.length = k ∧
      ∀ e', ∃ s₂, (Request.ofPrivate name' (.decrypt padding c)).run P e' s' =
        .ok (.answer (.bytes m)) s₂
  long : ∀ m e, k < m.length + room →
    ∃ err s₁, (Request.ofPublic name (.encrypt padding m)).run P e s =
      .ok (.failure (.service err)) s₁

section Sessions

variable (hP : P.Rereads) (hraw : P.Undoes key f g) (hs : s.Runs P) (hs' : s'.Runs P)
  (hpublic : s.PublicAt name (.rsa key.publicKey)) (hprivate : s'.PrivateAt name' (.rsa key))

include hP hraw hs hs' hpublic hprivate

theorem Runs.roundTrips (hpads : P.Pads key padding room IsBlock) (hpadding : padding ≠ .raw)
    (hblock : ∀ k m block, IsBlock k m block → block.length = k ∧ block.head? = some 0) :
    RoundTrips P s s' name name' padding key.publicKey.byteSize room where
  fits := by
    intro m e hfits
    obtain ⟨c, hc, hlen, hm⟩ := hpads.exists_encrypt hblock hraw hfits e
    obtain ⟨s₁, hencrypt⟩ := hs.exists_encrypt hP hpublic (fitInput_padded (m := m) hpadding) e
    rw [hc] at hencrypt
    refine ⟨c, s₁, hencrypt, hlen, fun e' => ?_⟩
    obtain ⟨s₂, hdecrypt⟩ := hs'.exists_decrypt hP hprivate (fitInput_padded (m := c) hpadding) e'
    rw [hm] at hdecrypt
    exact ⟨s₂, hdecrypt⟩
  long := by
    intro m e hlong
    obtain ⟨s₁, hencrypt⟩ := hs.exists_encrypt hP hpublic (fitInput_padded (m := m) hpadding) e
    rw [hpads.refuse e m hlong] at hencrypt
    exact ⟨_, s₁, hencrypt⟩

/-- **What is encrypted is decrypted.**  Let one session have an unreleased RSA public key or a
certificate of it, and another session, or the same one, the private key unreleased; the provider
pads messages for the key as RFC 8017 says, and its raw operations on the key undo each other.
Then every message, the empty one and those that start with zeros included, that leaves eleven
bytes of the modulus is encrypted under PKCS #1 version 1.5 to as many bytes as the modulus has,
and decrypted again; a longer one is refused by the service.  With OAEP the limit is forty-two
bytes.  Without padding, a message that is not longer than the modulus and denotes a number below
it comes back with zeros in front that fill it up to the length of the modulus, whether it is
encrypted first or decrypted. -/
theorem Runs.decrypt_encrypt (hpkcs1 : P.Pads key .pkcs1 11 IsMessageBlock)
    (hoaep : P.Pads key .oaep 42 Oaep.IsBlock) :
    RoundTrips P s s' name name' .pkcs1 key.publicKey.byteSize 11 ∧
    RoundTrips P s s' name name' .oaep key.publicKey.byteSize 42 ∧
    ∀ m e, m.length ≤ key.publicKey.byteSize → value m < key.modulus →
      (∃ c s₁, (Request.ofPublic name (.encrypt .raw m)).run P e s = .ok (.answer (.bytes c)) s₁ ∧
        c.length = key.publicKey.byteSize ∧
        ∀ e', ∃ s₂, (Request.ofPrivate name' (.decrypt .raw c)).run P e' s' =
          .ok (.answer (.bytes (padLeft key.publicKey.byteSize m))) s₂) ∧
      ∃ c s₁, (Request.ofPrivate name' (.decrypt .raw m)).run P e s' =
          .ok (.answer (.bytes c)) s₁ ∧ c.length = key.publicKey.byteSize ∧
        ∀ e', ∃ s₂, (Request.ofPublic name (.encrypt .raw c)).run P e' s =
          .ok (.answer (.bytes (padLeft key.publicKey.byteSize m))) s₂ := by
  refine ⟨?_, ?_, fun m e hm hlt => ?_⟩
  · exact Runs.roundTrips hP hraw hs hs' hpublic hprivate hpkcs1 nofun
      fun _ _ _ h => ⟨h.length, h.head?⟩
  · exact Runs.roundTrips hP hraw hs hs' hpublic hprivate hoaep nofun
      fun _ _ _ h => ⟨h.length, h.head?⟩
  -- what comes out of a raw operation is as long as the modulus, so nothing is filled up again
  have hlen := length_padLeft hm
  rw [← value_padLeft key.publicKey.byteSize] at hlt
  have hwhole : ∀ {c : Bytes}, c.length = key.publicKey.byteSize →
      fitInput .raw key.publicKey.byteSize c = .ok c := fun hc => by
    rw [fitInput_raw (Nat.le_of_eq hc), padLeft_of_length hc]
  constructor
  · obtain ⟨c, hc, hclen, hback⟩ := hraw.exists_encrypt hlen hlt e
    obtain ⟨s₁, hencrypt⟩ := hs.exists_encrypt hP hpublic (fitInput_raw hm) e
    rw [hc] at hencrypt
    refine ⟨c, s₁, hencrypt, hclen, fun e' => ?_⟩
    obtain ⟨s₂, hdecrypt⟩ := hs'.exists_decrypt hP hprivate (hwhole hclen) e'
    rw [hback] at hdecrypt
    exact ⟨s₂, hdecrypt⟩
  · obtain ⟨c, hc, hclen, hback⟩ := hraw.exists_decrypt hlen hlt
    obtain ⟨s₁, hdecrypt⟩ := hs'.exists_decrypt hP hprivate (fitInput_raw hm) e
    rw [hc] at hdecrypt
    refine ⟨c, s₁, hdecrypt, hclen, fun e' => ?_⟩
    obtain ⟨s₂, hencrypt⟩ := hs.exists_encrypt hP hpublic (hwhole hclen) e'
    rw [hback] at hencrypt
    exact ⟨s₂, hencrypt⟩

end Sessions

/-- With a key of 609 bits, two bytes the first of which is zero make the way there, through a
certificate, and back, under each padding; without, they come back as 77 bytes. -/
theorem decrypt_encrypt_mersenne : ∃ s : Session, s.Runs .narrow ∧
    RoundTrips .narrow s s "c" "k" .pkcs1 77 11 ∧ RoundTrips .narrow s s "c" "k" .oaep 77 42 ∧
    ∃ c s₁ s₂, (Request.ofPublic "c" (.encrypt .raw [0, 7])).run .narrow (fun _ => 0) s =
        .ok (.answer (.bytes c)) s₁ ∧
      (Request.ofPrivate "k" (.decrypt .raw c)).run .narrow (fun _ => 0) s =
        .ok (.answer (.bytes (List.replicate 76 0 ++ [7]))) s₂ := by
  have hsize : mersenneKey.publicKey.byteSize = 77 := by decide +kernel
  have hraw := Provider.standard_undoes mersenneKey_isConsistent (by decide +kernel)
    (by decide +kernel)
  have hpkcs1 : Provider.standard.Pads mersenneKey .pkcs1 11 IsMessageBlock :=
    Provider.standard_pads_pkcs1 (by decide +kernel)
  have hoaep : Provider.standard.Pads mersenneKey .oaep 42 Oaep.IsBlock :=
    Provider.standard_pads_oaep (by decide +kernel)
  obtain ⟨s, hs, hprivate, -, hpublic⟩ := exists_at_mersenne
  obtain ⟨hpkcs1, hoaep, hplain⟩ := Runs.decrypt_encrypt Provider.narrow_rereads (hraw.taking _)
    hs hs hpublic hprivate (hpkcs1.taking _) (hoaep.taking _)
  obtain ⟨⟨c, s₁, hencrypt, -, hdecrypt⟩, -⟩ :=
    hplain [0, 7] (fun _ => 0) (by decide +kernel) (by decide +kernel)
  obtain ⟨s₂, hdecrypt⟩ := hdecrypt fun _ => 0
  rw [hsize] at hpkcs1 hoaep hdecrypt
  exact ⟨s, hs, hpkcs1, hoaep, c, s₁, s₂, hencrypt, hdecrypt⟩

end Session

end Keyring
