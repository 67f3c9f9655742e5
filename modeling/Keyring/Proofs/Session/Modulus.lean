import Keyring.Proofs.Key.Modulus
import Keyring.Proofs.Session.Misuse

/-!
# PSS signatures and the modulus of their key

To verify a PSS signature takes the modulus of the key, which is read again from the encoding of
the key each time.  It is always found: whatever a session has loaded, its public keys and
certificates tell what is known of a key that was decoded, and the encoding in it was written by
the provider.  A signature is never turned down because its key could not be read.

## Main definitions

* `Handle.Informed` — a handle tells what is known of a key.

## Main results

* `inherited_informed` — handles stay informed.
* `Session.Runs.verify_pss_never_malformed` — **the key of a PSS signature is never malformed.**
* `Session.modulus_agrees` — **the modulus read again agrees with the key.**
-/

namespace Keyring

open Bytes

variable {P : Provider} {r r' : Registry} {s s' : Session} {name : String} {err : CryptoError}

/-! ### What handles tell -/

variable (P) in
/-- What a public key or certificate tells is known of a key or certificate. -/
def Handle.Informed : Handle → Prop
  | privateKey _ => True
  | publicKey k => k.info.Known P
  | certificate c => c.info.Known P

theorem Imported.informed {h : Handle} (himport : Imported P r r' h) : h.Informed P := by
  cases himport with
  | privateKey hi hrun => trivial
  | publicKey hi hrun =>
    rw [Handle.Informed, (importPublic_eq_ok hrun).2]
    exact hi
  | certificate hi hrun =>
    obtain ⟨x, r₁, -, hreturn⟩ := Action.exists_of_run_bind hrun
    cases hreturn
    exact hi

/-- Handles stay informed: neither releasing nor deriving a key changes what they tell. -/
theorem inherited_informed : Inherited P fun _ h => h.Informed P where
  imported := fun _ _ _ _ himport => himport.informed
  follow := fun _ _ _ _ _ _ hh => hh
  released := fun _ h hh => by
    cases h with
    | privateKey k => trivial
    | publicKey k => exact hh
    | certificate c => exact hh
  derived := fun _ _ _ _ _ _ hh => hh

theorem Session.Runs.known_source (hs : s.Runs P) {k : PublicSource}
    (hfind : s.find? name = some k.handle) : k.info.Known P := by
  have hinformed := hs.inherit inherited_informed _ (mem_of_find? hfind)
  cases k with
  | key k => exact hinformed
  | certificate c => exact CertificateInfo.Known.publicKey hinformed

/-- The key of a source tells what the source tells. -/
theorem PublicSource.info_of_publicKey {k k' : PublicSource} {key : PublicHandle}
    (hcoherent : k.handle.Coherent) (h : k.publicKey r = .ok (.ok key, k') r') :
    key.info = k.info := by
  cases k with
  | key k =>
    cases h
    rfl
  | certificate c =>
    obtain ⟨⟨key', c'⟩, r₁, hkey, h⟩ := exists_of_bind_run h
    cases h
    unfold CertificateHandle.key at hkey
    cases hderived : c.derived with
    | some k =>
      rw [hderived] at hkey
      cases hkey
      obtain ⟨-, y, rfl⟩ := hcoherent key hderived
      rfl
    | none =>
      rw [hderived] at hkey
      obtain ⟨result, r₂, hderive, hkey⟩ := exists_of_bind_run hkey
      cases result with
      | error err => cases hkey
      | ok k =>
        cases hkey
        obtain ⟨x, y, -, rfl⟩ := CertificateHandle.eq_of_derive hderive
        rfl

/-! ### Failures -/

namespace Action

/-- Only a parser, or who reads an encoding again, finds a public key malformed. -/
theorem failsWith_ofService {α : Type} (x : Service α) :
    (ofService x).FailsWith (· ≠ .malformedPublicKey) := by
  intro r err r' h
  change EStateM.map _ x r = _ at h
  rw [EStateM.map] at h
  split at h
  · next a r'' hx =>
    cases a <;> cases h
    nofun
  · cases h

theorem failsWith_owned (ref : Option Ref) :
    (ofExcept (owned ref)).FailsWith (· ≠ .malformedPublicKey) := by
  intro r err r' h
  cases ref <;> cases h
  nofun

theorem failsWith_close {α : Type} {call : EStateM Halt Registry (Except CryptoError α)}
    (hcall : ∃ body, Scope.Composed P body ∧ call = Scope.close (.registry P) body) :
    FailsWith (· ≠ .malformedPublicKey) (ExceptT.mk call) := by
  obtain ⟨body, hbody, rfl⟩ := hcall
  intro r err r' h
  obtain ⟨c, r'', hend⟩ := Scope.exists_ends_of_close h
  obtain ⟨cause, rfl⟩ := hbody.exists_service hend
  nofun

theorem failsWith_ofPss {α : Type} (x : Except Pss.Error α) :
    (ofPss x).FailsWith (· ≠ .malformedPublicKey) := by
  intro r err r' h
  cases x with
  | ok a => cases h
  | error cause => cases cause <;> cases h <;> nofun

theorem failsWith_derive (c : CertificateHandle) :
    c.derive.FailsWith (· ≠ .malformedPublicKey) :=
  (failsWith_owned _).bind fun _ _ _ _ => (failsWith_ofService _).bind fun _ _ _ _ => nofun

theorem failsWith_encryptUnder (padding : RsaPadding) (k : PublicHandle) (input : Bytes)
    (e : Entropy) : (encryptUnder P padding k input e).FailsWith (· ≠ .malformedPublicKey) := by
  refine (failsWith_owned _).bind fun x _ _ _ => ?_
  cases padding with
  | pkcs1 => exact failsWith_ofService _
  | raw => exact failsWith_close (exists_composed_stagedCipher P _ _ _ _ e)
  | oaep => exact failsWith_close (exists_composed_stagedCipher P _ _ _ _ e)

/-- With a modulus there is nothing left to find malformed. -/
theorem failsWith_verifyPss {k : PublicHandle} {m : Bytes} (hmodulus : k.info.modulus = some m)
    (a : HashAlgorithm) (signature message : Bytes) (e : Entropy) :
    (verifyPss P a k signature message e).FailsWith (· ≠ .malformedPublicKey) := by
  refine (failsWith_owned _).bind fun x _ _ _ => ?_
  rw [hmodulus]
  dsimp only
  split
  · exact (failsWith_encryptUnder _ _ _ _).bind fun block _ _ _ => failsWith_ofPss _
  · nofun

end Action

open Keyring.Action

/-- A call on the public key of a source finds no public key malformed, if on a key of the
required algorithm that tells the same it does not. -/
theorem PublicSource.ne_malformed_of_use {α β : Type} {k k' : PublicSource}
    {required : KeyAlgorithm} {check : Except CryptoError α} {f : α → PublicHandle → Action β}
    (hcoherent : k.handle.Coherent) (hcheck : check ≠ .error .malformedPublicKey)
    (hf : ∀ a key, k.info.algorithm = required → key.info = k.info →
      (f a key).FailsWith (· ≠ .malformedPublicKey))
    (h : k.use required check f r = .ok (.error err, k') r') : err ≠ .malformedPublicKey := by
  have halgorithm : k.algorithm = k.info.algorithm := by cases k <;> rfl
  unfold use at h
  by_cases hrequired : k.algorithm = required
  · rw [requireAlgorithm, if_pos hrequired] at h
    cases check with
    | error e =>
      cases h
      rintro rfl
      exact hcheck rfl
    | ok a =>
      obtain ⟨⟨key, k''⟩, r₁, hkey, h⟩ := exists_of_bind_run h
      cases key with
      | error e =>
        cases h
        rcases publicKey_cases hkey with ⟨_, ⟨⟩, -⟩ | ⟨c, -, hderive⟩
        exact failsWith_derive c _ _ _ hderive
      | ok key =>
        obtain ⟨result, r₂, hrun, h⟩ := exists_of_bind_run h
        cases h
        exact hf a key (halgorithm.symm.trans hrequired) (info_of_publicKey hcoherent hkey) _ _ _
          hrun
  · rw [requireAlgorithm, if_neg hrequired] at h
    cases h
    rintro ⟨⟩

namespace Session

/-- **The key of a PSS signature is never malformed**, through whichever handle of a session it
is verified and whether that was released or not. -/
theorem Runs.verify_pss_never_malformed (hP : P.WritesRsa) (hs : s.Runs P) {k : PublicSource}
    (hfind : s.find? name = some k.handle) (hlength : k.info.encoding.length < 2 ^ 32 + 6)
    (hash : String) (signature message : Bytes) (e : Entropy) :
    (Request.ofPublic name (.verify .pss hash signature message)).run P e s ≠
      .ok (.failure .malformedPublicKey) s' := by
  intro hrun
  rcases SessionM.ofPublic_cases hrun with ⟨⟨⟩, -⟩ | ⟨k₁, k', r', hfind₁, hrequest, -⟩
  have hsame : k₁ = k := by
    have hhandle := hfind₁.symm.trans hfind
    cases k <;> cases k₁ <;> cases hhandle <;> rfl
  subst hsame
  obtain ⟨⟨v, k''⟩, r₁, hverify, hrequest⟩ := exists_of_bind_run hrequest
  have hfailure : Outcome.ofExcept (fun _ => .done) v = .failure .malformedPublicKey :=
    (Prod.mk.inj (EStateM.Result.ok.inj hrequest).1).1
  cases v with
  | ok _ => cases hfailure
  | error err =>
    cases hfailure
    have hcheck : hashAlgorithm hash ≠ .error .malformedPublicKey := by
      unfold hashAlgorithm
      split <;> nofun
    refine PublicSource.ne_malformed_of_use (hs.reaches.owned.coherent hfind) hcheck
      (fun a key hrsa hsame => ?_) hverify rfl
    -- what is known of the key gives the modulus
    obtain ⟨decoded, -, hinfo⟩ := hs.known_source hfind
    obtain ⟨m, hm, -⟩ := exists_modulus_of_publicInfo hP hinfo hrsa hlength
    refine (failsWith_verifyPss (hsame ▸ hm) a signature message e).bind fun valid _ _ _ => ?_
    cases valid <;> nofun

/-- **The modulus read again agrees with the key.**  In the encoding of an RSA key the modulus is
found exactly if the encoding is not too long to be read, and then in the bytes that its number
needs: the first one is not zero, and there are as many as the bits of the number take.  Of
whatever bytes, no modulus that is found starts with a zero byte.  From every RSA key that was
parsed, alone or in a certificate, the modulus is read, with as many bytes and bits as the key is
known to have.  So no PSS signature is refused in any session because the key is malformed. -/
theorem modulus_agrees (hP : P.WritesRsa) :
    (∀ key : Rsa.PublicKey, ∃ b, PublicKey.write (.rsa key) = some b ∧
      Inspection.modulusOf b =
        (if b.length < 2 ^ 32 + 6 then some (minimal key.modulus) else none) ∧
      value (minimal key.modulus) = key.modulus ∧ (minimal key.modulus).head? ≠ some 0 ∧
      (minimal key.modulus).length = bytesFor (bitLength key.modulus)) ∧
    (∀ b m, Inspection.modulusOf b = some m → m.head? ≠ some 0) ∧
    (∀ b i, parsePublic P b = .ok i → i.algorithm = .rsa → i.encoding.length < 2 ^ 32 + 6 →
      ∃ m, i.modulus = some m ∧ m.length = i.byteSize ∧ bitLength (value m) = i.bitSize) ∧
    (∀ b c, parseCertificate P b = .ok c → c.algorithm = .rsa →
      c.publicKey.encoding.length < 2 ^ 32 + 6 →
      ∃ m, c.publicKey.modulus = some m ∧ m.length = c.byteSize ∧
        bitLength (value m) = c.bitSize) ∧
    ∀ s, s.Runs P → ∀ name (k : PublicSource), s.find? name = some k.handle →
      k.info.encoding.length < 2 ^ 32 + 6 → ∀ hash signature message e s',
        (Request.ofPublic name (.verify .pss hash signature message)).run P e s ≠
          .ok (.failure .malformedPublicKey) s' := by
  refine ⟨fun key => ⟨_, rfl, Inspection.modulusOf_written rfl, value_minimal _,
      head?_minimal _, length_minimal _⟩, fun b m => Inspection.head?_modulusOf,
    fun b i hparse => ?_, fun b c hparse => ?_, fun s hs name k hfind hlength hash signature
      message e s' => hs.verify_pss_never_malformed hP hfind hlength hash signature message e⟩
  · obtain ⟨key, -, hinfo⟩ := known_of_parsePublic hparse
    exact exists_modulus_of_publicInfo hP hinfo
  · obtain ⟨key, -, hinfo⟩ := (known_of_parseCertificate hparse).publicKey
    exact exists_modulus_of_publicInfo hP hinfo

/-- The certificate of a key of 609 bits tells a modulus of 77 bytes, and through it no PSS
signature is refused because the key is malformed. -/
theorem modulus_agrees_mersenne :
    (∃ m, mersenneInfo.modulus = some m ∧ m.length = 77 ∧ bitLength (value m) = 609) ∧
    ∃ s : Session, s.Runs .narrow ∧ ∃ c : CertificateHandle,
      s.find? "c" = some (.certificate c) ∧ ∀ hash signature message e s',
        (Request.ofPublic "c" (.verify .pss hash signature message)).run .narrow e s ≠
          .ok (.failure .malformedPublicKey) s' := by
  have hwrites : Provider.narrow.WritesRsa := fun key b h => h
  have hlength : mersenneInfo.encoding.length < 2 ^ 32 + 6 := by decide +kernel
  obtain ⟨-, -, hpublic, -, hsessions⟩ := modulus_agrees hwrites
  have hbits : mersenneInfo.bitSize = 609 := by rw [mersenneInfo, Rsa.mersenneKey_bitSize]
  have hbytes : mersenneInfo.byteSize = 77 := by rw [PublicInfo.byteSize, hbits]; rfl
  obtain ⟨m, hm, hlen, hvalue⟩ := hpublic _ mersenneInfo parsePublic_mersenne rfl hlength
  refine ⟨⟨m, hm, hlen.trans hbytes, hvalue.trans hbits⟩, ?_⟩
  obtain ⟨s, c, p, k, r, r', hs, hhandles, hc, hp, -, hload⟩ := exists_runs_narrow
  have hfind : s.find? "c" = some (PublicSource.certificate c).handle := by
    rw [Session.find?, hhandles]
    rfl
  -- nothing else is told of the certificate
  obtain ⟨key, hdecodes, hinfo⟩ := hs.known_source hfind
  rw [hdecodes.of_narrow, publicInfo_mersenne] at hinfo
  refine ⟨s, hs, c, hfind, hsessions s hs "c" (.certificate c) hfind ?_⟩
  rw [← Except.ok.inj hinfo]
  exact hlength

end Session

end Keyring
