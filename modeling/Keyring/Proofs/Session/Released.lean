import Keyring.Proofs.Session.Ownership

/-!
# Handles that were released

A released handle still tells what is known of its key or certificate, and nothing else can be
done with it.  Every operation on it is refused: for a key of another algorithm, for a hash
algorithm that the operation does not take, and otherwise for being released.  The service is
not asked.

There is one exception.  A signer pads a message before looking at the handle, and a key without
room for an encoding is refused for that.

## Main definitions

* `Operation` — what an operation requires of a key and of the name of a hash algorithm.
* `Operation.Refuses` — how a released key refuses an operation.
* `PrivateRequest.Crowded` — the exception.

## Main results

* `PublicSource.exists_use_released` — a released source refuses whatever is done with its key.
* `Session.Reaches.released_refuses` — **in every session, released handles refuse every
  operation and nothing changes**, but for the exception.
* `Session.released_pss_crowded` — the exception.
-/

namespace Keyring

variable {α β : Type} {P : Provider} {r : Registry} {e : Entropy}

/-! ### What operations require -/

/-- An operation by what it requires: encrypting and decrypting are for RSA keys, signing and
verifying in a scheme for the keys of the scheme, under a hash algorithm given by name. -/
inductive Operation where
  | cipher
  | signature (scheme : SignatureScheme) (hash : String)

namespace Operation

/-- The algorithm of the keys that an operation is for. -/
def algorithm : Operation → KeyAlgorithm
  | cipher => .rsa
  | signature scheme _ => scheme.algorithm

/-- The hash algorithm of an operation is one that it takes: there is no PSS padding under
MD5. -/
def Supported : Operation → Prop
  | cipher => True
  | signature scheme hash =>
    ∃ a, HashAlgorithm.ofName? hash = some a ∧ (scheme = .pss → a ≠ .md5)

/-- How a released key refuses an operation: for being released if all else is as the operation
requires, and otherwise possibly for what is not. -/
structure Refuses (o : Operation) (actual : KeyAlgorithm) (err : CryptoError) : Prop where
  released : actual = o.algorithm → o.Supported → err = .released
  cases : err = .released ∨
    actual ≠ o.algorithm ∧ err = .algorithmMismatch o.algorithm actual ∨
    ¬o.Supported ∧ ∃ scheme hash, o = .signature scheme hash ∧ err = .unsupportedHash hash

variable {o : Operation} {actual : KeyAlgorithm}

theorem refuses_released : o.Refuses actual .released := ⟨fun _ _ => rfl, .inl rfl⟩

theorem refuses_of_ne (h : actual ≠ o.algorithm) :
    o.Refuses actual (.algorithmMismatch o.algorithm actual) :=
  ⟨fun hsame => absurd hsame h, .inr (.inl ⟨h, rfl⟩)⟩

theorem refuses_hash {scheme : SignatureScheme} {hash : String}
    (h : ¬(signature scheme hash).Supported) :
    (signature scheme hash).Refuses actual (.unsupportedHash hash) :=
  ⟨fun _ hsupported => absurd hsupported h, .inr (.inr ⟨h, scheme, hash, rfl, rfl⟩)⟩

/-- A name that denotes no hash algorithm is not supported. -/
theorem not_supported (scheme : SignatureScheme) {hash : String} {err : CryptoError}
    (h : hashAlgorithm hash = .error err) :
    err = .unsupportedHash hash ∧ ¬(signature scheme hash).Supported := by
  unfold hashAlgorithm at h
  split at h
  · cases h
  · next hnone =>
    cases h
    refine ⟨rfl, ?_⟩
    rintro ⟨a, ha, -⟩
    rw [hnone] at ha
    cases ha

end Operation

theorem ofName?_of_hashAlgorithm {hash : String} {a : HashAlgorithm}
    (h : hashAlgorithm hash = .ok a) : HashAlgorithm.ofName? hash = some a := by
  unfold hashAlgorithm at h
  split at h
  · next ha =>
    cases h
    exact ha
  · cases h

/-- The operation that is asked of a public key or certificate, if it is one. -/
def PublicRequest.operation? : PublicRequest → Option Operation
  | key | modulus => none
  | encrypt _ _ => some .cipher
  | verify scheme hash _ _ => some (.signature scheme hash)

/-- The operation that is asked of a private key. -/
def PrivateRequest.operation : PrivateRequest → Operation
  | decrypt _ _ => .cipher
  | sign scheme hash _ => .signature scheme hash

/-- A PSS signature is asked of a key without room for an encoding. -/
def PrivateRequest.Crowded (q : PrivateRequest) (i : PrivateInfo) : Prop :=
  ∃ hash message a, q = .sign .pss hash message ∧ HashAlgorithm.ofName? hash = some a ∧
    a ≠ .md5 ∧ i.algorithm = .rsa ∧
    ¬(512 ≤ i.bitSize ∧ 2 * a.digestLength + 2 ≤ bytesFor (i.bitSize - 1))

/-! ### Operations on released handles -/

section Released

variable (P)

/-- What a released handle owns is asked for in vain. -/
theorem run_owned_none {ref : Option Ref} {f : Ref → Action α} (h : ref = none) :
    (Action.ofExcept (owned ref) >>= f).run r = .ok (.error .released) r := by
  rw [h]
  exact Action.run_bind_error rfl

/-- A released certificate has no key to give out. -/
theorem CertificateHandle.key_released {c : CertificateHandle}
    (hcoherent : (Handle.certificate c).Coherent) (h : c.ref = none) :
    c.key r = .ok (.error .released, c) r := by
  have hderive : c.derive.run r = .ok (.error .released) r := run_owned_none h
  rw [CertificateHandle.key, hcoherent.derived_eq_none h]
  exact bind_run_ok hderive

theorem encryptUnder_released {k : PublicHandle} (padding : RsaPadding) (input : Bytes)
    (e : Entropy) (h : k.ref = none) :
    (encryptUnder P padding k input e).run r = .ok (.error .released) r := run_owned_none h

theorem decryptUnder_released {k : PrivateHandle} (padding : RsaPadding) (input : Bytes)
    (e : Entropy) (h : k.ref = none) :
    (decryptUnder P padding k input e).run r = .ok (.error .released) r := run_owned_none h

/-- Verifying looks at the handle before all else, in every scheme. -/
theorem verify_released {k : PublicHandle} (scheme : SignatureScheme) (a : HashAlgorithm)
    (signature message : Bytes) (e : Entropy) (h : k.ref = none) :
    (do
      let valid ←
        match scheme with
        | .pss => verifyPss P a k signature message e
        | _ => verifyStaged P a k signature message e
      Action.ofExcept (verdict valid) : Action Unit).run r = .ok (.error .released) r := by
  cases scheme with
  | pss => exact Action.run_bind_error (run_owned_none h)
  | pkcs1 => exact Action.run_bind_error (run_owned_none h)
  | dsa => exact Action.run_bind_error (run_owned_none h)
  | ecdsa => exact Action.run_bind_error (run_owned_none h)

/-- A key with room for an encoding looks at its handle once there is a block. -/
theorem signPss_released {k : PrivateHandle} {a : HashAlgorithm} (message : Bytes) (e : Entropy)
    (h : k.ref = none) (ha : a ≠ .md5) (hbits : 512 ≤ k.info.bitSize)
    (hfit : 2 * a.digestLength + 2 ≤ bytesFor (k.info.bitSize - 1)) :
    (signPss P a k message e).run r = .ok (.error .released) r ∨
      2 ^ 35 ≤ k.info.bitSize ∧ (signPss P a k message e).run r = .error .sizeOverflow r := by
  have hsalt : (e.bytes (Pss.saltLength a)).length = a.digestLength := by
    rw [Entropy.length_bytes, Pss.saltLength_eq ha]
  rw [signPss]
  rcases Pss.addPadding_cases message ha hsalt hbits hfit with ⟨block, hpad⟩ | ⟨hpad, hlong⟩
  · rw [hpad]
    exact .inl ((Action.run_bind_ok rfl).trans (decryptUnder_released P _ _ _ h))
  · rw [hpad]
    exact .inr ⟨hlong, rfl⟩

/-- A key without room for an encoding does not get to look at its handle. -/
theorem signPss_crowded {k : PrivateHandle} {a : HashAlgorithm} (message : Bytes) (e : Entropy)
    (ha : a ≠ .md5)
    (h : ¬(512 ≤ k.info.bitSize ∧ 2 * a.digestLength + 2 ≤ bytesFor (k.info.bitSize - 1))) :
    (signPss P a k message e).run r = .ok (.error .pssPadding) r := by
  have hsalt : (e.bytes (Pss.saltLength a)).length = a.digestLength := by
    rw [Entropy.length_bytes, Pss.saltLength_eq ha]
  rw [signPss]
  refine Action.run_bind_error ?_
  rcases Pss.addPadding_error message ha hsalt h with hpad | hpad <;> rw [hpad] <;> rfl

end Released

section Operations

variable (P)

/-- **A released source refuses** whatever is done with its key, and the registry stays. -/
theorem PublicSource.exists_use_released {k : PublicSource} (required : KeyAlgorithm)
    (check : Except CryptoError α) {f : α → PublicHandle → Action β}
    (hcoherent : k.handle.Coherent) (hreleased : k.handle.isReleased = true)
    (hf : ∀ a key, key.ref = none → (f a key).run r = .ok (.error .released) r) :
    ∃ err, k.use required check f r = .ok (.error err, k) r ∧
      (k.algorithm ≠ required ∧ err = .algorithmMismatch required k.algorithm ∨
        check = .error err ∨ (∃ a, check = .ok a) ∧ err = .released) := by
  unfold use requireAlgorithm
  by_cases halgorithm : k.algorithm = required
  · rw [if_pos halgorithm]
    cases check with
    | error err => exact ⟨err, rfl, .inr (.inl rfl)⟩
    | ok a =>
      refine ⟨.released, ?_, .inr (.inr ⟨⟨a, rfl⟩, rfl⟩)⟩
      cases k with
      | key key =>
        have hnone : key.ref = none := Option.isNone_iff_eq_none.mp hreleased
        exact bind_run_ok (hf a key hnone)
      | certificate c =>
        have hnone : c.ref = none := Option.isNone_iff_eq_none.mp hreleased
        have hsource : (PublicSource.certificate c).publicKey r =
            .ok (.error .released, .certificate c) r :=
          bind_run_ok (CertificateHandle.key_released hcoherent hnone)
        exact bind_run_ok hsource
  · rw [if_neg halgorithm]
    exact ⟨_, rfl, .inl ⟨halgorithm, rfl⟩⟩

/-- A released public key or certificate refuses every operation. -/
theorem PublicRequest.exists_run_released {q : PublicRequest} {o : Operation} {k : PublicSource}
    (hcoherent : k.handle.Coherent) (hreleased : k.handle.isReleased = true)
    (ho : q.operation? = some o) (e : Entropy) :
    ∃ err, q.run P k e r = .ok (.failure err, k) r ∧ o.Refuses k.algorithm err := by
  cases q with
  | key => cases ho
  | modulus => cases ho
  | encrypt padding input =>
    cases ho
    obtain ⟨err, hrun, hcases⟩ := PublicSource.exists_use_released .rsa (.ok ()) hcoherent
      hreleased fun _ key hnone => encryptUnder_released (r := r) P padding input e hnone
    refine ⟨err, bind_run_ok hrun, ?_⟩
    rcases hcases with ⟨hne, rfl⟩ | hcheck | ⟨-, rfl⟩
    · exact Operation.refuses_of_ne (o := .cipher) hne
    · cases hcheck
    · exact Operation.refuses_released
  | verify scheme hash signature message =>
    cases ho
    obtain ⟨err, hrun, hcases⟩ := PublicSource.exists_use_released scheme.algorithm
      (hashAlgorithm hash) hcoherent hreleased fun a key hnone =>
        verify_released (r := r) P scheme a signature message e hnone
    refine ⟨err, bind_run_ok hrun, ?_⟩
    rcases hcases with ⟨hne, rfl⟩ | hcheck | ⟨-, rfl⟩
    · exact Operation.refuses_of_ne (o := .signature scheme hash) hne
    · obtain ⟨rfl, hnot⟩ := Operation.not_supported scheme hcheck
      exact Operation.refuses_hash hnot
    · exact Operation.refuses_released

/-- Where there is no room for an encoding, that is what a signer is told first. -/
theorem PrivateRequest.run_crowded {q : PrivateRequest} {k : PrivateHandle}
    (hcrowded : q.Crowded k.info) (e : Entropy) :
    (q.run P k e).run r = .ok (.error .pssPadding) r := by
  obtain ⟨hash, message, a, rfl, ha, hmd5, halgorithm, hroom⟩ := hcrowded
  have hrequired : requireAlgorithm k.info.algorithm SignatureScheme.pss.algorithm = .ok () := by
    rw [halgorithm]
    rfl
  have hhash : hashAlgorithm hash = .ok a := by rw [hashAlgorithm, ha]
  rw [run, Keyring.sign, hrequired, hhash]
  refine (Action.run_bind_ok rfl).trans ((Action.run_bind_ok rfl).trans ?_)
  exact signPss_crowded P message e hmd5 hroom

/-- A released private key signs nothing. -/
theorem exists_sign_released {k : PrivateHandle} (scheme : SignatureScheme) (hash : String)
    (message : Bytes) (e : Entropy) (hnone : k.ref = none)
    (hroom : ¬(PrivateRequest.sign scheme hash message).Crowded k.info) :
    (∃ err, (sign P scheme hash k message e).run r = .ok (.error err) r ∧
      (Operation.signature scheme hash).Refuses k.info.algorithm err) ∨
    scheme = .pss ∧ 2 ^ 35 ≤ k.info.bitSize ∧
      (sign P scheme hash k message e).run r = .error .sizeOverflow r := by
  rw [sign, requireAlgorithm]
  by_cases halgorithm : k.info.algorithm = scheme.algorithm
  · rw [if_pos halgorithm]
    cases hhash : hashAlgorithm hash with
    | error err =>
      obtain ⟨rfl, hnot⟩ := Operation.not_supported scheme hhash
      exact .inl ⟨_, rfl, Operation.refuses_hash hnot⟩
    | ok a =>
      have ha := ofName?_of_hashAlgorithm hhash
      have hstaged : (signStaged P a k message e).run r = .ok (.error .released) r :=
        run_owned_none hnone
      cases scheme with
      | pkcs1 => exact .inl ⟨.released, hstaged, Operation.refuses_released⟩
      | dsa => exact .inl ⟨.released, hstaged, Operation.refuses_released⟩
      | ecdsa => exact .inl ⟨.released, hstaged, Operation.refuses_released⟩
      | pss =>
        by_cases hmd5 : a = .md5
        · -- there is no padding under MD5
          subst hmd5
          have hnot : ¬(Operation.signature .pss hash).Supported := by
            rintro ⟨a, ha', hne⟩
            rw [ha] at ha'
            cases ha'
            exact hne rfl rfl
          have hname : HashAlgorithm.md5.name = hash := HashAlgorithm.name_of_ofName? ha
          refine .inl ⟨.unsupportedHash hash, ?_, Operation.refuses_hash hnot⟩
          rw [← hname]
          rfl
        · by_cases hfits : 512 ≤ k.info.bitSize ∧
            2 * a.digestLength + 2 ≤ bytesFor (k.info.bitSize - 1)
          · obtain ⟨hbits, hfit⟩ := hfits
            rcases signPss_released P message e (r := r) hnone hmd5 hbits hfit with hrun |
              ⟨hlong, hrun⟩
            · exact .inl ⟨.released, hrun, Operation.refuses_released⟩
            · exact .inr ⟨rfl, hlong, hrun⟩
          · exact absurd ⟨hash, message, a, rfl, ha, hmd5, halgorithm, hfits⟩ hroom
  · rw [if_neg halgorithm]
    exact .inl ⟨_, rfl, Operation.refuses_of_ne (o := .signature scheme hash) halgorithm⟩

/-- A released private key refuses every operation. -/
theorem PrivateRequest.exists_run_released {q : PrivateRequest} {k : PrivateHandle} (e : Entropy)
    (hnone : k.ref = none) (hroom : ¬q.Crowded k.info) :
    (∃ err, (q.run P k e).run r = .ok (.error err) r ∧
      q.operation.Refuses k.info.algorithm err) ∨
    (∃ hash message, q = .sign .pss hash message) ∧ 2 ^ 35 ≤ k.info.bitSize ∧
      (q.run P k e).run r = .error .sizeOverflow r := by
  cases q with
  | decrypt padding input =>
    left
    rw [run, Keyring.decrypt, requireAlgorithm]
    by_cases halgorithm : k.info.algorithm = .rsa
    · rw [if_pos halgorithm]
      exact ⟨.released, decryptUnder_released P padding input e hnone, Operation.refuses_released⟩
    · rw [if_neg halgorithm]
      exact ⟨_, rfl, Operation.refuses_of_ne (o := .cipher) halgorithm⟩
  | sign scheme hash message =>
    rcases exists_sign_released P scheme hash message e hnone hroom with hrefused |
      ⟨rfl, hlong, hrun⟩
    · exact .inl hrefused
    · exact .inr ⟨⟨hash, message, rfl⟩, hlong, hrun⟩

end Operations

/-! ### Sessions with released handles -/

/-- The size of the key of a handle in bytes. -/
def Handle.byteSize : Handle → Nat
  | privateKey k => k.info.byteSize
  | publicKey k => k.info.byteSize
  | certificate c => c.info.byteSize

theorem Handle.released_eq_self {h : Handle} (hcoherent : h.Coherent)
    (hreleased : h.isReleased = true) : h.released = h := by
  cases h with
  | privateKey k =>
    have hnone : k.ref = none := Option.isNone_iff_eq_none.mp hreleased
    rw [released, ← hnone]
  | publicKey k =>
    have hnone : k.ref = none := Option.isNone_iff_eq_none.mp hreleased
    rw [released, ← hnone]
  | certificate c =>
    have hnone : c.ref = none := Option.isNone_iff_eq_none.mp hreleased
    have hderived := hcoherent.derived_eq_none hnone
    obtain ⟨ref, info, derived⟩ := c
    cases hnone
    cases hderived
    rfl

namespace Session

variable {s : Session} {name : String} {h : Handle}

/-- Nothing has changed in a session: neither an object nor the handle of a name. -/
structure SameAs (s' s : Session) : Prop where
  registry : s'.registry = s.registry
  find?_eq : ∀ n, s'.find? n = s.find? n

theorem find?_set (s : Session) (name : String) (h : Handle) (n : String) :
    (s.set name h).find? n = if n = name then some h else s.find? n := by
  rw [find?, set, List.lookup_cons]
  by_cases hn : n = name
  · simp [hn]
  · rw [beq_eq_false_iff_ne.mpr hn, if_neg hn, find?]
    -- what is called otherwise stays
    induction s.handles with
    | nil => rfl
    | cons p rest ih =>
      by_cases hp : p.1 = name
      · rw [List.filter_cons_of_neg (by simp [hp]), List.lookup_cons, hp,
          beq_eq_false_iff_ne.mpr hn]
        exact ih
      · rw [List.filter_cons_of_pos (by simp [hp]), List.lookup_cons, List.lookup_cons]
        cases n == p.1 with
        | true => rfl
        | false => exact ih

/-- A handle that is put back as it was changes nothing. -/
theorem sameAs_set (hfind : s.find? name = some h) : SameAs (s.set name h) s where
  registry := rfl
  find?_eq := by
    intro n
    rw [find?_set]
    split
    · next hn => rw [hn, hfind]
    · rfl

theorem Owned.coherent (hs : s.Owned) (hfind : s.find? name = some h) : h.Coherent :=
  hs.carries.coherent h (List.mem_map.mpr ⟨(name, h), mem_of_find? hfind, rfl⟩)

variable (P)

/-- A handle is released: it keeps what is known of its key, and a second time nothing
changes. -/
theorem Owned.exists_release (hs : s.Owned) (hfind : s.find? name = some h) (e : Entropy) :
    ∃ s', (Request.release name).run P e s = .ok (.answer .done) s' ∧
      s'.find? name = some h.released ∧ (h.isReleased = true → s'.SameAs s) := by
  obtain ⟨r', hrelease, -⟩ := (hs.carries_erase hfind).release
  have hrun : (Request.release name).run P e s =
      .ok (.answer .done) (Session.set { s with registry := r' } name h.released) :=
    (SessionM.withHandle_eq hfind).trans (bind_run_ok (SessionM.ofRegistry_eq_ok hrelease))
  refine ⟨_, hrun, by rw [find?_set, if_pos rfl], fun hreleased => ?_⟩
  have hcoherent := hs.coherent hfind
  -- nothing is owned, so nothing is given back
  have hsame : r' = s.registry := by
    have howns : h.owns = [] := by
      rw [← h.map_fst_holdings, hcoherent.holdings_eq_nil hreleased]
      rfl
    rw [Handle.release, howns] at hrelease
    cases hrelease
    rfl
  rw [hsame, Handle.released_eq_self hcoherent hreleased]
  exact sameAs_set hfind

/-- **Released handles refuse every operation, in every session.**  Releasing keeps what is known
of a key or certificate, and releasing again changes nothing.  Encrypting and verifying through a
released public key or certificate end with the error that the handle was released, if the key is
of the algorithm required and the hash algorithm is one that the operation takes; otherwise the
error may be that the key is of another algorithm, or that there is no such hash algorithm.  The
same goes for decrypting and signing with a released private key, whatever its size, except that
a key without room for a PSS encoding is refused for that; padding under an excessively long
modulus may be abandoned.  No object is created, given back or changed, and every handle stays as
it was. -/
theorem Reaches.released_refuses (hs : Reaches P s) (hfind : s.find? name = some h) (e : Entropy) :
    (∃ s', (Request.release name).run P e s = .ok (.answer .done) s' ∧
      s'.find? name = some h.released ∧ (h.isReleased = true → s'.SameAs s)) ∧
    (h.released.isReleased = true ∧ h.released.algorithm = h.algorithm ∧
      h.released.bitSize = h.bitSize ∧ h.released.byteSize = h.byteSize) ∧
    (h.isReleased = true →
      (∀ k q o, h.source? = some k → PublicRequest.operation? q = some o →
        ∃ err s', (Request.ofPublic name q).run P e s = .ok (.failure err) s' ∧
          o.Refuses h.algorithm err ∧ s'.SameAs s) ∧
      ∀ k (q : PrivateRequest), h = .privateKey k →
        (¬q.Crowded k.info →
          (∃ err, (Request.ofPrivate name q).run P e s = .ok (.failure err) s ∧
            q.operation.Refuses h.algorithm err) ∨
          (∃ hash message, q = .sign .pss hash message) ∧ 2 ^ 35 ≤ h.bitSize ∧
            (Request.ofPrivate name q).run P e s = .error .sizeOverflow s) ∧
        (q.Crowded k.info →
          (Request.ofPrivate name q).run P e s = .ok (.failure .pssPadding) s)) := by
  have howned := hs.owned
  have hcoherent := howned.coherent hfind
  refine ⟨howned.exists_release P hfind e, ?_, fun hreleased => ⟨?_, ?_⟩⟩
  · cases h <;> exact ⟨rfl, rfl, rfl, rfl⟩
  · intro k q o hsource ho
    have hhandle : k.handle = h := by cases h <;> cases hsource <;> rfl
    have halgorithm : k.algorithm = h.algorithm := by cases h <;> cases hsource <;> rfl
    subst hhandle
    obtain ⟨err, hrun, hrefuses⟩ := PublicRequest.exists_run_released P (r := s.registry)
      hcoherent hreleased ho e
    rw [halgorithm] at hrefuses
    exact ⟨err, s.set name k.handle, (SessionM.ofPublic_eq P q e hfind).trans
      (bind_run_ok (SessionM.ofRegistry_eq_ok hrun)), hrefuses, sameAs_set hfind⟩
  · rintro k q rfl
    have hnone : k.ref = none := Option.isNone_iff_eq_none.mp hreleased
    have hrequest : ∀ result, (q.run P k e).run s.registry = .ok result s.registry →
        (Request.ofPrivate name q).run P e s = .ok (.ofExcept .bytes result) s :=
      fun result hrun => (SessionM.withHandle_eq hfind).trans
        (bind_run_ok (SessionM.ofRegistry_eq_ok hrun))
    refine ⟨fun hroom => ?_, fun hcrowded => hrequest _ (PrivateRequest.run_crowded P hcrowded e)⟩
    rcases PrivateRequest.exists_run_released P (r := s.registry) e hnone hroom with
      ⟨err, hrun, hrefuses⟩ | ⟨hpss, hlong, hrun⟩
    · exact .inl ⟨err, hrequest _ hrun, hrefuses⟩
    · exact .inr ⟨hpss, hlong, (SessionM.withHandle_eq hfind).trans
        (bind_run_error (SessionM.ofRegistry_eq_error hrun))⟩

/-- A private key of 609 bits is loaded and released. -/
theorem exists_released_mersenneKey : ∃ s k, Reaches .standard s ∧
    s.find? "k" = some (.privateKey k) ∧ k.ref = none ∧ k.info.algorithm = .rsa ∧
    k.info.bitSize = 609 := by
  obtain ⟨i, k, r, -, hload, -, hk⟩ := exists_loadPrivate_mersenneKey
  obtain ⟨-, -, hparameters, hsize⟩ := privateInfo_rsa hk.info
  have hrun : (Request.loadPrivate "k" (.parsed i) none).run .standard (fun _ => 0) {} =
      .ok (.answer (.handle (.privateKey k))) ⟨r, [("k", .privateKey k)]⟩ :=
    bind_run_ok (SessionM.ofRegistry_eq_ok (s := {}) hload)
  have hreaches : Reaches .standard ⟨r, [("k", .privateKey k)]⟩ := .step .start hrun
  have hloaded : find? ⟨r, [("k", .privateKey k)]⟩ "k" = some (.privateKey k) := rfl
  obtain ⟨s', hrelease, hfind, -⟩ :=
    hreaches.owned.exists_release .standard hloaded fun _ => 0
  refine ⟨s', { k with ref := none }, hreaches.step hrelease, hfind, rfl, ?_, ?_⟩
  · rw [PrivateInfo.algorithm, hparameters]
    rfl
  · rw [hsize, Rsa.mersenneKey_bitSize]

/-- Once it is released, the key does not sign for SHA-256, for which it has room. -/
theorem released_refuses_sign : ∃ s k, Reaches .standard s ∧
    s.find? "k" = some (.privateKey k) ∧
    (Request.ofPrivate "k" (.sign .pss "sha256" [])).run .standard (fun _ => 0) s =
      .ok (.failure .released) s := by
  obtain ⟨s, k, hs, hfind, hnone, halgorithm, hsize⟩ := exists_released_mersenneKey
  obtain ⟨-, -, hrefuses⟩ := hs.released_refuses .standard hfind fun _ => 0
  obtain ⟨-, hprivate⟩ := hrefuses (Option.isNone_iff_eq_none.mpr hnone)
  obtain ⟨hroom, -⟩ := hprivate k (.sign .pss "sha256" []) rfl
  have hnot : ¬(PrivateRequest.sign .pss "sha256" []).Crowded k.info := by
    rintro ⟨hash, message, a, hq, ha, -, -, hcrowded⟩
    cases hq
    cases ha
    rw [hsize] at hcrowded
    exact hcrowded (by decide)
  rcases hroom hnot with ⟨err, hrun, hrefused⟩ | ⟨-, hlong, -⟩
  · rw [hrefused.released halgorithm ⟨.sha256, rfl, fun _ => by decide⟩] at hrun
    exact ⟨s, k, hs, hfind, hrun⟩
  · change 2 ^ 35 ≤ k.info.bitSize at hlong
    rw [hsize] at hlong
    exact absurd hlong (by decide)

/-- For SHA-512 the key has no room: this is what a signer is told, though the key was released,
and it is not an error of the caller's. -/
theorem released_pss_crowded : ∃ s k, Reaches .standard s ∧
    s.find? "k" = some (.privateKey k) ∧ k.ref = none ∧ k.info.algorithm = .rsa ∧
    (Request.ofPrivate "k" (.sign .pss "sha512" [])).run .standard (fun _ => 0) s =
      .ok (.failure .pssPadding) s ∧
    CryptoError.isContractViolation .pssPadding = false := by
  obtain ⟨s, k, hs, hfind, hnone, halgorithm, hsize⟩ := exists_released_mersenneKey
  have hcrowded : (PrivateRequest.sign .pss "sha512" []).Crowded k.info := by
    refine ⟨"sha512", [], .sha512, rfl, rfl, by decide, halgorithm, ?_⟩
    rw [hsize]
    decide
  have hsign := PrivateRequest.run_crowded .standard (r := s.registry) hcrowded fun _ => 0
  exact ⟨s, k, hs, hfind, hnone, halgorithm,
    (SessionM.withHandle_eq hfind).trans (bind_run_ok (SessionM.ofRegistry_eq_ok hsign)), rfl⟩

end Session

end Keyring
