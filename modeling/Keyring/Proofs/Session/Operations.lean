import Keyring.Proofs.Pss.Padding
import Keyring.Proofs.Service.Persistence
import Keyring.Proofs.Session.Handle
import Keyring.Proofs.Session.Scope
import Keyring.Session.Request

/-!
# Operations leave nothing behind

An operation creates objects on its way and may fail at every call.  However it ends, what it
has created is given back, so that callers own afterwards what they owned before.

The account is kept by an invariant of parts of an operation: with what the part has created so
far put to what others own, the registry is balanced.  Calls of the service keep it, and so do
parts one after the other; the end gives all of the account back.  So nothing has to be known of
an operation but that it is put together from calls.

Padding under an excessively long modulus does not come to an end; nothing else is abandoned,
and in particular no reference is given back that is not there.

## Main definitions

* `Scope.Safe` — part of an operation keeps account of what it creates.
* `Action.Neutral` — a call leaves everybody what they own.

## Main results

* `Scope.Safe.close` — **an operation that keeps account leaves nothing behind.**
* `neutral_encryptUnder`, `neutral_decryptUnder`, `neutral_verify`, `neutral_sign` — the
  operations through handles.
-/

namespace Keyring

open Registry

variable {α β : Type} {P : Provider} {r r' r'' : Registry} {owned : Multiset Ref}

/-! ### Parts of an operation -/

namespace Scope

variable {x : Scope (EStateM Halt Registry) α} {f : α → Scope (EStateM Halt Registry) β}
  {c c' : List Ref}

/-- Part of an operation keeps account: whoever owns what besides, it ends, and what the
operation has created by then is owned by it. -/
def Safe (x : Scope (EStateM Halt Registry) α) : Prop :=
  ∀ (c : List Ref) r (owned : Multiset Ref), r.Balanced (c + owned) →
    ∃ result c' r', x.Ends c r result c' r' ∧ r.Follows r' ∧ r'.Balanced (c' + owned)

/-- What is put together from calls of the service keeps account. -/
theorem Composed.safe (hx : Composed P x) : x.Safe := by
  intro c r owned hr
  -- on how the part is put together, for any account so far
  induction hx generalizing c r with
  | pure a => exact ⟨.ok a, c, r, rfl, .refl r, hr⟩
  | @ask α s g call e hmake hgives hg =>
    obtain ⟨a, r', hrun, hfollows, hr'⟩ := Service.exists_run call e hmake hgives hr
    have howns : Reply.owns (a.map g) = 0 := by
      cases a with
      | error err => rfl
      | ok a => exact hg a
    rw [howns, Multiset.add_zero] at hr'
    exact ⟨_, c, r', ends_ask hrun, hfollows, hr'⟩
  | create call e hmake hgives =>
    obtain ⟨a, r', hrun, hfollows, hr'⟩ := Service.exists_run call e hmake hgives hr
    cases a with
    | error err =>
      refine ⟨_, c, r', (ends_ask hrun).bind_error, hfollows, ?_⟩
      simpa [Except.map, Reply.owns] using hr'
    | ok y =>
      refine ⟨.ok y, y :: c, r', ends_create hrun, hfollows, ?_⟩
      -- what was created is owned by the operation from then on
      have howned :
          ((y :: c : List Ref) : Multiset Ref) + owned = (c : Multiset Ref) + owned + {y} := by
        rw [← Multiset.cons_coe, Multiset.cons_add, Multiset.add_comm _ {y},
          Multiset.singleton_add]
      rw [howned]
      exact hr'
  | bind _ _ ihx ihf =>
    obtain ⟨result, c', r', hend, hfollows, hr'⟩ := ihx c r hr
    cases result with
    | error err => exact ⟨.error err, c', r', hend.bind_error, hfollows, hr'⟩
    | ok a =>
      obtain ⟨result, c'', r'', hend', hfollows', hr''⟩ := ihf a c' r' hr'
      exact ⟨result, c'', r'', hend.bind hend', hfollows.trans hfollows', hr''⟩

/-- **An operation that keeps account leaves nothing behind.** -/
theorem Safe.close (hx : x.Safe) (hr : r.Balanced owned) :
    ∃ result r', close (.registry P) x r = .ok result r' ∧ r.Follows r' ∧ r'.Balanced owned := by
  obtain ⟨result, c, r', hend, hfollows, hr'⟩ := hx [] r owned (by simpa using hr)
  -- all that is on the account is owned, so giving it back meets no gap
  obtain ⟨r'', hrelease, hr''⟩ := hr'.releaseAll
  exact ⟨result, r'', close_eq hend hrelease,
    hfollows.trans (follows_of_releaseAll hrelease), hr''⟩

end Scope

/-! ### Calls of the library -/

namespace Action

/-- A call leaves everybody what they own.  It comes to its end, unless a modulus is excessively
long. -/
def Neutral (long : Prop) (x : Action α) : Prop :=
  ∀ r owned, r.Balanced owned →
    (∃ result r', x.run r = .ok result r' ∧ r.Follows r' ∧ r'.Balanced owned) ∨
      long ∧ ∃ r', x.run r = .error .sizeOverflow r'

variable {long : Prop} {x : Action α} {f : α → Action β}

theorem neutral_ofExcept (check : Except CryptoError α) : (ofExcept check).Neutral long :=
  fun r _ hr => .inl ⟨check, r, rfl, .refl r, hr⟩

theorem neutral_pure (a : α) : Neutral long (pure a) :=
  fun r _ hr => .inl ⟨.ok a, r, rfl, .refl r, hr⟩

theorem neutral_throw (err : CryptoError) : Neutral long (throw err : Action α) :=
  fun r _ hr => .inl ⟨.error err, r, rfl, .refl r, hr⟩

theorem Neutral.bind (hx : x.Neutral long) (hf : ∀ a, (f a).Neutral long) :
    (x >>= f).Neutral long := by
  intro r owned hr
  -- the first step may be abandoned, fail or go on
  rcases hx r owned hr with ⟨result, r', hrun, hfollows, hr'⟩ | ⟨hlong, r', hrun⟩
  · cases result with
    | error err => exact .inl ⟨.error err, r', run_bind_error hrun, hfollows, hr'⟩
    | ok a =>
      have hstep : (x >>= f).run r = (f a).run r' := run_bind_ok hrun
      rcases hf a r' owned hr' with ⟨result, r'', hrun', hfollows', hr''⟩ | ⟨hlong, r'', hrun'⟩
      · exact .inl ⟨result, r'', hstep.trans hrun', hfollows.trans hfollows', hr''⟩
      · exact .inr ⟨hlong, r'', hstep.trans hrun'⟩
  · exact .inr ⟨hlong, r', bind_run_error hrun⟩

theorem neutral_close {call : EStateM Halt Registry (Except CryptoError α)}
    (h : ∃ body, Scope.Composed P body ∧ call = Scope.close (.registry P) body) :
    Neutral long (ExceptT.mk call) := by
  obtain ⟨body, hbody, rfl⟩ := h
  exact fun _ _ hr => .inl (hbody.safe.close hr)

/-- A call of the service that answers without a reference. -/
theorem neutral_ofService {s : Service α} {g : α → Reply} (call : Call) (e : Entropy)
    (hmake : call.make P e = s.reply g) (hgives : call.gives = 0)
    (hg : ∀ a, Reply.owns (.ok (g a)) = 0) : (ofService s).Neutral long := by
  intro r owned hr
  obtain ⟨a, r', hrun, hfollows, hr'⟩ := Service.exists_run call e hmake hgives hr
  have howns : Reply.owns (a.map g) = 0 := by
    cases a with
    | error err => rfl
    | ok a => exact hg a
  rw [howns, Multiset.add_zero] at hr'
  exact .inl ⟨_, r', run_ofService hrun, hfollows, hr'⟩

/-- Padding is abandoned for a size only. -/
theorem neutral_ofPss {padded : Except Pss.Error α} (h : padded = .error .overflow → long) :
    (ofPss padded).Neutral long := by
  cases padded with
  | ok a => exact neutral_pure a
  | error e =>
    cases e with
    -- this one is no error of the library but ends the run
    | overflow => exact fun r _ _ => .inr ⟨h rfl, r, rfl⟩
    | unsupportedDigest name => exact neutral_throw _
    | keyTooShort => exact neutral_throw _
    | invalidParameter => exact neutral_throw _

end Action

open Keyring.Action

/-! ### The operations -/

section Operations

variable (P) {long : Prop} (e : Entropy)

theorem neutral_encryptUnder (padding : RsaPadding) (k : PublicHandle) (input : Bytes) :
    (encryptUnder P padding k input e).Neutral long := by
  refine (neutral_ofExcept _).bind fun x => ?_
  cases padding with
  | pkcs1 =>
    exact neutral_ofService (P := P) (.keyEncrypt x k.info.byteSize input) e rfl rfl fun _ => rfl
  | raw => exact neutral_close (exists_composed_stagedCipher P _ _ _ _ e)
  | oaep => exact neutral_close (exists_composed_stagedCipher P _ _ _ _ e)

theorem neutral_decryptUnder (padding : RsaPadding) (k : PrivateHandle) (input : Bytes) :
    (decryptUnder P padding k input e).Neutral long := by
  refine (neutral_ofExcept _).bind fun x => ?_
  cases padding with
  | pkcs1 =>
    exact neutral_ofService (P := P) (.keyDecrypt x k.info.byteSize input) e rfl rfl fun _ => rfl
  | raw => exact neutral_close (exists_composed_stagedCipher P _ _ _ _ e)
  | oaep => exact neutral_close (exists_composed_stagedCipher P _ _ _ _ e)

theorem neutral_verifyPss (a : HashAlgorithm) (k : PublicHandle) (signature message : Bytes) :
    (verifyPss P a k signature message e).Neutral (2 ^ 35 ≤ k.info.bitSize) := by
  refine (neutral_ofExcept _).bind fun _ => ?_
  split
  · exact neutral_throw _
  split
  · refine (neutral_encryptUnder P e .raw k signature).bind fun block => neutral_ofPss fun h => ?_
    -- of the errors of padding an overflow alone abandons a call
    rcases Pss.verifyPadding_error_cases h with ⟨h, -⟩ | h | ⟨-, hlong⟩
    · cases h
    · cases h
    · exact hlong
  · exact neutral_pure _

theorem neutral_signPss (a : HashAlgorithm) (k : PrivateHandle) (message : Bytes) :
    (signPss P a k message e).Neutral (2 ^ 35 ≤ k.info.bitSize) := by
  refine (neutral_ofPss fun h => ?_).bind fun block => neutral_decryptUnder P _ .raw k block
  rcases Pss.addPadding_error_cases h with ⟨h, -⟩ | h | h | ⟨-, hlong⟩
  · cases h
  · cases h
  · cases h
  · exact hlong

/-- What verifying asks of the public key of a source. -/
theorem neutral_verify (scheme : SignatureScheme) (a : HashAlgorithm) (k : PublicHandle)
    (signature message : Bytes) :
    Neutral (2 ^ 35 ≤ k.info.bitSize) (do
      let valid ←
        match scheme with
        | .pss => verifyPss P a k signature message e
        | _ => verifyStaged P a k signature message e
      Action.ofExcept (verdict valid)) := by
  have hstaged : (verifyStaged P a k signature message e).Neutral (2 ^ 35 ≤ k.info.bitSize) :=
    (neutral_ofExcept _).bind fun x => neutral_close (exists_composed_stagedVerify P x _ _ _ _ e)
  cases scheme with
  | pss => exact (neutral_verifyPss P e a k signature message).bind fun _ => neutral_ofExcept _
  | pkcs1 => exact hstaged.bind fun _ => neutral_ofExcept _
  | dsa => exact hstaged.bind fun _ => neutral_ofExcept _
  | ecdsa => exact hstaged.bind fun _ => neutral_ofExcept _

theorem neutral_sign (scheme : SignatureScheme) (hash : String) (k : PrivateHandle)
    (message : Bytes) : (sign P scheme hash k message e).Neutral (2 ^ 35 ≤ k.info.bitSize) := by
  refine (neutral_ofExcept _).bind fun _ => (neutral_ofExcept _).bind fun a => ?_
  have hstaged : (signStaged P a k message e).Neutral (2 ^ 35 ≤ k.info.bitSize) :=
    (neutral_ofExcept _).bind fun x => neutral_close (exists_composed_stagedSign P x _ _ _ e)
  cases scheme with
  | pss => exact neutral_signPss P e a k message
  | pkcs1 => exact hstaged
  | dsa => exact hstaged
  | ecdsa => exact hstaged

/-- A request on a private key leaves everybody what they own. -/
theorem PrivateRequest.neutral_run (q : PrivateRequest) (k : PrivateHandle) :
    (q.run P k e).Neutral (2 ^ 35 ≤ k.info.bitSize) := by
  cases q with
  | decrypt padding input =>
    exact (neutral_ofExcept _).bind fun _ => neutral_decryptUnder P e padding k input
  | sign scheme hash message => exact neutral_sign P e scheme hash k message

end Operations

end Keyring
