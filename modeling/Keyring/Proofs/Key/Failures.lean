import Keyring.Key.Parse
import Keyring.Proofs.Outcome

/-!
# How parsing fails

When a parser fails, it is for what it was handed: the input cannot be decoded, or holds a key of
an algorithm that is not imported.  Parsers of containers may fail for the password as well, and
then before the container is looked at.

The errors of this kind are told apart from all others once, in `CryptoError.isOfInput`, and the
lemmas follow the parsers from the inside out: what can fail in telling of a key, of a certificate
and of a container that was decoded, and then the parsers around it.  A parser may also be
abandoned, which is no error; what abandons one is said exactly, since it is for the caller to see
that it does not happen.

## Main definitions

* `CryptoError.isOfInput` — errors that are about the input of a parser.

## Main results

* `isOfInput_of_parsePublic`, `isOfInput_of_parseCertificate`, `isOfInput_of_parsePrivate` —
  **parsers fail for their input.**
* `parseContainer_eq_error` — a parser of containers fails for its input or for the password.
* `parsePrivate_eq_halt_iff`, `parseContainer_eq_halt_iff` — **when parsers are abandoned.**
-/

namespace Keyring

variable {α : Type} {P : Provider} {b : Bytes} {password : Option Bytes} {err : CryptoError}
  {halt : Halt}

/-- Whether an error is about a key, a certificate or a container that was handed in. -/
def CryptoError.isOfInput : CryptoError → Bool
  | unsupportedAlgorithm _ | malformedCertificate | malformedPrivateKey | malformedPublicKey
  | malformedContainer => true
  | _ => false

/-! ### What was decoded -/

theorem isOfInput_of_parametersOf {key : PublicKey} (h : parametersOf key b = .error err) :
    err.isOfInput = true := by
  cases key with
  | rsa k | dsa k => cases h
  -- the curve may not be found in the encoding
  | ec k =>
    simp only [parametersOf] at h
    split at h <;> cases h
    rfl
  | rsaPss k | other name =>
    cases h
    rfl

theorem isOfInput_of_publicInfo {key : PublicKey} (h : publicInfo P key = .error err) :
    err.isOfInput = true := by
  unfold publicInfo at h
  split at h
  · cases h
    rfl
  split at h
  · cases h
    rfl
  · rcases bind_eq_error_iff.mp h with hparameters | ⟨p, -, h⟩
    · exact isOfInput_of_parametersOf hparameters
    · cases h

theorem isOfInput_of_privateInfo {key : PrivateKey} (h : privateInfo P key = .error err) :
    err.isOfInput = true := by
  rcases bind_eq_error_iff.mp h with hinfo | ⟨i, -, h⟩
  · exact isOfInput_of_publicInfo hinfo
  · split at h <;> cases h
    rfl

theorem isOfInput_of_certificateInfo {cert : X509} (h : certificateInfo P cert = .error err) :
    err.isOfInput = true := by
  unfold certificateInfo at h
  split at h
  · cases h
    rfl
  · rcases bind_eq_error_iff.mp h with hinfo | ⟨i, -, h⟩
    · exact isOfInput_of_publicInfo hinfo
    · cases h

theorem isOfInput_of_containerInfo {c : Contents} (h : containerInfo P c = .error err) :
    err.isOfInput = true := by
  -- the first component that fails ends it: key, certificate, others
  rcases bind_eq_error_iff.mp h with hkey | ⟨key, -, h⟩
  · obtain ⟨k, -, hk⟩ := exists_of_mapM_error hkey
    exact isOfInput_of_privateInfo hk
  rcases bind_eq_error_iff.mp h with hcertificate | ⟨certificate, -, h⟩
  · obtain ⟨cert, -, hcert⟩ := exists_of_mapM_error hcertificate
    exact isOfInput_of_certificateInfo hcert
  rcases bind_eq_error_iff.mp h with hothers | ⟨others, -, h⟩
  · obtain ⟨cert, -, hcert⟩ := exists_mem_of_mapM_error hothers
    exact isOfInput_of_certificateInfo hcert
  · cases h

/-! ### Parsers -/

theorem isOfInput_of_parsePublic (h : parsePublic P b = .error err) : err.isOfInput = true := by
  unfold parsePublic at h
  split at h
  · cases h
    rfl
  · exact isOfInput_of_publicInfo h

theorem isOfInput_of_parseCertificate (h : parseCertificate P b = .error err) :
    err.isOfInput = true := by
  unfold parseCertificate at h
  split at h
  · cases h
    rfl
  · exact isOfInput_of_certificateInfo h

theorem failing_eq_error {x : Except CryptoError α} (h : failing x = .error (.error err)) :
    x = .error err := by
  cases x <;> cases h
  rfl

/-- An error does not abandon a call. -/
theorem failing_ne_halt {x : Except CryptoError α} : failing x ≠ .error (.halt halt) := by
  cases x <;> nofun

theorem isOfInput_of_parsePrivate (h : parsePrivate P b password = .error (.error err)) :
    err.isOfInput = true := by
  dsimp only [parsePrivate] at h
  split at h
  · cases h
  split at h
  · cases h
    rfl
  · exact isOfInput_of_privateInfo (failing_eq_error h)

/-- A parser of private keys is abandoned exactly for a password with a zero byte, whatever the
input. -/
theorem parsePrivate_eq_halt_iff : parsePrivate P b password = .error (.halt halt) ↔
    halt = .passwordWithZero ∧ 0 ∈ password.getD [] := by
  dsimp only [parsePrivate]
  by_cases hzero : 0 ∈ password.getD []
  · rw [if_pos hzero, Except.error.injEq, Failure.halt.injEq, eq_comm]
    exact (and_iff_left hzero).symm
  · rw [if_neg hzero]
    -- without a zero byte there are results and errors only
    refine iff_of_false (fun h => ?_) fun h => hzero h.2
    split at h
    · cases h
    · exact failing_ne_halt h

/-- A parser of containers is abandoned exactly for a password with a zero byte that is a text,
and only if there is a container to open. -/
theorem parseContainer_eq_halt_iff : parseContainer P b password = .error (.halt halt) ↔
    halt = .passwordWithZero ∧ isUtf8 (password.getD []) = true ∧ (P.container b).isSome = true ∧
      0 ∈ password.getD [] := by
  dsimp only [parseContainer]
  -- the checks come in order: a text, a container, a zero byte
  cases hutf8 : isUtf8 (password.getD []) with
  | false => simp
  | true =>
    cases hcontainer : P.container b with
    | none => simp
    | some openWith =>
      by_cases hzero : 0 ∈ password.getD []
      · simp [hzero, eq_comm]
      · simp only [Bool.not_true, Bool.false_eq_true, if_false, if_neg hzero]
        refine iff_of_false (fun h => ?_) fun h => hzero h.2.2.2
        split at h
        · cases h
        · exact failing_ne_halt h

/-- A container is not looked at if its password is no text. -/
theorem parseContainer_eq_error (h : parseContainer P b password = .error (.error err)) :
    isUtf8 (password.getD []) = false ∧ err = .invalidPassword ∨
      isUtf8 (password.getD []) = true ∧ err.isOfInput = true := by
  dsimp only [parseContainer] at h
  split at h
  next hutf8 =>
    cases h
    exact .inl ⟨by simpa using hutf8, rfl⟩
  -- past the password, an error is one of the input
  next hutf8 =>
    refine .inr ⟨by simpa using hutf8, ?_⟩
    split at h
    · cases h
      rfl
    split at h
    · cases h
    split at h
    · cases h
      rfl
    · exact isOfInput_of_containerInfo (failing_eq_error h)

end Keyring
