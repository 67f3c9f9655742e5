import Keyring.Proofs.Key.Failures
import Keyring.Proofs.Key.Idempotence

/-!
# Passwords

A password comes from the caller as any bytes.  What is not encrypted is parsed the same under
every password, and a wrong password is an error like others, but a password with a zero byte
cannot be handed to the decoder and makes a parser halt, even if no password is needed.  Only
parsers of containers look at the password itself: first whether it is a text.

What is not encrypted is said by the input alone: `findPlain` reads it without a password, and
stops where something encrypted would have to be opened.  In a text this takes care.  The search
goes through the blocks and ends at the first that it cannot open, and then the first block that
is labelled as a private key is tried once more; so a key counts as not encrypted if it comes
before anything encrypted, or in the first labelled block.

## Main definitions

* `PrivateKey.ofPlainText` — the key in a text, of which nothing encrypted is read.
* `findPlain` — the private key in a byte string that is not encrypted.
* `Provider.PassesPlain` — a decoder of texts does not need a password where nothing is encrypted.

## Main results

* `PrivateKey.ofText_of_ofPlainText` — **a key that is not encrypted is found in a text under any
  password.**
* `password_matters` — **what a password can change.**
-/

namespace Keyring

open Pem

variable {P : Provider} {b : Bytes} {password : Option Bytes} {k : PrivateKey} {halt : Halt}

/-! ### Keys in texts that are not encrypted -/

namespace PrivateKey

/-- Whether a block is encrypted: its header says so, or the structure of a wrapped key does. -/
def isProtected (b : Block) : Bool :=
  !b.header.isEmpty || (b.label = label || b.label = protectedLabel) &&
    (protectedParts b.content).isSome

/-- What a block holds, by its label.  An encrypted one ends the search. -/
def ofPlainBlock (b : Block) : Reading PrivateKey := if isProtected b then .ended else ofBlock [] b

/-- The key in a text, of which nothing encrypted is read. -/
def ofPlainText (text : Bytes) : Option PrivateKey :=
  let bs := blocksOf text
  Reading.search ofPlainBlock bs <|>
    (firstLabelled isLabel bs).bind fun b => if isProtected b then none else ofLabelled [] b

variable {p : Bytes} {block : Block} {bs : List (Option Block)}

/-- Without encryption a password is not looked at. -/
theorem decryptBlock_of_plain (h : isProtected block = false) :
    Protection.decryptBlock block.header p block.content = some block.content := by
  have hheader : block.header.isEmpty = true := by
    rw [isProtected, Bool.or_eq_false_iff] at h
    simpa using h.1
  rw [Protection.decryptBlock, if_pos hheader]

theorem protectedParts_of_plain (h : isProtected block = false)
    (hlabel : block.label = label ∨ block.label = protectedLabel) :
    protectedParts block.content = none := by
  rw [isProtected, Bool.or_eq_false_iff] at h
  simpa [hlabel] using h.2

theorem ofBlock_of_plain (h : isProtected block = false) : ofBlock p block = ofBlock [] block := by
  rw [ofBlock, ofBlock, decryptBlock_of_plain h, decryptBlock_of_plain h]
  dsimp only
  split
  -- of the labels only these two may hold a wrapped key that is encrypted
  next hlabel =>
    rw [readEither, readEither, protectedParts_of_plain h (by simpa using hlabel)]
  · rfl

/-- The first key that is found before anything encrypted is found under any password. -/
theorem search_of_plain (h : Reading.search ofPlainBlock bs = some k) :
    Reading.search (ofBlock p) bs = some k := by
  induction bs with
  | nil => cases h
  | cons block rest ih =>
    cases block with
    | none => exact ih h
    | some block =>
      rw [Reading.search, ofPlainBlock] at h
      -- an encrypted block would have ended the search without a key
      by_cases hprotected : isProtected block = true
      · rw [if_pos hprotected] at h
        cases h
      · rw [if_neg hprotected] at h
        rw [Reading.search, ofBlock_of_plain (by simpa using hprotected)]
        split at h
        · exact h
        · exact ih h
        · cases h

/-- A block that is not labelled as a private key is passed over, unless it cannot be
decrypted. -/
theorem ofBlock_of_not_label (h : isLabel block.label = false) :
    ofBlock p block = .ended ∨ ofBlock p block = .passed := by
  simp only [isLabel, Bool.or_eq_false_iff, beq_eq_false_iff_ne, Option.isSome_eq_false_iff,
    Option.isNone_iff_eq_none] at h
  obtain ⟨⟨⟨hlabel, hprotected⟩, -⟩, hlookup⟩ := h
  unfold ofBlock
  split
  · exact .inl rfl
  · simp [hlabel, hprotected, hlookup]

theorem ofLabelled_of_plain (h : isProtected block = false) :
    ofLabelled p block = ofLabelled [] block := by
  simp only [ofLabelled, decryptBlock_of_plain h, Option.bind_eq_bind, Option.bind_some]
  split
  · rfl
  · split
    next hprotected =>
      simp only [readProtected, protectedParts_of_plain h (.inr hprotected), Option.bind_eq_bind,
        Option.bind_none]
    · rfl

/-- A key that a block is said to hold is found in it. -/
theorem ofBlock_of_labelled (h : isProtected block = false)
    (hk : ofLabelled [] block = some k) : ofBlock p block = .found k := by
  simp only [ofLabelled, decryptBlock_of_plain h, Option.bind_eq_bind, Option.bind_some] at hk
  rw [ofBlock, decryptBlock_of_plain h]
  dsimp only
  split at hk
  -- a wrapped key; then one that is said to be encrypted; then one by its algorithm
  next hlabel =>
    rw [if_pos (by simp [hlabel]), readEither, protectedParts_of_plain h (.inl hlabel), hk]
    rfl
  next hlabel =>
    split at hk
    next hprotected =>
      rw [readProtected, protectedParts_of_plain h (.inr hprotected)] at hk
      cases hk
    next hprotected =>
      obtain ⟨a, ha, hk⟩ := Option.bind_eq_some_iff.mp hk
      rw [if_neg (by simp [hlabel, hprotected]), ha]
      dsimp only
      rw [hk]
      rfl

/-- The key in the first block that is labelled as one is found, if it is not encrypted: by the
search, or after the search has ended in front of it. -/
theorem search_of_labelled {bs : List (Option Block)}
    (hfirst : firstLabelled isLabel bs = some block) (h : isProtected block = false)
    (hk : ofLabelled [] block = some k) :
    Reading.search (ofBlock p) bs = none ∨ Reading.search (ofBlock p) bs = some k := by
  induction bs with
  | nil => exact .inl rfl
  | cons first rest ih =>
    cases first with
    | none => cases hfirst
    | some first =>
      rw [firstLabelled] at hfirst
      rw [Reading.search]
      split at hfirst
      · cases hfirst
        rw [ofBlock_of_labelled h hk]
        exact .inr rfl
      next hlabel =>
        -- blocks in front are passed over, or one of them ends the search
        rcases ofBlock_of_not_label (p := p) (Bool.eq_false_iff.mpr hlabel) with hended | hpassed
        · rw [hended]
          exact .inl rfl
        · rw [hpassed]
          exact ih hfirst

/-- **A key that is not encrypted is found in a text under any password.** -/
theorem ofText_of_ofPlainText {text : Bytes} (h : ofPlainText text = some k) (p : Bytes) :
    ofText p text = some k := by
  rcases (Option.orElse_eq_some _ _ _).mp h with hsearch | ⟨-, hfirst⟩
  · rw [ofText, search_of_plain hsearch]
    rfl
  · obtain ⟨block, hblock, hk⟩ := Option.bind_eq_some_iff.mp hfirst
    split at hk
    · cases hk
    next hplain =>
      have hprotected := Bool.eq_false_iff.mpr hplain
      -- if the search has ended in front of the block, it is tried once more
      rcases search_of_labelled (p := p) hblock hprotected hk with hnone | hsome
      · rw [ofText, hnone, hblock]
        exact (ofLabelled_of_plain hprotected).trans hk
      · rw [ofText, hsome]
        rfl

end PrivateKey

/-! ### Keys that are not encrypted -/

variable (P) in
/-- The private key in a byte string that is not encrypted. -/
def findPlain (input : Bytes) : Option PrivateKey :=
  if isText input then PrivateKey.ofPlainText input else P.privateKey input

/-- A decoder of texts looks at the password only for what is encrypted. -/
def Provider.PassesPlain (P : Provider) : Prop :=
  ∀ text k, PrivateKey.ofPlainText text = some k → ∀ p, P.privateKeyOfText p text = some k

/-- **The decoder of texts in use looks at the password only for what is encrypted.** -/
theorem Provider.standard_passesPlain : Provider.standard.PassesPlain :=
  fun _ _ h _ => PrivateKey.ofText_of_ofPlainText h _

/-- A private key that is not encrypted is found under any password. -/
theorem findPrivate_of_findPlain (hP : P.KeepsOutlines) (hplain : P.PassesPlain)
    (h : findPlain P b = some k) (p : Bytes) : findPrivate P b p = some k := by
  unfold findPlain at h
  split at h
  next htext =>
    rw [findPrivate, if_pos htext]
    exact hplain b k h p
  · exact findPrivate_of_privateKey hP h p

/-! ### What a password can change -/

/-- **What a password can change.**  A container is refused for the password exactly if that is no
text, whatever the container.  Else, and for private keys at once, parsing comes to its end, with
a result or an error, exactly if the password has no zero byte, or if there is no container to open
with it.  What is found in a byte string with a private key that is not encrypted is the same under
all passwords with which parsing comes to its end, and without one. -/
theorem password_matters (hP : P.KeepsOutlines) (hplain : P.PassesPlain) (b : Bytes)
    (password : Option Bytes) :
    (parseContainer P b password = .error (.error .invalidPassword) ↔
      isUtf8 (password.getD []) = false) ∧
    (∀ halt, parseContainer P b password = .error (.halt halt) ↔
      halt = .passwordWithZero ∧ isUtf8 (password.getD []) = true ∧
        (P.container b).isSome = true ∧ 0 ∈ password.getD []) ∧
    (∀ halt, parsePrivate P b password = .error (.halt halt) ↔
      halt = .passwordWithZero ∧ 0 ∈ password.getD []) ∧
    (0 ∉ password.getD [] → ∀ k, findPlain P b = some k →
      parsePrivate P b password = parsePrivate P b none) := by
  refine ⟨⟨fun h => ?_, fun h => ?_⟩, fun halt => parseContainer_eq_halt_iff,
    fun halt => parsePrivate_eq_halt_iff, fun hzero k hk => ?_⟩
  · -- this error is about the password, and no other error is
    rcases parseContainer_eq_error h with ⟨hutf8, -⟩ | ⟨-, hinput⟩
    · exact hutf8
    · cases hinput
  · rw [parseContainer, h]
    rfl
  · have hfind := findPrivate_of_findPlain hP hplain hk
    rw [parsePrivate_of_find hzero (hfind _), parsePrivate_none (hfind _)]

/-- A private key that is not encrypted is parsed without its password being asked for, and a
password that is no text is refused. -/
theorem password_matters_mersenne :
    parsePrivate .standard Rsa.mersenneKey.write (some [115, 101, 99, 114, 101, 116]) =
      parsePrivate .standard Rsa.mersenneKey.write none ∧
    parseContainer .standard [] (some [0xff]) = .error (.error .invalidPassword) := by
  have hmatters := password_matters Provider.standard_keepsOutlines Provider.standard_passesPlain
  have hkey := Provider.standard_privateKey_mersenneKey.1
  refine ⟨(hmatters Rsa.mersenneKey.write (some _)).2.2.2 (by decide) (.rsa Rsa.mersenneKey) ?_,
    (hmatters [] (some [0xff])).1.mpr (by decide)⟩
  rw [findPlain, Outline.isText_of_begins (Provider.standard_keepsOutlines.privateKey _ _ hkey)]
  exact hkey

/-- A password with a zero byte makes the parser halt, though the key is not encrypted and is
parsed without a password. -/
theorem zero_byte_halts :
    parsePrivate .standard Rsa.mersenneKey.write (some [0]) = .error (.halt .passwordWithZero) ∧
    ∃ i, parsePrivate .standard Rsa.mersenneKey.write none = .ok i := by
  have hfind := findPrivate_of_privateKey Provider.standard_keepsOutlines
    Provider.standard_privateKey_mersenneKey.1
  refine ⟨parsePrivate_eq_halt_iff.mpr ⟨rfl, by decide⟩, ?_⟩
  rw [parsePrivate_none (hfind _), privateInfo_of_publicInfo (j := mersenneInfo) rfl rfl rfl]
  exact ⟨_, rfl⟩

end Keyring
