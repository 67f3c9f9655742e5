import Keyring.Proofs.Key.Outline
import Keyring.Proofs.Provider.Narrow

/-!
# The decoders in use keep to their outlines

Each decoder of the provider in use takes the outermost sequence apart before anything else, and
does not go on unless its elements are of the kinds that it expects.  What it makes of the elements
does not matter here: each lemma follows one decoder as far as its outline goes, and stops there.

## Main results

* `kind_of_take`, `kind_of_takeAlgorithm` — who takes an element has seen of what kind it is.
* `PublicKey.begins_of_read`, `X509.begins_of_read`, `PrivateKey.begins_of_readProtected` — single
  decoders, and `PrivateKey.begins_of_read` the one for private keys with all its forms.
* `Provider.standard_keepsOutlines` — **every decoder in use takes its own outline only.**
-/

namespace Keyring

open Asn1 Asn1.Lenient

variable {b password : Bytes} {parts rest : List Element} {e : Element} {t : Tag}

/-! ### Steps of decoders -/

theorem kind_of_take (h : take t parts = some (e, rest)) :
    parts = e :: rest ∧ e.tag.kind = t.kind := by
  cases parts with
  | nil => cases h
  | cons e' rest' =>
    dsimp only [take] at h
    split at h
    · next hsame =>
      cases h
      exact ⟨rfl, Tag.kind_of_sameTag hsame⟩
    · cases h

theorem kind_of_takeAlgorithm {a : Algorithm} (h : takeAlgorithm parts = some (a, rest)) :
    ∃ e, parts = e :: rest ∧ e.tag.kind = Tag.sequence.kind := by
  obtain ⟨⟨e, rest'⟩, htake, h⟩ := Option.bind_eq_some_iff.mp h
  obtain ⟨a', -, h⟩ := Option.bind_eq_some_iff.mp h
  cases h
  exact ⟨e, kind_of_take htake⟩

/-! ### The decoders -/

theorem PublicKey.begins_of_read {k : PublicKey} (h : read b = some k) :
    Outline.publicKey.Begins b := by
  obtain ⟨e, hfirst, h⟩ := Option.bind_eq_some_iff.mp h
  obtain ⟨⟨a, content⟩, hparts, -⟩ := Option.bind_eq_some_iff.mp h
  unfold readParts at hparts
  split at hparts
  · cases hparts
  obtain ⟨parts, hpartsOf, hparts⟩ := Option.bind_eq_some_iff.mp hparts
  obtain ⟨⟨a', rest⟩, halgorithm, hkey⟩ := Option.bind_eq_some_iff.mp hparts
  obtain ⟨e', rfl, hkind⟩ := kind_of_takeAlgorithm halgorithm
  dsimp only at hkey
  split at hkey
  · split at hkey
    · next k' hbits =>
      refine ⟨_, Option.bind_eq_some_iff.mpr ⟨e, hfirst, hpartsOf⟩, ?_⟩
      simp [Outline.fits, hkind, Tag.kind_of_sameTag hbits]
    · cases hkey
  · cases hkey

theorem Rsa.PublicKey.begins_of_read {k : Rsa.PublicKey} (h : read b = some k) :
    Outline.rsaPublicKey.Begins b := by
  obtain ⟨parts, hsequence, h⟩ := Option.bind_eq_some_iff.mp h
  unfold ofParts at h
  split at h
  · next n e =>
    obtain ⟨⟨n', rest⟩, hn, h⟩ := Option.bind_eq_some_iff.mp h
    obtain ⟨⟨e', rest'⟩, he, -⟩ := Option.bind_eq_some_iff.mp h
    obtain ⟨hn', hmodulus⟩ := kind_of_take hn
    obtain ⟨he', hexponent⟩ := kind_of_take he
    cases hn'
    cases he'
    exact ⟨_, hsequence, by simp [Outline.fits, hmodulus, hexponent]⟩
  · cases h

theorem X509.begins_of_read {c : X509} (h : read b = some c) : Outline.certificate.Begins b := by
  obtain ⟨parts, hsequence, h⟩ := Option.bind_eq_some_iff.mp h
  split at h
  · next signed a signature =>
    split at h
    · cases h
    next htags =>
    simp only [Bool.or_eq_true, Bool.not_eq_eq_eq_not, Bool.not_true, not_or,
      Bool.not_eq_false] at htags
    -- algorithm and signature come before the signed part
    obtain ⟨a', -, h⟩ := Option.bind_eq_some_iff.mp h
    obtain ⟨p, -, h⟩ := Option.bind_eq_some_iff.mp h
    obtain ⟨key, hsigned, -⟩ := Option.bind_eq_some_iff.mp h
    unfold readSigned at hsigned
    split at hsigned
    · cases hsigned
    next hsequence' =>
    have hkind : signed.tag.kind = Tag.sequence.kind := by
      refine Tag.kind_of_sameTag ?_
      simpa using hsequence'
    refine ⟨_, hsequence, ?_⟩
    simp [Outline.fits, hkind, Tag.kind_of_sameTag htags.1, Tag.kind_of_sameTag htags.2]
  · cases h

theorem PrivateKey.begins_of_readWrapped {k : PrivateKey} (h : readWrapped b = some k) :
    Outline.privateKey.Begins b := by
  obtain ⟨e, hfirst, h⟩ := Option.bind_eq_some_iff.mp h
  unfold ofWrappedElement at h
  split at h
  · cases h
  obtain ⟨parts, hpartsOf, h⟩ := Option.bind_eq_some_iff.mp h
  obtain ⟨⟨v, rest⟩, hversion, h⟩ := Option.bind_eq_some_iff.mp h
  obtain ⟨n, -, h⟩ := Option.bind_eq_some_iff.mp h
  obtain ⟨⟨a, rest'⟩, halgorithm, -⟩ := Option.bind_eq_some_iff.mp h
  obtain ⟨rfl, hinteger⟩ := kind_of_take hversion
  obtain ⟨e', rfl, hsequence⟩ := kind_of_takeAlgorithm halgorithm
  refine ⟨_, Option.bind_eq_some_iff.mpr ⟨e, hfirst, hpartsOf⟩, ?_⟩
  simp [Outline.fits, Outline.privateKinds, hinteger, hsequence]

/-- Numbers in a row start with the first two. -/
theorem Rsa.kinds_of_takeNumbers {n : Nat} {numbers : List Nat}
    (h : takeNumbers (n + 2) parts = some (numbers, rest)) :
    ∃ e e' rest', parts = e :: e' :: rest' ∧ e.tag.kind = Tag.integer.kind ∧
      e'.tag.kind = Tag.integer.kind := by
  obtain ⟨⟨e, rest₁⟩, hfirst, h⟩ := Option.bind_eq_some_iff.mp h
  obtain ⟨v, -, h⟩ := Option.bind_eq_some_iff.mp h
  obtain ⟨⟨more, rest₂⟩, hmore, -⟩ := Option.bind_eq_some_iff.mp h
  obtain ⟨⟨e', rest₃⟩, hsecond, -⟩ := Option.bind_eq_some_iff.mp hmore
  obtain ⟨rfl, hkind⟩ := kind_of_take hfirst
  obtain ⟨rfl, hkind'⟩ := kind_of_take hsecond
  exact ⟨e, e', rest₃, rfl, hkind, hkind'⟩

theorem Rsa.PrivateKey.begins_of_read {k : Rsa.PrivateKey} (h : read b = some k) :
    Outline.privateKey.Begins b := by
  obtain ⟨parts, hsequence, h⟩ := Option.bind_eq_some_iff.mp h
  obtain ⟨⟨v, rest⟩, hversion, h⟩ := Option.bind_eq_some_iff.mp h
  obtain ⟨n, -, h⟩ := Option.bind_eq_some_iff.mp h
  obtain ⟨⟨numbers, rest'⟩, hnumbers, -⟩ := Option.bind_eq_some_iff.mp h
  obtain ⟨rfl, hkind⟩ := kind_of_take hversion
  obtain ⟨e, e', rest'', rfl, hkind', hkind''⟩ := Rsa.kinds_of_takeNumbers hnumbers
  refine ⟨_, hsequence, ?_⟩
  simp [Outline.fits, Outline.privateKinds, hkind, hkind', hkind'']

theorem Dsa.PrivateKey.begins_of_read {k : Dsa.PrivateKey} (h : read b = some k) :
    Outline.privateKey.Begins b := by
  obtain ⟨parts, hsequence, h⟩ := Option.bind_eq_some_iff.mp h
  unfold ofParts at h
  split at h
  · next v p q g y x =>
    split at h
    · cases h
    next htags =>
    simp only [List.any_cons, List.any_nil, Bool.or_false, Bool.or_eq_true, not_or,
      Bool.not_eq_eq_eq_not, Bool.not_true, Bool.not_eq_false] at htags
    obtain ⟨hv, hp, hq, -⟩ := htags
    refine ⟨_, hsequence, ?_⟩
    simp [Outline.fits, Outline.privateKinds, Tag.kind_of_sameTag hv, Tag.kind_of_sameTag hp,
      Tag.kind_of_sameTag hq]
  · cases h

theorem Elliptic.PrivateKey.begins_of_read {outer : Option Group} {k : Elliptic.PrivateKey}
    (h : read outer b = some k) : Outline.privateKey.Begins b := by
  obtain ⟨parts, hsequence, h⟩ := Option.bind_eq_some_iff.mp h
  obtain ⟨⟨v, rest⟩, hversion, h⟩ := Option.bind_eq_some_iff.mp h
  obtain ⟨n, -, h⟩ := Option.bind_eq_some_iff.mp h
  obtain ⟨⟨scalar, rest'⟩, hscalar, -⟩ := Option.bind_eq_some_iff.mp h
  obtain ⟨rfl, hkind⟩ := kind_of_take hversion
  obtain ⟨rfl, hkind'⟩ := kind_of_take hscalar
  refine ⟨_, hsequence, ?_⟩
  simp [Outline.fits, Outline.privateKinds, hkind, hkind']

theorem PrivateKey.begins_of_read {k : PrivateKey} (h : read b = some k) :
    Outline.privateKey.Begins b := by
  rcases (Option.orElse_eq_some _ _ _).mp h with h | ⟨-, h⟩
  · exact begins_of_readWrapped h
  rcases (Option.orElse_eq_some _ _ _).mp h with h | ⟨-, h⟩
  · obtain ⟨key, hkey, -⟩ := Option.map_eq_some_iff.mp h
    exact Rsa.PrivateKey.begins_of_read hkey
  rcases (Option.orElse_eq_some _ _ _).mp h with h | ⟨-, h⟩
  · obtain ⟨key, hkey, -⟩ := Option.map_eq_some_iff.mp h
    exact Dsa.PrivateKey.begins_of_read hkey
  · obtain ⟨key, hkey, -⟩ := Option.map_eq_some_iff.mp h
    exact Elliptic.PrivateKey.begins_of_read hkey

theorem PrivateKey.begins_of_readProtected {k : PrivateKey}
    (h : readProtected password b = some k) : Outline.protectedKey.Begins b := by
  obtain ⟨⟨a, content⟩, hparts, -⟩ := Option.bind_eq_some_iff.mp h
  obtain ⟨parts, hsequence, hparts⟩ := Option.bind_eq_some_iff.mp hparts
  obtain ⟨⟨a', rest⟩, halgorithm, hrest⟩ := Option.bind_eq_some_iff.mp hparts
  obtain ⟨e, rfl, hkind⟩ := kind_of_takeAlgorithm halgorithm
  dsimp only at hrest
  split at hrest
  · split at hrest
    · next text htext =>
      refine ⟨_, hsequence, ?_⟩
      simp [Outline.fits, hkind, Tag.kind_of_sameTag htext]
    · cases hrest
  · cases hrest

/-- **Every decoder in use takes its own outline only.** -/
theorem Provider.standard_keepsOutlines : Provider.standard.KeepsOutlines where
  publicKey := fun _ _ h => PublicKey.begins_of_read h
  rsaPublicKey := by
    intro b k h
    obtain ⟨key, hkey, -⟩ := Option.map_eq_some_iff.mp h
    exact Rsa.PublicKey.begins_of_read hkey
  certificate := fun _ _ h => X509.begins_of_read h
  privateKey := fun _ _ h => PrivateKey.begins_of_read h
  protectedKey := fun _ _ _ h => PrivateKey.begins_of_readProtected h

end Keyring
