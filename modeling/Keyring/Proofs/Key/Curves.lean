import Keyring.Policy
import Keyring.Proofs.Key.Inspection
import Keyring.Proofs.Key.Provenance

/-!
# The curves of keys, and what the import policy makes of them

The import policy does not see a key, but what an inspection of its encoding tells: for an EC key
how the encoding gives the curve, for a DSA key the size of the subgroup.  A key has a curve of
its own, in which one computes.  The two have to go together, or the policy looks at one curve
and the service computes in another.

## Main definitions

* `Elliptic.Group.spec` — how a key gives its curve.
* `Elliptic.Group.Known` — a curve that is given by name is the one of that name.
* `Provider.Holds` — the keys that a provider decodes, alone or inside private keys.
* `PublicKey.Admitted` — the keys that the policy is there to let in.
* `Provider.NamesCurves` — the keys of a provider are on the curves that are named.

## Main results

* `Elliptic.Group.known_of_read`, `PublicKey.known_of_read` — what is read by name is what is
  known by that name.
* `Inspection.curveOf_write` — **the curve in the encoding of a key is how the key gives it.**
* `checkParameters_eq_ok_iff` — **the policy lets in exactly the keys it is there to let in.**
-/

namespace Keyring

open Asn1

/-! ### How a key gives its curve -/

namespace Elliptic.Group

/-- How a key gives its curve: by name, or by its coefficients. -/
def spec (g : Group) : CurveSpec :=
  match g.name with
  | some o => .named (Inspection.curveName o)
  | none => .explicit

/-- A curve that is given by name is in the table under that name. -/
def Known (g : Group) : Prop := ∀ o, g.name = some o → ∃ n ∈ table, n.oid = o ∧ n.curve = g.curve

/-- What is recognised is given as it was before. -/
theorem name_recognise (g : Group) : g.recognise.name = g.name := by
  unfold recognise
  split <;> rfl

/-- A curve that is spelled out has no name. -/
theorem name_of_readExplicit {e : Element} {g : Group} (h : readExplicit e = some g) :
    g.name = none := by
  unfold readExplicit at h
  -- up to the order of the generator
  iterate 10 obtain ⟨_, -, h⟩ := Option.bind_eq_some_iff.mp h
  dsimp only at h
  split at h
  · cases h
  -- cofactor and generator
  iterate 3 obtain ⟨_, -, h⟩ := Option.bind_eq_some_iff.mp h
  split at h
  · cases h
    exact name_recognise _
  · cases h

/-- What is read by name is what is known by that name. -/
theorem known_of_read {e : Element} {g : Group} (h : read e = some g) : g.Known := by
  intro o ho
  unfold read at h
  split at h
  · -- the name is looked up
    obtain ⟨_, -, h⟩ := Option.bind_eq_some_iff.mp h
    obtain ⟨n, hn, rfl⟩ := Option.map_eq_some_iff.mp h
    exact ⟨n, List.mem_of_find?_eq_some hn, Option.some.inj ho, rfl⟩
  split at h
  · rw [name_of_readExplicit h] at ho
    cases ho
  · cases h

end Elliptic.Group

namespace PublicKey

variable {k : Elliptic.PublicKey} {content : Bytes}

theorem readDsa_ne_ec {parameters : Option Element} :
    readDsa parameters content ≠ some (.ec k) := by
  intro h
  obtain ⟨e, -, h⟩ := Option.bind_eq_some_iff.mp h
  dsimp only at h
  split at h
  · cases h
  iterate 4 obtain ⟨_, -, h⟩ := Option.bind_eq_some_iff.mp h
  cases h

theorem known_of_ofAlgorithm {a : Lenient.Algorithm} (h : ofAlgorithm a content = some (.ec k)) :
    k.group.Known := by
  unfold ofAlgorithm at h
  split at h
  · obtain ⟨_, -, h⟩ := Option.map_eq_some_iff.mp h
    cases h
  split at h
  · split at h
    · obtain ⟨_, -, h⟩ := Option.map_eq_some_iff.mp h
      cases h
    · cases h
  split at h
  · exact absurd h readDsa_ne_ec
  split at h
  · -- the one algorithm of EC keys
    obtain ⟨parameters, -, h⟩ := Option.bind_eq_some_iff.mp h
    obtain ⟨group, hgroup, h⟩ := Option.bind_eq_some_iff.mp h
    obtain ⟨key, hkey, h⟩ := Option.bind_eq_some_iff.mp h
    obtain ⟨⟨form, q⟩, -, rfl⟩ := Option.map_eq_some_iff.mp hkey
    dsimp only [Option.pure_def, ofEc] at h
    split at h <;> cases h
    exact Elliptic.Group.known_of_read hgroup
  split at h
  · split at h <;> cases h
  split at h
  · split at h <;> cases h
  split at h
  · split at h <;> cases h
  · cases h

/-- An EC key is read on the curve that it gives. -/
theorem known_of_read {b : Bytes} (h : PublicKey.read b = some (.ec k)) : k.group.Known := by
  obtain ⟨e, -, h⟩ := Option.bind_eq_some_iff.mp h
  obtain ⟨⟨a, content⟩, -, h⟩ := Option.bind_eq_some_iff.mp h
  exact known_of_ofAlgorithm h

end PublicKey

/-! ### What is inspected of a key -/

namespace Inspection

open Strict

theorem curveOfParameters_oid {o : Oid} (ho : Oid.ofContent? o.content = some o)
    (h : o.content.length < 2 ^ 32) :
    curveOfParameters (some (Write.oid o)) = .named (curveName o) := by
  have hoid : oid? (Write.oid o) = some o := by
    rw [oid?, Write.oid, singleOf_element readTag_oid h]
    exact ho
  rw [curveOfParameters, hoid]

theorem curveOfParameters_sequence {parts : List Bytes} (h : parts.flatten.length < 2 ^ 32) :
    curveOfParameters (some (Write.sequence parts)) = .explicit := by
  have hsingle := single_element readTag_sequence h
  have hoid : oid? (Write.sequence parts) = none := by
    rw [oid?, singleOf, Write.sequence, hsingle]
    rfl
  have hnull : singleOf .null (Write.sequence parts) = none := by
    rw [singleOf, Write.sequence, hsingle]
    rfl
  rw [curveOfParameters, hoid, hnull]
  rfl

/-- **The curve in the encoding of a key is how the key gives it.** -/
theorem curveOf_write {k : Elliptic.PublicKey} {b : Bytes}
    (hwrite : PublicKey.write (.ec k) = some b) (h : b.length < 2 ^ 32)
    (hname : ∀ o, k.group.name = some o → Oid.ofContent? o.content = some o) :
    curveOf b = some k.group.spec := by
  obtain ⟨parameters, hparameters, hwrite⟩ := Option.bind_eq_some_iff.mp hwrite
  obtain ⟨point, -, hwrite⟩ := Option.bind_eq_some_iff.mp hwrite
  have hb := (Option.some.inj hwrite).symm
  have halgorithm :
      Oid.ofContent? Identifier.ecPublicKey.content = some Identifier.ecPublicKey := by decide
  unfold Elliptic.Group.write at hparameters
  unfold curveOf Elliptic.Group.spec
  cases hgroup : k.group.name with
  | some o =>
    rw [hgroup] at hparameters
    cases hparameters
    obtain ⟨-, ho, hread⟩ := read_sequence hb halgorithm readTag_oid h
    rw [hread]
    exact congrArg some (curveOfParameters_oid (hname o hgroup) ho)
  | none =>
    rw [hgroup] at hparameters
    obtain ⟨base, -, hparameters⟩ := Option.bind_eq_some_iff.mp hparameters
    cases hparameters
    obtain ⟨-, hparts, hread⟩ := read_sequence hb halgorithm readTag_sequence h
    rw [hread]
    exact congrArg some (curveOfParameters_sequence hparts)

end Inspection

/-! ### What the policy lets in -/

/-- The curves on which keys are let in, with their identifiers. -/
def admittedCurves : List (Oid × Elliptic.Curve) :=
  [([1, 2, 840, 10045, 3, 1, 7], Elliptic.prime256v1), ([1, 3, 132, 0, 34], Elliptic.secp384r1),
    ([1, 3, 132, 0, 35], Elliptic.secp521r1)]

/-- The keys that the policy is there to let in: RSA keys, DSA keys in a subgroup of an order of
at most 160 bits, and EC keys on one of three curves, given by its name. -/
def PublicKey.Admitted : PublicKey → Prop
  | rsa _ => True
  | dsa k => bitLength k.domain.q ≤ 160
  | ec k => ∃ o, k.group.name = some o ∧ (o, k.group.curve) ∈ admittedCurves
  | rsaPss _ | other _ => False

/-- A known curve has the name of a supported one if and only if it is that one. -/
theorem curveName_mem_iff : ∀ n ∈ Elliptic.table,
    (Inspection.curveName n.oid ∈ supportedCurves ↔ (n.oid, n.curve) ∈ admittedCurves) := by
  decide

variable {P : Provider}

/-- A key that a provider has decoded, alone or as the public part of a private key. -/
def Provider.Holds (P : Provider) (k : PublicKey) : Prop :=
  P.DecodesPublic k ∨ ∃ key, P.DecodesPrivate key ∧ key.publicKey = k

/-- The keys of a provider are on the curves that are named: what a key gives by name is known by
that name, and what its encoding is found to give is what the key gives. -/
structure Provider.NamesCurves (P : Provider) : Prop where
  known : ∀ k, P.Holds (.ec k) → k.group.Known
  inspected : ∀ k b c, P.Holds (.ec k) → P.encodePublic (.ec k) = some b →
    Inspection.curveOf b = some c → c = k.group.spec

section Check

variable {bits : Nat}

theorem checkParameters_dsa {k : Dsa.Domain} :
    checkParameters (.dsa k.hash) bits = .ok () ↔ bitLength k.q ≤ 160 := by
  by_cases h : bitLength k.q ≤ 160 <;>
    simp [Dsa.Domain.hash, DsaHash.ofOrderBits, checkParameters, h]

theorem checkParameters_named {curve : String} :
    checkParameters (.ec (.named curve)) bits = .ok () ↔ curve ∈ supportedCurves := by
  by_cases h : curve ∈ supportedCurves <;> simp [checkParameters, h]

theorem checkParameters_explicit : checkParameters (.ec .explicit) bits ≠ .ok () := by
  simp [checkParameters]

/-- How a key gives its curve is let in if the key is. -/
theorem checkParameters_spec {k : Elliptic.PublicKey} (hk : k.group.Known) :
    checkParameters (.ec k.group.spec) bits = .ok () ↔ (PublicKey.ec k).Admitted := by
  rw [Elliptic.Group.spec, PublicKey.Admitted]
  cases hname : k.group.name with
  | none => simp [checkParameters_explicit]
  | some o =>
    obtain ⟨n, hn, rfl, hcurve⟩ := hk o hname
    rw [checkParameters_named, curveName_mem_iff n hn, hcurve]
    simp

end Check

/-- **The policy lets in exactly the keys it is there to let in.** -/
theorem checkParameters_eq_ok_iff {k : PublicKey} {i : PublicInfo} (hP : P.NamesCurves)
    (hk : P.Holds k) (hinfo : publicInfo P k = .ok i) :
    checkParameters i.parameters i.bitSize = .ok () ↔ k.Admitted := by
  obtain ⟨-, -, hencode, hparameters⟩ := publicInfo_eq_ok hinfo
  generalize i.parameters = p at hparameters
  cases k with
  | rsa k =>
    cases hparameters
    exact iff_of_true rfl trivial
  | dsa k =>
    cases hparameters
    exact checkParameters_dsa
  | ec k =>
    rw [parametersOf] at hparameters
    split at hparameters
    · next c hc =>
      cases hparameters
      rw [hP.inspected k _ c hk hencode hc]
      exact checkParameters_spec (hP.known k hk)
    · cases hparameters
  | rsaPss k => cases hparameters
  | other name => cases hparameters

end Keyring
