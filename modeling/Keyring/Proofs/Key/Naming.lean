import Keyring.Proofs.Asn1.Canonical
import Keyring.Proofs.Key.Curves

/-!
# The curves that encodings name

The curve of an EC key is taken from its encoding alone.  An encoding is inspected exactly if it
is one under the distinguished rules with nothing behind it, and what is found is decided by the
parameters of its algorithm: an object identifier names the curve, nothing or NULL leaves it to be
inherited, any other element spells it out.  Names are told apart, so that no other identifier
passes for that of a supported curve.

## Main definitions

* `Inspection.PublicKeyInfo.Encodes` — a byte string is the encoding of a public key with its
  algorithm.
* `Inspection.supportedIdentifiers` — the identifiers of the supported curves.

## Main results

* `Inspection.read_eq_some_iff` — **the structure is read exactly from its encodings.**
* `Inspection.curveName_injective` — **different identifiers have different names.**
* `Inspection.parametersOf_named_iff`, `Inspection.parametersOf_inherited_iff`,
  `Inspection.parametersOf_explicit_iff` — what is found, by the parameters.
* `Inspection.curves_admitted_exactly` — **the policy admits three identifiers.**
-/

namespace Keyring

open Asn1 Bytes

/-! ### Lengths -/

theorem byteLength_le_four_iff {n : Nat} : byteLength n ≤ 4 ↔ n < 2 ^ 32 := by
  rw [← bitLength_le_iff]
  unfold byteLength bytesFor
  omega

/-- How long an element is whose content can be read. -/
theorem Asn1.length_element_lt_iff {identifier : UInt8} {content : Bytes} :
    (Write.element identifier content).length < 2 ^ 32 + 6 ↔ content.length < 2 ^ 32 := by
  have hlong := byteLength_le_four_iff (n := content.length)
  rw [Write.element, Write.length]
  split
  · simp only [List.cons_append, List.nil_append, List.length_cons]
    omega
  · simp only [List.cons_append, List.length_cons, List.length_append, length_minimal]
    omega

namespace Inspection

open Asn1.Strict Identifier

/-! ### The structure -/

/-- A byte string is one element, within the limits of the reader. -/
def IsElement (b : Bytes) : Prop := ∃ e : Element, e.IsCanonical ∧ b = e.whole

/-- A byte string is the encoding of a public key with its algorithm under the distinguished
rules, within the limits of the reader.  Of the last byte of the key, up to seven bits may be left
out, which are zero. -/
structure PublicKeyInfo.Encodes (i : PublicKeyInfo) (b : Bytes) : Prop where
  algorithm : i.algorithm.Readable
  parameters : ∀ p, i.parameters = some p → IsElement p
  written : ∃ unused : UInt8, unused.toNat < 8 ∧ 2 ^ unused.toNat ∣ value i.key ∧
    (i.key = [] → unused = 0) ∧
    b = Write.sequence [Write.sequence [Write.oid i.algorithm, i.parameters.getD []],
      Write.element 0x03 (unused :: i.key)]
  length_lt : b.length < 2 ^ 32 + 6

theorem isElement_ne_nil {b : Bytes} (h : IsElement b) : b ≠ [] := by
  obtain ⟨e, he, rfl⟩ := h
  have hne : e.tag.write ≠ [] := by
    unfold Tag.write
    split <;> simp
  rw [he.whole_eq, Write.tagged]
  simp [hne]

theorem readParameters_eq_some_iff {b : Bytes} {p : Option Bytes} :
    readParameters b = some p ↔ b = p.getD [] ∧ ∀ q, p = some q → IsElement q := by
  unfold readParameters
  cases p with
  | none =>
    cases b with
    | nil => simp
    | cons x b => simp
  | some q =>
    constructor
    · intro h
      split at h
      · cases h
      · obtain ⟨e, he, heq⟩ := Option.map_eq_some_iff.mp h
        cases heq
        obtain ⟨hcanonical, rfl⟩ := single_eq_some_iff.mp he
        refine ⟨rfl, ?_⟩
        rintro _ ⟨⟩
        exact ⟨e, hcanonical, rfl⟩
    · rintro ⟨hb, hq⟩
      have hne := isElement_ne_nil (hq q rfl)
      obtain ⟨e, he, rfl⟩ := hq q rfl
      rw [show b = e.whole from hb]
      rw [if_neg (by simpa using hne)]
      exact Option.map_eq_some_iff.mpr ⟨e, single_eq_some_iff.mpr ⟨he, rfl⟩, rfl⟩

/-- **The structure is read exactly from its encodings.** -/
theorem read_eq_some_iff {i : PublicKeyInfo} {b : Bytes} :
    PublicKeyInfo.read b = some i ↔ i.Encodes b := by
  -- the three tags have numbers within the limit
  have hsequence : Tag.sequence.number < 2 ^ 32 := by decide
  have hoid : Tag.oid.number < 2 ^ 32 := by decide
  have hbits : Tag.bitString.number < 2 ^ 32 := by decide
  have htagged : ∀ c, Write.tagged .sequence c = Write.element 0x30 c :=
    fun c => (Write.element_eq_tagged rfl c).symm
  have htagged' : ∀ c, Write.tagged .oid c = Write.element 0x06 c :=
    fun c => (Write.element_eq_tagged rfl c).symm
  have htagged'' : ∀ c, Write.tagged .bitString c = Write.element 0x03 c :=
    fun c => (Write.element_eq_tagged rfl c).symm
  constructor
  · intro h
    obtain ⟨content, hcontent, h⟩ := Option.bind_eq_some_iff.mp h
    obtain ⟨⟨algorithm, rest⟩, halgorithm, h⟩ := Option.bind_eq_some_iff.mp h
    obtain ⟨⟨oid, parameters⟩, hoidread, h⟩ := Option.bind_eq_some_iff.mp h
    obtain ⟨o, ho, h⟩ := Option.bind_eq_some_iff.mp h
    obtain ⟨p, hp, h⟩ := Option.bind_eq_some_iff.mp h
    obtain ⟨key, hkey, h⟩ := Option.bind_eq_some_iff.mp h
    obtain ⟨bits, hbitsread, h⟩ := Option.bind_eq_some_iff.mp h
    cases h
    obtain ⟨hlength, rfl⟩ := (singleOf_eq_some_iff hsequence).mp hcontent
    obtain ⟨-, rfl⟩ := (next_eq_some_iff hsequence).mp halgorithm
    obtain ⟨-, rfl⟩ := (next_eq_some_iff hoid).mp hoidread
    obtain ⟨hreadable, rfl⟩ := Oid.ofContent?_eq_some_iff.mp ho
    obtain ⟨rfl, hparameters⟩ := readParameters_eq_some_iff.mp hp
    obtain ⟨-, rfl⟩ := (singleOf_eq_some_iff hbits).mp hkey
    obtain ⟨unused, rfl, hunused, hdvd, hnil⟩ := bitString?_eq_some_iff.mp hbitsread
    rw [htagged]
    refine ⟨hreadable, hparameters, ⟨unused, hunused, hdvd, hnil, ?_⟩,
      length_element_lt_iff.mpr hlength⟩
    simp [Write.sequence, Write.oid, htagged, htagged', htagged'']
  · rintro ⟨hreadable, hparameters, ⟨unused, hunused, hdvd, hnil, rfl⟩, hlength⟩
    obtain ⟨o, p, key⟩ := i
    dsimp only at hreadable hparameters hdvd hnil hlength ⊢
    have hsplit : Write.sequence [Write.sequence [Write.oid o, p.getD []],
        Write.element 0x03 (unused :: key)] =
        Write.element 0x30 (Write.element 0x30 (Write.element 0x06 o.content ++ p.getD []) ++
          Write.element 0x03 (unused :: key)) := by
      simp [Write.sequence, Write.oid]
    rw [hsplit] at hlength ⊢
    -- each content is shorter than the element around it
    have hcontent := length_element_lt_iff.mp hlength
    have halgorithm := length_lt_element 0x30 (Write.element 0x06 o.content ++ p.getD [])
    have hoidlength := length_lt_element 0x06 o.content
    have hkey := length_lt_element 0x03 (unused :: key)
    rw [List.length_append] at hcontent halgorithm
    have hread₁ : singleOf .sequence (Write.element 0x30 (Write.element 0x30
        (Write.element 0x06 o.content ++ p.getD []) ++ Write.element 0x03 (unused :: key))) =
        some (Write.element 0x30 (Write.element 0x06 o.content ++ p.getD []) ++
          Write.element 0x03 (unused :: key)) :=
      (singleOf_eq_some_iff hsequence).mpr
        ⟨by rw [List.length_append]; exact hcontent, (htagged _).symm⟩
    have hread₂ : next .sequence (Write.element 0x30
        (Write.element 0x06 o.content ++ p.getD []) ++ Write.element 0x03 (unused :: key)) =
        some (Write.element 0x06 o.content ++ p.getD [], Write.element 0x03 (unused :: key)) :=
      (next_eq_some_iff hsequence).mpr
        ⟨by rw [List.length_append]; omega, by rw [htagged]⟩
    have hread₃ : next .oid (Write.element 0x06 o.content ++ p.getD []) =
        some (o.content, p.getD []) :=
      (next_eq_some_iff hoid).mpr ⟨by omega, by rw [htagged']⟩
    have hread₄ : singleOf .bitString (Write.element 0x03 (unused :: key)) =
        some (unused :: key) :=
      (singleOf_eq_some_iff hbits).mpr ⟨by omega, (htagged'' _).symm⟩
    simp only [PublicKeyInfo.read, Option.bind_eq_bind, Option.bind_some, hread₁, hread₂, hread₃,
      hread₄, Oid.ofContent?_eq_some_iff.mpr ⟨hreadable, rfl⟩,
      readParameters_eq_some_iff.mpr ⟨rfl, hparameters⟩,
      bitString?_eq_some_iff.mpr ⟨unused, rfl, hunused, hdvd, hnil⟩, Option.pure_def]

/-! ### Names -/

/-- The identifiers of the supported curves. -/
def supportedIdentifiers : List Oid :=
  [[1, 2, 840, 10045, 3, 1, 7], [1, 3, 132, 0, 34], [1, 3, 132, 0, 35]]

/-- A name stands in the table, or is the dotted form. -/
theorem curveName_cases (o : Oid) : (o, curveName o) ∈ curveNames ∨ curveName o = o.text := by
  unfold curveName
  cases hlookup : curveNames.lookup o with
  | none => exact .inr rfl
  | some name =>
    obtain ⟨before, after, heq, -⟩ := List.lookup_eq_some_iff.mp hlookup
    refine .inl ?_
    rw [heq]
    simp

/-- No dotted form is a name of the table. -/
theorem ne_text_of_mem {p : Oid × String} (hp : p ∈ curveNames) (o : Oid) : p.2 ≠ o.text := by
  intro h
  have hletter : ∀ p ∈ curveNames, 's' ∈ p.2.toList := by decide
  have hs := hletter p hp
  rw [h] at hs
  rcases Oid.mem_text hs with h | h
  · exact absurd h (by decide)
  · exact absurd h (by decide)

/-- **Different identifiers have different names.** -/
theorem curveName_injective : Function.Injective curveName := by
  intro o o' h
  have htable : ∀ p ∈ curveNames, ∀ p' ∈ curveNames, p.2 = p'.2 → p.1 = p'.1 := by decide
  rcases curveName_cases o with ho | ho <;> rcases curveName_cases o' with ho' | ho'
  · exact htable _ ho _ ho' h
  · exact absurd (h.trans ho') (ne_text_of_mem ho o')
  · exact absurd (h.symm.trans ho) (ne_text_of_mem ho' o)
  · exact Oid.text_injective (ho.symm.trans (h.trans ho'))

theorem curveName_mem_supportedCurves_iff {o : Oid} :
    curveName o ∈ supportedCurves ↔ o ∈ supportedIdentifiers := by
  have hnames : supportedCurves = supportedIdentifiers.map curveName := by decide
  rw [hnames]
  exact List.mem_map_of_injective curveName_injective

/-! ### What is found -/

theorem oid?_eq_some_iff {b : Bytes} {o : Oid} :
    oid? b = some o ↔ o.Readable ∧ b = Write.oid o := by
  have htagged : Write.tagged .oid o.content = Write.oid o :=
    (Write.element_eq_tagged rfl o.content).symm
  unfold oid?
  rw [Option.bind_eq_some_iff]
  constructor
  · rintro ⟨content, hcontent, ho⟩
    obtain ⟨-, rfl⟩ := (singleOf_eq_some_iff (by decide)).mp hcontent
    obtain ⟨hreadable, rfl⟩ := Oid.ofContent?_eq_some_iff.mp ho
    exact ⟨hreadable, htagged⟩
  · rintro ⟨hreadable, rfl⟩
    have hlength := hreadable.length_le
    exact ⟨o.content, (singleOf_eq_some_iff (by decide)).mpr ⟨by omega, htagged.symm⟩,
      Oid.ofContent?_eq_some_iff.mpr ⟨hreadable, rfl⟩⟩

theorem isNull_iff {b : Bytes} : singleOf .null b = some [] ↔ b = Write.null := by
  rw [singleOf_eq_some_iff (by decide)]
  exact and_iff_right (by decide)

/-- An identifier is not NULL. -/
theorem oid_ne_null (o : Oid) : Write.oid o ≠ Write.null := by
  intro h
  exact absurd (List.head_eq_of_cons_eq h) (by decide)

variable {p : Option Bytes}

theorem curveOfParameters_named_iff {name : String} :
    curveOfParameters p = .named name ↔
      ∃ o : Oid, o.Readable ∧ p = some (Write.oid o) ∧ name = curveName o := by
  cases p with
  | none => simp [curveOfParameters]
  | some b =>
    simp only [curveOfParameters, Option.some.injEq]
    cases hoid : oid? b with
    | some o =>
      obtain ⟨hreadable, rfl⟩ := oid?_eq_some_iff.mp hoid
      simp only [CurveSpec.named.injEq]
      constructor
      · rintro rfl
        exact ⟨o, hreadable, rfl, rfl⟩
      · rintro ⟨o', hreadable', heq, rfl⟩
        rw [oid?_eq_some_iff.mpr ⟨hreadable', heq⟩] at hoid
        cases hoid
        rfl
    | none =>
      constructor
      · intro h
        dsimp only at h
        split at h <;> cases h
      · rintro ⟨o, hreadable, rfl, -⟩
        rw [oid?_eq_some_iff.mpr ⟨hreadable, rfl⟩] at hoid
        cases hoid

theorem curveOfParameters_inherited_iff :
    curveOfParameters p = .inherited ↔ p = none ∨ p = some Write.null := by
  cases p with
  | none => simp [curveOfParameters]
  | some b =>
    simp only [curveOfParameters, reduceCtorEq, Option.some.injEq, false_or]
    cases hoid : oid? b with
    | some o =>
      obtain ⟨-, rfl⟩ := oid?_eq_some_iff.mp hoid
      simp [oid_ne_null]
    | none => simp [isNull_iff]

theorem curveOfParameters_explicit_iff :
    curveOfParameters p = .explicit ↔
      ∃ b, p = some b ∧ b ≠ Write.null ∧ ∀ o : Oid, o.Readable → b ≠ Write.oid o := by
  cases p with
  | none => simp [curveOfParameters]
  | some b =>
    simp only [curveOfParameters, Option.some.injEq, exists_eq_left']
    cases hoid : oid? b with
    | some o =>
      have hb := oid?_eq_some_iff.mp hoid
      simp only [reduceCtorEq, false_iff, not_and, not_forall]
      exact fun _ => ⟨o, hb.1, not_not_intro hb.2⟩
    | none =>
      have hnone : ∀ o : Oid, o.Readable → b ≠ Write.oid o := by
        rintro o hreadable rfl
        rw [oid?_eq_some_iff.mpr ⟨hreadable, rfl⟩] at hoid
        cases hoid
      by_cases hnull : b = Write.null
      · rw [if_pos (isNull_iff.mpr hnull)]
        simp [hnull]
      · simp only [mt isNull_iff.mp hnull, if_false, true_iff]
        exact ⟨hnull, hnone⟩

variable {k : Elliptic.PublicKey} {b : Bytes} {c : CurveSpec}

/-- The encodings of EC keys, with any parameters. -/
theorem curveOf_eq_some_iff : curveOf b = some c ↔
    ∃ p key, (PublicKeyInfo.mk ecPublicKey p key).Encodes b ∧ curveOfParameters p = c := by
  unfold curveOf
  constructor
  · intro h
    obtain ⟨⟨o, p, key⟩, hread, h⟩ := Option.bind_eq_some_iff.mp h
    dsimp only at h
    split at h
    · next halgorithm =>
      cases h
      subst halgorithm
      exact ⟨p, key, read_eq_some_iff.mp hread, rfl⟩
    · cases h
  · rintro ⟨p, key, hencodes, rfl⟩
    simp [read_eq_some_iff.mpr hencodes]

theorem parametersOf_ec_iff {x : KeyParameters} :
    parametersOf (.ec k) b = .ok x ↔ ∃ c, curveOf b = some c ∧ x = .ec c := by
  rw [parametersOf]
  cases hcurve : curveOf b with
  | none => simp
  | some c => simp [eq_comm]

/-- A name is found exactly where the parameters are an identifier that can be read. -/
theorem parametersOf_named_iff {name : String} :
    parametersOf (.ec k) b = .ok (.ec (.named name)) ↔ ∃ (o : Oid) (key : Bytes),
      o.Readable ∧ name = curveName o ∧
        (PublicKeyInfo.mk ecPublicKey (some (Write.oid o)) key).Encodes b := by
  simp only [parametersOf_ec_iff, KeyParameters.ec.injEq, exists_eq_right', curveOf_eq_some_iff,
    curveOfParameters_named_iff]
  constructor
  · rintro ⟨_, key, hencodes, o, hreadable, rfl, hname⟩
    exact ⟨o, key, hreadable, hname, hencodes⟩
  · rintro ⟨o, key, hreadable, hname, hencodes⟩
    exact ⟨_, key, hencodes, o, hreadable, rfl, hname⟩

/-- The curve is inherited exactly where there are no parameters or NULL. -/
theorem parametersOf_inherited_iff :
    parametersOf (.ec k) b = .ok (.ec .inherited) ↔ ∃ (p : Option Bytes) (key : Bytes),
      (p = none ∨ p = some Write.null) ∧ (PublicKeyInfo.mk ecPublicKey p key).Encodes b := by
  simp only [parametersOf_ec_iff, KeyParameters.ec.injEq, exists_eq_right', curveOf_eq_some_iff,
    curveOfParameters_inherited_iff]
  exact exists₂_congr fun _ _ => and_comm

/-- The curve is spelled out exactly where the parameters are any other element. -/
theorem parametersOf_explicit_iff :
    parametersOf (.ec k) b = .ok (.ec .explicit) ↔ ∃ p key : Bytes,
      p ≠ Write.null ∧ (∀ o : Oid, o.Readable → p ≠ Write.oid o) ∧
        (PublicKeyInfo.mk ecPublicKey (some p) key).Encodes b := by
  simp only [parametersOf_ec_iff, KeyParameters.ec.injEq, exists_eq_right', curveOf_eq_some_iff,
    curveOfParameters_explicit_iff]
  constructor
  · rintro ⟨_, key, hencodes, p, rfl, hnull, hoid⟩
    exact ⟨p, key, hnull, hoid, hencodes⟩
  · rintro ⟨p, key, hnull, hoid, hencodes⟩
    exact ⟨_, key, hencodes, p, rfl, hnull, hoid⟩

/-- Everything else is no encoding of an EC key. -/
theorem parametersOf_malformed_iff :
    parametersOf (.ec k) b = .error .malformedPublicKey ↔
      ∀ p key, ¬(PublicKeyInfo.mk ecPublicKey p key).Encodes b := by
  have hnone : parametersOf (.ec k) b = .error .malformedPublicKey ↔ curveOf b = none := by
    rw [parametersOf]
    cases curveOf b <;> simp
  rw [hnone, Option.eq_none_iff_forall_ne_some]
  simp only [ne_eq, curveOf_eq_some_iff]
  constructor
  · intro h p key hencodes
    exact h _ ⟨p, key, hencodes, rfl⟩
  · rintro h c ⟨p, key, hencodes, -⟩
    exact h p key hencodes

/-- **The policy admits three identifiers.**  What is found in a byte string is let in exactly if
the byte string is the encoding, with nothing behind it, of an EC key whose parameters are the
identifier of a supported curve.  In general a byte string that is no encoding of an EC key is
malformed.  In the encoding of an EC key, an identifier gives a name, no parameters or NULL leave
the curve to be inherited, and all other parameters are explicit ones.  Different identifiers have
different names, from the table or in dotted form, and no dotted form stands in the table. -/
theorem curves_admitted_exactly (k : Elliptic.PublicKey) (b : Bytes) (bits : Nat) :
    ((∃ p, parametersOf (.ec k) b = .ok p ∧ checkParameters p bits = .ok ()) ↔
      ∃ o ∈ supportedIdentifiers, ∃ key,
        (PublicKeyInfo.mk ecPublicKey (some (Write.oid o)) key).Encodes b) ∧
    (∀ name, parametersOf (.ec k) b = .ok (.ec (.named name)) ↔ ∃ (o : Oid) (key : Bytes),
      o.Readable ∧ name = curveName o ∧
        (PublicKeyInfo.mk ecPublicKey (some (Write.oid o)) key).Encodes b) ∧
    (parametersOf (.ec k) b = .ok (.ec .inherited) ↔ ∃ (p : Option Bytes) (key : Bytes),
      (p = none ∨ p = some Write.null) ∧ (PublicKeyInfo.mk ecPublicKey p key).Encodes b) ∧
    (parametersOf (.ec k) b = .ok (.ec .explicit) ↔ ∃ p key : Bytes,
      p ≠ Write.null ∧ (∀ o : Oid, o.Readable → p ≠ Write.oid o) ∧
        (PublicKeyInfo.mk ecPublicKey (some p) key).Encodes b) ∧
    (parametersOf (.ec k) b = .error .malformedPublicKey ↔
      ∀ p key, ¬(PublicKeyInfo.mk ecPublicKey p key).Encodes b) ∧
    (∀ o o', curveName o = curveName o' → o = o') ∧
    (∀ o, (o, curveName o) ∈ curveNames ∨ curveName o = o.text) ∧
    ∀ p ∈ curveNames, ∀ o : Oid, p.2 ≠ o.text := by
  refine ⟨?_, fun _ => parametersOf_named_iff, parametersOf_inherited_iff,
    parametersOf_explicit_iff, parametersOf_malformed_iff, fun _ _ h => curveName_injective h,
    curveName_cases, fun _ hp o => ne_text_of_mem hp o⟩
  constructor
  · rintro ⟨p, hp, hcheck⟩
    obtain ⟨c, -, rfl⟩ := parametersOf_ec_iff.mp hp
    -- only a name is let in
    cases c with
    | explicit => cases hcheck
    | inherited => cases hcheck
    | named name =>
      obtain ⟨o, key, -, rfl, hencodes⟩ := parametersOf_named_iff.mp hp
      exact ⟨o, curveName_mem_supportedCurves_iff.mp (checkParameters_named.mp hcheck), key,
        hencodes⟩
  · rintro ⟨o, ho, key, hencodes⟩
    have hreadable : ∀ o ∈ supportedIdentifiers, Oid.ofContent? o.content = some o := by decide
    have hname := (parametersOf_named_iff (k := k)).mpr
      ⟨o, key, (Oid.ofContent?_eq_some_iff.mp (hreadable o ho)).1, rfl, hencodes⟩
    exact ⟨_, hname, checkParameters_named.mpr (curveName_mem_supportedCurves_iff.mpr ho)⟩

end Inspection

end Keyring
