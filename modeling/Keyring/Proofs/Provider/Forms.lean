import Keyring.Proofs.Key.Forms
import Keyring.Proofs.Key.Written
import Keyring.Proofs.Provider.Outlines

/-!
# Public keys in any form, with the decoders in use

The decoders in use read the first element of an input and leave what follows it, and in a text
they take the content of the first block with a label that they want.  A block for keys with their
algorithm, one for bare RSA keys and one for certificates each mislead none of the other decoders.
Keys are read back because they are written in the one way that there is.

## Main results

* `Provider.standard_readsFirst`, `Provider.standard_readsBlocks` — **the decoders in use look at
  the first element, and at the content of a block.**
* `Provider.standard_takes` — **all RSA and DSA keys are read back.**
-/

namespace Keyring

open Asn1 Asn1.Lenient Pem

/-! ### What comes first -/

/-- **The decoders in use look at nothing but the first element.** -/
theorem Provider.standard_readsFirst : Provider.standard.ReadsFirst where
  publicKey := fun b b' h => congrArg (·.bind PublicKey.ofElement) (first_congr h)
  rsaPublicKey := fun b b' h =>
    congrArg (fun parts => (parts.bind Rsa.PublicKey.ofParts).map PublicKey.rsa) (sequence_congr h)
  certificate := by
    intro b b' h
    show X509.read b = X509.read b'
    rw [X509.read, X509.read, sequence_congr h]

/-! ### Blocks -/

/-- A search through one block finds what is in it. -/
theorem Reading.search_single {α : Type} {f : Block → Reading α} {block : Block} {x : Option α}
    (h : f block = .ofOption x) : search f [some block] = x := by
  rw [search, h]
  cases x <;> rfl

namespace PublicKey

variable {label b text : Bytes}

/-- Of one block the content is taken if the label is wanted. -/
theorem contentOf_of_isBlock (h : IsBlock label b text) (hlabel : IsLabel label)
    (isWanted : Bytes → Bool) :
    contentOf isWanted text = if isWanted label then some b else none := by
  rw [contentOf, h.blocksOf_eq hlabel, firstLabelled]
  split <;> rfl

/-- A block for keys with their algorithm. -/
theorem ofText_of_label (h : IsBlock PublicKey.label b text) : ofText text = read b := by
  have hlabel : IsLabel PublicKey.label :=
    Outline.isLabel_of_mem (o := .publicKey) List.mem_cons_self
  have hsearch : Reading.search ofBlock (blocksOf text) = read b := by
    rw [h.blocksOf_eq hlabel]
    exact Reading.search_single rfl
  rw [ofText, hsearch, contentOf_of_isBlock h hlabel, if_pos BEq.rfl, Option.bind_some]
  cases read b <;> rfl

/-- A block for bare RSA keys. -/
theorem ofText_of_rsaLabel (h : IsBlock rsaLabel b text) : ofText text = readRsa b := by
  have hlabel : IsLabel rsaLabel := Outline.isLabel_of_mem (o := .rsaPublicKey) List.mem_cons_self
  have hne : ¬(rsaLabel == PublicKey.label) = true := by decide
  have hsearch : Reading.search ofBlock (blocksOf text) = readRsa b := by
    rw [h.blocksOf_eq hlabel]
    exact Reading.search_single rfl
  rw [ofText, hsearch, contentOf_of_isBlock h hlabel, if_neg hne]
  cases readRsa b <;> rfl

/-- A block for something else. -/
theorem ofText_of_ne (h : IsBlock label b text) (hlabel : IsLabel label)
    (hne : label ≠ PublicKey.label) (hne' : label ≠ rsaLabel) : ofText text = none := by
  -- the search passes over a block with a foreign label
  have hblock : ofBlock ⟨label, [], b⟩ = .ofOption none :=
    (if_neg Bool.false_ne_true).trans ((if_neg hne).trans (if_neg hne'))
  have hsearch : Reading.search ofBlock (blocksOf text) = none := by
    rw [h.blocksOf_eq hlabel]
    exact Reading.search_single hblock
  rw [ofText, hsearch, contentOf_of_isBlock h hlabel, if_neg (mt eq_of_beq hne)]
  rfl

end PublicKey

/-- **The decoders in use read a block as its content.** -/
theorem Provider.standard_readsBlocks : Provider.standard.ReadsBlocks where
  publicKey := fun b text h => PublicKey.ofText_of_label h
  rsaPublicKey := by
    intro b text h
    have hlabel : IsLabel PublicKey.rsaLabel :=
      Outline.isLabel_of_mem (o := .rsaPublicKey) List.mem_cons_self
    constructor
    · show PublicKey.rsaOfText text = _
      rw [PublicKey.rsaOfText, PublicKey.contentOf_of_isBlock h hlabel, if_pos BEq.rfl]
      rfl
    · intro k hk
      rw [show Provider.standard.publicKeyOfText text = PublicKey.readRsa b from
        PublicKey.ofText_of_rsaLabel h] at hk
      -- the content is read as a key with its algorithm, or as a bare key
      rcases (Option.orElse_eq_some _ _ _).mp hk with hk | ⟨-, hk⟩
      · exact .inl hk
      · obtain ⟨k', hread, hk⟩ := Option.bind_eq_some_iff.mp hk
        split at hk
        · cases hk
          exact .inr hread
        · cases hk
  certificate := by
    intro label hmem b text h
    have hlabel := Outline.isLabel_of_mem hmem
    -- the labels of certificates are no labels of keys
    have hwanted : ∀ l ∈ Outline.certificate.labels, X509.isLabel l = true ∧
        l ≠ PublicKey.label ∧ l ≠ PublicKey.rsaLabel := by decide
    obtain ⟨hcertificate, hne, hne'⟩ := hwanted label hmem
    refine ⟨?_, PublicKey.ofText_of_ne h hlabel hne hne', ?_⟩
    · show X509.ofText text = _
      rw [X509.ofText, PublicKey.contentOf_of_isBlock h hlabel, if_pos hcertificate]
      rfl
    · show PublicKey.rsaOfText text = none
      rw [PublicKey.rsaOfText, PublicKey.contentOf_of_isBlock h hlabel,
        if_neg (mt eq_of_beq hne')]
      rfl

/-! ### Keys -/

/-- **All RSA and DSA keys are read back**, if their encodings are not too long. -/
theorem Provider.standard_takes {k : PublicKey}
    (hk : k.algorithm? = some .rsa ∨ k.algorithm? = some .dsa)
    (hlength : ∀ b, k.write = some b → b.length < 2 ^ 63) : Provider.standard.Takes k := by
  have hread : ∀ b, k.write = some b → PublicKey.read (b ++ []) = some k := by
    intro b hb
    cases k with
    | rsa k => exact PublicKey.read_write_rsa hb (hlength b hb) []
    | dsa k => exact PublicKey.read_write_dsa hb (hlength b hb) []
    | ec k | rsaPss k | other name => rcases hk with hk | hk <;> cases hk
  refine ⟨rfl, fun b hb => ?_, ?_⟩
  · rw [← List.append_nil b]
    exact hread b hb
  · -- an RSA key is read back without its algorithm as well
    rintro n rfl
    have hwrite : (PublicKey.rsa n).write = some _ := rfl
    have hread := Rsa.PublicKey.read_write
      (Nat.lt_trans (PublicKey.length_write_rsa hwrite) (hlength _ hwrite)) []
    rw [List.append_nil] at hread
    exact congrArg (·.map PublicKey.rsa) hread

end Keyring
