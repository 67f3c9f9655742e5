import Keyring.Proofs.Provider.Curves
import Keyring.Proofs.Provider.Forms

/-!
# All encodings of a key agree

A public key is known by its parameters, its size and its encoding with the algorithm.  All of it
is worked out from the key, so it does not matter in what form the key came: with its algorithm,
bare or in a certificate, as it is or in a block of text.  This takes that no decoder is misled by
a form that is meant for another one.

The parser tries one decoder after the other, so the order could matter.  That it does not is the
work of outlines: an input that a later decoder takes has an outline that no earlier decoder
takes, whatever bytes follow.  What is left is to say what is known of the key that was found,
which for RSA and DSA keys is nothing but the key, and for EC keys how their curve is given too.

## Main definitions

* `Provider.Agree` — all encodings of a key have the same outcome.

## Main results

* `agree_publicInfo` — what is known of a key is known from all of its encodings.
* `Provider.Takes.publicInfo_rsa`, `Provider.Takes.publicInfo_dsa`, `Provider.Takes.publicInfo_ec`
  — what is known of a key.
* `encodings_agree` — **all encodings of a key agree.**
-/

namespace Keyring

open Asn1 Asn1.Lenient

/-- All encodings of a key, in whatever input they are presented, have the same outcome. -/
def Provider.Agree (P : Provider) (k : PublicKey) (x : Except CryptoError PublicInfo) : Prop :=
  ∀ o b input, P.Encodes k o b → Outline.Presents o b input → parsePublic P input = x

variable {P : Provider} {b : Bytes}

/-! ### What is known of a key -/

/-- An RSA key is always written. -/
theorem Provider.Takes.publicInfo_rsa {k : Rsa.PublicKey} (hk : P.Takes (.rsa k)) :
    ∃ b, (PublicKey.rsa k).write = some b ∧
      publicInfo P (.rsa k) = .ok ⟨.rsa, bitLength k.modulus, b⟩ := by
  obtain ⟨b, hwrite⟩ : ∃ b, (PublicKey.rsa k).write = some b := ⟨_, rfl⟩
  exact ⟨b, hwrite, publicInfo_of_encode (hk.encode.trans hwrite) rfl⟩

/-- So is a DSA key. -/
theorem Provider.Takes.publicInfo_dsa {k : Dsa.PublicKey} (hk : P.Takes (.dsa k)) :
    ∃ b, (PublicKey.dsa k).write = some b ∧
      publicInfo P (.dsa k) = .ok ⟨.dsa k.domain.hash, bitLength k.domain.p, b⟩ := by
  obtain ⟨b, hwrite⟩ : ∃ b, (PublicKey.dsa k).write = some b := ⟨_, rfl⟩
  exact ⟨b, hwrite, publicInfo_of_encode (hk.encode.trans hwrite) rfl⟩

/-- The names of known curves can be read. -/
theorem Elliptic.Group.Known.ofContent? {g : Group} (h : g.Known) {o : Oid} (ho : g.name = some o) :
    Oid.ofContent? o.content = some o := by
  -- a known name is one of the table, which is short enough to go through
  have htable : ∀ n ∈ table, Oid.ofContent? n.oid.content = some n.oid := by decide
  obtain ⟨n, hn, rfl, -⟩ := h o ho
  exact htable n hn

/-- The curve of an EC key is found in its encoding as the key gives it. -/
theorem Provider.Takes.publicInfo_ec {k : Elliptic.PublicKey} (hk : P.Takes (.ec k))
    (hknown : k.group.Known) (hwrite : (PublicKey.ec k).write = some b)
    (hlength : b.length < 2 ^ 32) :
    publicInfo P (.ec k) = .ok ⟨.ec k.group.spec, k.group.bitSize, b⟩ := by
  refine publicInfo_of_encode (hk.encode.trans hwrite) ?_
  rw [parametersOf, Inspection.curveOf_write hwrite hlength fun o ho => hknown.ofContent? ho]

/-! ### Agreement -/

/-- More bytes do not change an outline. -/
theorem Outline.Begins.append {o : Outline} (h : o.Begins b) (rest : Bytes) :
    o.Begins (b ++ rest) := by
  obtain ⟨parts, hparts, hfits⟩ := h
  exact ⟨parts, (sequence_congr (leading_append (isSome_leading hparts))).trans hparts, hfits⟩

section

variable (hP : P.KeepsOutlines) (hfirst : P.ReadsFirst) (hblocks : P.ReadsBlocks)

include hP

/-- No decoder takes what is meant for a later one, whatever follows it. -/
theorem decoders_append (rest : Bytes) :
    ((P.rsaPublicKey b).isSome → P.publicKey (b ++ rest) = none) ∧
    ((P.certificate b).isSome →
      P.publicKey (b ++ rest) = none ∧ P.rsaPublicKey (b ++ rest) = none) := by
  constructor
  · intro h
    obtain ⟨k, hk⟩ := Option.isSome_iff_exists.mp h
    exact publicKey_eq_none hP ((hP.rsaPublicKey b k hk).append rest) (by decide)
  · intro h
    obtain ⟨c, hc⟩ := Option.isSome_iff_exists.mp h
    -- the outline of a certificate is still there with the rest behind it
    have hbegins := (hP.certificate b c hc).append rest
    exact ⟨publicKey_eq_none hP hbegins (by decide), rsaPublicKey_eq_none hP hbegins (by decide)⟩

include hfirst hblocks

/-- What is known of a key is known from all of its encodings. -/
theorem agree_publicInfo (k : PublicKey) : P.Agree k (publicInfo P k) := by
  intro o b input hencodes hinput
  -- the key that was encoded is the key that is found, in any form
  rw [parsePublic, findPublic_of_presents hP hfirst hblocks hencodes hinput]

/-- **All encodings of a key agree.**  An RSA key is encoded with its algorithm, without it and in
certificates; whatever of it the input presents, as it is with any bytes behind or in a block of
text, the same is known: that it is an RSA key, the number of bits of its modulus and its encoding
with the algorithm.  It is the same with DSA and EC keys, encoded with their algorithm or in
certificates.  How the curve is given, and in what form the point is written, is part of an EC key;
its curve is found if it is known by the name that is given for it and if the encoding is within
the limits of the strict reader.  And what a decoder takes, none of the decoders before it does. -/
theorem encodings_agree :
    (∀ k : Rsa.PublicKey, P.Takes (.rsa k) → ∃ b, (PublicKey.rsa k).write = some b ∧
      P.Encodes (.rsa k) .publicKey b ∧ P.Encodes (.rsa k) .rsaPublicKey k.write ∧
      P.Agree (.rsa k) (.ok ⟨.rsa, bitLength k.modulus, b⟩)) ∧
    (∀ k : Dsa.PublicKey, P.Takes (.dsa k) → ∃ b, (PublicKey.dsa k).write = some b ∧
      P.Encodes (.dsa k) .publicKey b ∧
      P.Agree (.dsa k) (.ok ⟨.dsa k.domain.hash, bitLength k.domain.p, b⟩)) ∧
    (∀ (k : Elliptic.PublicKey) (b : Bytes), P.Takes (.ec k) → (PublicKey.ec k).write = some b →
      P.Encodes (.ec k) .publicKey b ∧ P.Agree (.ec k) (publicInfo P (.ec k)) ∧
      (k.group.Known → b.length < 2 ^ 32 →
        publicInfo P (.ec k) = .ok ⟨.ec k.group.spec, k.group.bitSize, b⟩)) ∧
    ∀ b rest : Bytes, ((P.rsaPublicKey b).isSome → P.publicKey (b ++ rest) = none) ∧
      ((P.certificate b).isSome →
        P.publicKey (b ++ rest) = none ∧ P.rsaPublicKey (b ++ rest) = none) := by
  have hagree := agree_publicInfo hP hfirst hblocks
  refine ⟨fun k hk => ?_, fun k hk => ?_, fun k b hk hwrite => ?_,
    fun b rest => decoders_append hP rest⟩
  · obtain ⟨b, hwrite, hinfo⟩ := hk.publicInfo_rsa
    exact ⟨b, hwrite, .publicKey (hk.publicKey b hwrite), .rsaPublicKey (hk.rsaPublicKey k rfl),
      hinfo ▸ hagree _⟩
  · obtain ⟨b, hwrite, hinfo⟩ := hk.publicInfo_dsa
    exact ⟨b, hwrite, .publicKey (hk.publicKey b hwrite), hinfo ▸ hagree _⟩
  · exact ⟨.publicKey (hk.publicKey b hwrite), hagree _,
      fun hknown hlength => hk.publicInfo_ec hknown hwrite hlength⟩

end

/-! ### Keys of all algorithms -/

/-- A small DSA key. -/
def Dsa.smallKey : PublicKey := ⟨⟨23, 11, 4⟩, 8⟩

/-- Its encoding. -/
def Dsa.smallPublic : Bytes := (Keyring.PublicKey.write (.dsa smallKey)).getD []

namespace Provider

theorem standard_takes_mersenne : standard.Takes (.rsa Rsa.mersenneKey.publicKey) := by
  refine standard_takes (.inl rfl) fun b hb => ?_
  have hlength : Rsa.mersennePublic.length < 2 ^ 63 := by decide +kernel
  cases hb
  exact hlength

theorem standard_takes_smallKey : standard.Takes (.dsa Dsa.smallKey) := by
  refine standard_takes (.inr rfl) fun b hb => ?_
  cases hb
  decide

theorem standard_takes_secp256k1 : standard.Takes (.ec Elliptic.secp256k1Key) := by
  refine ⟨rfl, fun b hb => ?_, nofun⟩
  cases hb
  exact standard_publicKey_curves.2

theorem standard_certificate_smallKey : standard.certificate (X509.plain Dsa.smallPublic) =
    some ⟨X509.plain Dsa.smallPublic, some (.dsa Dsa.smallKey)⟩ := by
  decide +kernel

end Provider

/-- A bare RSA key in a block, in two lines. -/
def Rsa.mersenneText (ending last : Bytes) : Bytes :=
  ((Pem.openingOf PublicKey.rsaLabel :: [(Base64.encode mersenneKey.publicKey.write).take 64,
    (Base64.encode mersenneKey.publicKey.write).drop 64]).map (· ++ ending)).flatten ++
      (Pem.closingOf PublicKey.rsaLabel ++ last)

theorem isBlock_mersenneText {ending last : Bytes} (hending : ending ∈ Pem.lineEnds)
    (hlast : last ∈ [] :: Pem.lineEnds) : Pem.IsBlock PublicKey.rsaLabel
      Rsa.mersenneKey.publicKey.write (Rsa.mersenneText ending last) := by
  -- 64 bytes of base 64 and the rest are short enough for a line
  have hlines : ∀ ending ∈ Pem.lineEnds,
      ∀ line ∈ [(Base64.encode Rsa.mersenneKey.publicKey.write).take 64,
        (Base64.encode Rsa.mersenneKey.publicKey.write).drop 64],
        line ≠ [] ∧ (line ++ ending).length ≤ Pem.maxLine := by
    decide +kernel
  have hflatten : [(Base64.encode Rsa.mersenneKey.publicKey.write).take 64,
      (Base64.encode Rsa.mersenneKey.publicKey.write).drop 64].flatten =
      Base64.encode Rsa.mersenneKey.publicKey.write := by
    simp [List.take_append_drop]
  exact ⟨List.cons_ne_nil _ _, _, ending, last, hending, hlast, hflatten, hlines ending hending,
    rfl⟩

/-- A block with a bare RSA key, in lines that end with a carriage return and a line feed. -/
theorem exists_isBlock_mersenne :
    ∃ text, Pem.IsBlock PublicKey.rsaLabel Rsa.mersenneKey.publicKey.write text :=
  ⟨Rsa.mersenneText [13, Pem.newline] [], isBlock_mersenneText (by decide) (by decide)⟩

/-- The provider in use finds the same in all encodings of an RSA key of 609 bits: with its
algorithm, bare, in a certificate and in a block.  So it is with a DSA key and an EC key.  No
earlier decoder takes the certificate. -/
theorem encodings_agree_mersenne :
    parsePublic .standard (Rsa.mersennePublic ++ [0]) = .ok mersenneInfo ∧
    parsePublic .standard (Rsa.mersenneKey.publicKey.write ++ [1, 2]) = .ok mersenneInfo ∧
    parsePublic .standard (Rsa.mersenneCertificate ++ [3]) = .ok mersenneInfo ∧
    (∃ text, Pem.IsBlock PublicKey.rsaLabel Rsa.mersenneKey.publicKey.write text ∧
      parsePublic .standard text = .ok mersenneInfo) ∧
    (∃ i, parsePublic .standard Dsa.smallPublic = .ok i ∧
      parsePublic .standard (X509.plain Dsa.smallPublic) = .ok i ∧ i.bitSize = 5) ∧
    parsePublic .standard (Elliptic.secp256k1Key.encoding ++ [4]) = .ok Elliptic.secp256k1Info ∧
    parsePublic .standard Elliptic.secp256k1Certificate = .ok Elliptic.secp256k1Info ∧
    Provider.standard.publicKey (Rsa.mersenneCertificate ++ [3]) = none := by
  obtain ⟨hrsa, hdsa, hec, hnone⟩ := encodings_agree Provider.standard_keepsOutlines
    Provider.standard_readsFirst Provider.standard_readsBlocks
  obtain ⟨b, hwrite, hpublic, hbare, hagree⟩ := hrsa _ Provider.standard_takes_mersenne
  cases hwrite
  have hcertificate := Provider.standard_certificate_mersenneCertificate
  obtain ⟨text, hblock⟩ := exists_isBlock_mersenne
  obtain ⟨b', hwrite', hpublic', hagree'⟩ := hdsa _ Provider.standard_takes_smallKey
  cases hwrite'
  have hknown := PublicKey.known_of_read (b := Elliptic.secp256k1Key.encoding)
    Provider.standard_publicKey_curves.2
  obtain ⟨hpublic'', hagree'', hinfo⟩ := hec _ Elliptic.secp256k1Key.encoding
    Provider.standard_takes_secp256k1 Provider.standard_encode_curves.2
  rw [hinfo hknown (by decide)] at hagree''
  refine ⟨hagree _ _ _ hpublic (Outline.presents_append _ _ _),
    hagree _ _ _ hbare (Outline.presents_append _ _ _),
    hagree _ _ _ (.certificate hcertificate rfl) (Outline.presents_append _ _ _),
    ⟨text, hblock, hagree _ _ _ hbare (Outline.presents_of_isBlock List.mem_cons_self hblock)⟩,
    ⟨_, hagree' _ _ _ hpublic' (Outline.presents_self _ _),
      hagree' _ _ _ (.certificate Provider.standard_certificate_smallKey rfl)
        (Outline.presents_self _ _), rfl⟩,
    hagree'' _ _ _ hpublic'' (Outline.presents_append _ _ _),
    hagree'' _ _ _ (.certificate Provider.standard_certificate_secp256k1 rfl)
      (Outline.presents_self _ _), ?_⟩
  refine ((hnone _ [3]).2 ?_).1
  rw [hcertificate]
  rfl

end Keyring
