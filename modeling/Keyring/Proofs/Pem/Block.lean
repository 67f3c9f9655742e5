import Keyring.Pem.Block
import Keyring.Proofs.Pem.Base64

/-!
# Blocks, written and read back

A block of text is a content in base 64 between two boundary lines.  However the content is
broken into lines, and whichever of the usual ends the lines have, the block is found again.

The reader takes lines of bounded length and is led by what stands in them: a colon makes a
header, an empty line ends one, a hyphen in front makes a boundary.  So the proof is about lines.
A text that was put together of lines is taken apart into the same lines, and lines of base 64
have none of the marks that would lead the reader astray.  The state of the reader is followed
through the lines one by one; whether a line was cut is noted in it, and does not matter here.

## Main definitions

* `IsLabel` — what can stand in a boundary line.
* `IsBlock` — a text is one block with a label and a content.

## Main results

* `splitLines_flatten` — a text is taken apart into its lines.
* `readBlock_lines` — the lines between the boundaries, one after the other.
* `IsBlock.exists_split` — the lines of a block.
* `IsBlock.blocksOf_eq` — **the block is all that is found in its text.**
-/

namespace Keyring.Pem

variable {label content text line ending last : Bytes} {lines : List Bytes}

/-! ### Lines -/

/-- How a line ends: with a line feed, or with a carriage return and a line feed. -/
def lineEnds : List Bytes := [[newline], [13, newline]]

/-- A line with its end, short enough to be read at once. -/
def IsLine (raw : Bytes) : Prop :=
  ∃ line, raw = line ++ [newline] ∧ newline ∉ line ∧ raw.length ≤ maxLine

/-- Nothing of an end is taken for a part of the line. -/
theorem isTrailing_of_mem_lineEnds (h : ending ∈ [] :: lineEnds) :
    ∀ c ∈ ending, isTrailing c = true := by
  have hends : ∀ ending ∈ [] :: lineEnds, ending.all isTrailing = true := by decide
  exact List.all_eq_true.mp (hends ending h)

theorem colon_not_mem_lineEnds (h : ending ∈ [] :: lineEnds) : 58 ∉ ending := by
  revert ending
  decide

theorem length_lineEnds (h : ending ∈ [] :: lineEnds) : ending.length ≤ 2 := by
  revert ending
  decide

theorem isLine_append (hending : ending ∈ lineEnds) (hline : newline ∉ line)
    (hlength : (line ++ ending).length ≤ maxLine) : IsLine (line ++ ending) := by
  obtain ⟨blank, rfl, hblank⟩ : ∃ blank, ending = blank ++ [newline] ∧ newline ∉ blank := by
    simp only [lineEnds, List.mem_cons, List.not_mem_nil, or_false] at hending
    rcases hending with rfl | rfl
    · exact ⟨[], rfl, by decide⟩
    · exact ⟨[13], rfl, by decide⟩
  refine ⟨line ++ blank, (List.append_assoc _ _ _).symm, ?_, hlength⟩
  rw [List.mem_append, not_or]
  exact ⟨hline, hblank⟩

/-- What does not end a line is kept. -/
theorem splitFrom_append {n : Nat} {start : Bytes} (rest : Bytes) (hline : newline ∉ line)
    (hlength : n + line.length < maxLine) :
    splitFrom n start (line ++ rest) =
      splitFrom (n + line.length) (line.reverse ++ start) rest := by
  induction line generalizing n start with
  | nil => rfl
  | cons c line ih =>
    obtain ⟨hc, hrest⟩ := not_or.mp (List.mem_cons.not.mp hline)
    rw [List.length_cons] at hlength ⊢
    -- neither does `c` end the line, nor has the line come to the limit
    have hgoes : ¬(c = newline || n + 1 = maxLine) = true := by
      simp only [Bool.or_eq_true, decide_eq_true_eq, not_or]
      exact ⟨fun h => hc h.symm, by omega⟩
    rw [List.cons_append, splitFrom, if_neg hgoes, ih hrest (by omega), List.reverse_cons,
      List.append_assoc, Nat.add_right_comm, Nat.add_assoc]
    rfl

/-- A line is taken off a text. -/
theorem splitLines_append {raw : Bytes} (h : IsLine raw) (rest : Bytes) :
    splitLines (raw ++ rest) = raw :: splitLines rest := by
  obtain ⟨line, rfl, hline, hlength⟩ := h
  rw [List.length_append, List.length_singleton] at hlength
  rw [splitLines, List.append_assoc, splitFrom_append _ hline (by omega), List.singleton_append,
    splitFrom, if_pos (by simp), List.append_nil, List.reverse_cons, List.reverse_reverse]
  rfl

/-- **A text is taken apart into its lines.** -/
theorem splitLines_flatten (h : ∀ raw ∈ lines, IsLine raw) (rest : Bytes) :
    splitLines (lines.flatten ++ rest) = lines ++ splitLines rest := by
  induction lines with
  | nil => rfl
  | cons raw lines ih =>
    obtain ⟨hraw, hlines⟩ := List.forall_mem_cons.mp h
    rw [List.flatten_cons, List.append_assoc, splitLines_append hraw, ih hlines, List.cons_append]

/-- The last line need not have an end. -/
theorem splitLines_last (hlast : last ∈ [] :: lineEnds) (hline : newline ∉ line)
    (hne : line ≠ []) (hlength : line.length + 2 ≤ maxLine) :
    splitLines (line ++ last) = [line ++ last] := by
  -- without an end, or with one of the usual ends
  rcases List.mem_cons.mp hlast with rfl | hlast
  · have hempty : (line.reverse ++ []).isEmpty = false := by simp [hne]
    rw [splitLines, splitFrom_append [] hline (by omega), splitFrom, hempty,
      if_neg Bool.false_ne_true]
    simp
  · have hraw : IsLine (line ++ last) := by
      have hle := length_lineEnds (List.mem_cons_of_mem _ hlast)
      refine isLine_append hlast hline ?_
      rw [List.length_append]
      omega
    have hsplit := splitLines_append hraw []
    rwa [List.append_nil] at hsplit

/-- A line without its end, if nothing before the end is to be taken for it. -/
theorem stripLine_append {c : UInt8} (hc : isTrailing c = false)
    (hending : ∀ c ∈ ending, isTrailing c = true) :
    stripLine (line ++ [c] ++ ending) = line ++ [c] := by
  have hreverse : ∀ c ∈ ending.reverse, isTrailing c = true :=
    fun c h => hending c (List.mem_reverse.mp h)
  -- from behind, all of the end is dropped and `c` is not
  rw [stripLine, List.reverse_append, List.dropWhile_append_of_pos hreverse, List.reverse_append,
    List.reverse_singleton, List.singleton_append, List.dropWhile_cons_of_neg (by simp [hc])]
  simp

/-! ### Boundaries -/

/-- What can stand in a boundary line: a text without line ends and colons, not too long. -/
structure IsLabel (label : Bytes) : Prop where
  newline_not_mem : newline ∉ label
  colon_not_mem : 58 ∉ label
  length_le : label.length ≤ 200

/-- The opening boundary of a label. -/
def openingOf (label : Bytes) : Bytes := opening ++ label ++ dashes

/-- The closing boundary of a label. -/
def closingOf (label : Bytes) : Bytes := closing ++ label ++ dashes

/-- Hyphens are no part of the end of a line. -/
theorem stripLine_dashes (hending : ending ∈ [] :: lineEnds) :
    stripLine (line ++ dashes ++ ending) = line ++ dashes := by
  have hdashes : dashes = [45, 45, 45, 45] ++ [45] := by decide
  rw [hdashes, ← List.append_assoc]
  exact stripLine_append (by decide) (isTrailing_of_mem_lineEnds hending)

theorem labelOf?_openingOf (label : Bytes) : labelOf? (openingOf label) = some label := by
  have hopening : opening.isPrefixOf (openingOf label) = true := by
    rw [List.isPrefixOf_iff_prefix, openingOf, List.append_assoc]
    exact List.prefix_append _ _
  have hdashes : dashes.isSuffixOf (openingOf label) = true := by
    rw [List.isSuffixOf_iff_suffix]
    exact List.suffix_append _ _
  have hlength : (openingOf label).length - opening.length - dashes.length = label.length := by
    simp only [openingOf, List.length_append]
    omega
  rw [labelOf?, hopening, hdashes, Bool.true_and, if_pos rfl, hlength, openingOf,
    List.append_assoc, List.drop_left, List.take_left]

/-- Boundaries are short, and in one line. -/
theorem IsLabel.opening (h : IsLabel label) :
    newline ∉ openingOf label ∧ (openingOf label).length + 2 ≤ maxLine := by
  have hopening : newline ∉ Pem.opening ∧ Pem.opening.length = 11 := by decide
  have hdashes : newline ∉ dashes ∧ dashes.length = 5 := by decide
  have hlength := h.length_le
  simp only [openingOf, List.mem_append, List.length_append, not_or, maxLine]
  exact ⟨⟨⟨hopening.1, h.newline_not_mem⟩, hdashes.1⟩, by omega⟩

theorem IsLabel.closing (h : IsLabel label) :
    newline ∉ closingOf label ∧ 58 ∉ closingOf label ∧ (closingOf label).length + 2 ≤ maxLine := by
  have hclosing : newline ∉ Pem.closing ∧ 58 ∉ Pem.closing ∧ Pem.closing.length = 9 := by decide
  have hdashes : newline ∉ dashes ∧ 58 ∉ dashes ∧ dashes.length = 5 := by decide
  have hlength := h.length_le
  simp only [closingOf, List.mem_append, List.length_append, not_or, maxLine]
  exact ⟨⟨⟨hclosing.1, h.newline_not_mem⟩, hdashes.1⟩,
    ⟨⟨hclosing.2.1, h.colon_not_mem⟩, hdashes.2.1⟩, by omega⟩

/-! ### Between the boundaries -/

/-- A line between the boundaries: it is not empty, has no colon in it, does not start with a
hyphen, and at its end is nothing that does not count. -/
structure IsContentLine (line : Bytes) : Prop where
  stripped : ∀ ending ∈ lineEnds, stripLine (line ++ ending) = line
  ne_nil : line ≠ []
  colon_not_mem : 58 ∉ line
  head_ne : line.head? ≠ some 45

/-- The closing boundary ends a block. -/
theorem readBlock_closingOf {p : Progress} (hlabel : IsLabel label)
    (hlast : last ∈ [] :: lineEnds) :
    readBlock label p [closingOf label ++ last] =
      ({ p with cut := (closingOf label ++ last).length == maxLine &&
          (closingOf label ++ last).getLast? != some newline }.block label, []) := by
  have hcolon : (closingOf label ++ last).contains 58 = false := by
    simp [hlabel.closing.2.1, colon_not_mem_lineEnds hlast]
  have hstrip : stripLine (closingOf label ++ last) = closingOf label := stripLine_dashes hlast
  have hempty : (closingOf label).isEmpty = false := rfl
  have hprefix : closing.isPrefixOf (closingOf label) = true := by
    rw [List.isPrefixOf_iff_prefix, closingOf, List.append_assoc]
    exact List.prefix_append _ _
  simp only [readBlock, hcolon, hstrip, hempty, hprefix, Bool.and_false, Bool.false_eq_true,
    if_false, if_true]
  rw [if_pos (show closingOf label = closing ++ label ++ dashes from rfl)]

/-- A line between the boundaries is added to the content. -/
theorem readBlock_cons {p : Progress} (label : Bytes) (rest : List Bytes)
    (hpart : p.part = .undecided) (hended : p.ended = false) (hline : IsContentLine line)
    (hending : ending ∈ lineEnds) :
    ∃ cut, readBlock label p ((line ++ ending) :: rest) =
      readBlock label { p with cut := cut, before := line :: p.before } rest := by
  -- no header, not empty, no boundary: a line of the content
  have hcolon : (line ++ ending).contains 58 = false := by
    simp [hline.colon_not_mem, colon_not_mem_lineEnds (List.mem_cons_of_mem _ hending)]
  have hempty : line.isEmpty = false := List.isEmpty_eq_false_iff.mpr hline.ne_nil
  have hprefix : closing.isPrefixOf line = false := by
    rw [Bool.eq_false_iff]
    intro hprefix
    obtain ⟨rest, rfl⟩ := List.isPrefixOf_iff_prefix.mp hprefix
    exact hline.head_ne rfl
  refine ⟨(line ++ ending).length == maxLine && (line ++ ending).getLast? != some newline, ?_⟩
  simp only [readBlock, hcolon, hline.stripped ending hending, hempty, hprefix, Bool.and_false,
    Bool.false_eq_true, if_false, Progress.add, hended, hpart, ne_eq, reduceCtorEq,
    not_false_eq_true, if_true]

/-- **The lines between the boundaries, one after the other.**  Whether the last line was cut does
not matter to the block. -/
theorem readBlock_lines {p : Progress} (hlabel : IsLabel label) (hpart : p.part = .undecided)
    (hended : p.ended = false) (hlines : ∀ line ∈ lines, IsContentLine line)
    (hending : ending ∈ lineEnds) (hlast : last ∈ [] :: lineEnds) :
    readBlock label p (lines.map (· ++ ending) ++ [closingOf label ++ last]) =
      ({ p with before := lines.reverse ++ p.before }.block label, []) := by
  -- on the lines, for any progress so far
  induction lines generalizing p with
  | nil => exact readBlock_closingOf hlabel hlast
  | cons line lines ih =>
    obtain ⟨hline, hrest⟩ := List.forall_mem_cons.mp hlines
    obtain ⟨cut, hcons⟩ := readBlock_cons label
      (lines.map (· ++ ending) ++ [closingOf label ++ last]) hpart hended hline hending
    rw [List.map_cons, List.cons_append, hcons,
      ih (p := { p with cut := cut, before := line :: p.before }) hpart hended hrest,
      List.reverse_cons, List.append_assoc]
    rfl

/-! ### Blocks -/

/-- A text is one block with a label and a content that is not empty.  The content is broken into
lines somehow, as long as they can be read at once.  All lines have the same end, but the last one
may have another or none. -/
structure IsBlock (label content text : Bytes) : Prop where
  content_ne_nil : content ≠ []
  exists_lines : ∃ (lines : List Bytes) (ending last : Bytes),
    ending ∈ lineEnds ∧ last ∈ [] :: lineEnds ∧ lines.flatten = Base64.encode content ∧
    (∀ line ∈ lines, line ≠ [] ∧ (line ++ ending).length ≤ maxLine) ∧
    text = ((openingOf label :: lines).map (· ++ ending)).flatten ++ (closingOf label ++ last)

/-- Lines of base 64 are what can stand between the boundaries. -/
theorem isContentLine_of_encode (hencode : lines.flatten = Base64.encode content)
    (hlines : ∀ line ∈ lines, line ≠ []) :
    ∀ line ∈ lines, IsContentLine line ∧ newline ∉ line := by
  intro line hline
  -- no character of base 64 is a mark, and neither is the padding
  have hchar : ∀ v : Fin 64, isTrailing (Base64.char v) = false ∧ Base64.char v ≠ 58 ∧
      Base64.char v ≠ 45 ∧ Base64.char v ≠ newline := by decide
  have hmem : ∀ c ∈ line, isTrailing c = false ∧ c ≠ 58 ∧ c ≠ 45 ∧ c ≠ newline := by
    intro c hc
    have hc' : c ∈ Base64.encode content := by
      rw [← hencode]
      exact List.mem_flatten.mpr ⟨line, hline, hc⟩
    rcases Base64.mem_encode hc' with ⟨v, rfl⟩ | rfl
    · exact hchar v
    · decide
  refine ⟨⟨fun ending hending => ?_, hlines line hline, fun h => (hmem _ h).2.1 rfl, ?_⟩,
    fun h => (hmem _ h).2.2.2 rfl⟩
  · obtain ⟨start, c, rfl⟩ := List.eq_nil_or_concat line |>.resolve_left (hlines line hline)
    rw [List.concat_eq_append] at hmem ⊢
    exact stripLine_append (hmem c (by simp)).1
      (isTrailing_of_mem_lineEnds (List.mem_cons_of_mem _ hending))
  · intro hhead
    exact (hmem 45 (List.mem_of_head? hhead)).2.2.1 rfl

/-- An opening boundary starts a block. -/
theorem nextBlock_openingOf {rest rest' : List Bytes} {b : Block} (hending : ending ∈ lineEnds)
    (h : readBlock label {} rest = (some b, rest')) :
    nextBlock ((openingOf label ++ ending) :: rest) = .block b rest' := by
  have hmark : stripMark (openingOf label ++ ending) = openingOf label ++ ending := by
    have htake : ((openingOf label ++ ending).take 3 == [0xef, 0xbb, 0xbf]) = false := rfl
    rw [stripMark, htake, Bool.and_false, if_neg Bool.false_ne_true]
  have hstrip : stripLine (openingOf label ++ ending) = openingOf label :=
    stripLine_dashes (List.mem_cons_of_mem _ hending)
  rw [nextBlock, findBlock, if_pos rfl, hmark, hstrip, labelOf?_openingOf]
  dsimp only
  rw [h]

/-- What follows a block is looked through after it. -/
theorem blocks_of_nextBlock {more rest : List Bytes} {b : Block}
    (h : nextBlock (line :: more) = .block b rest) :
    blocks (line :: more) = some b :: blocks rest := by
  rw [blocks]
  split
  · next heq =>
    rw [h] at heq
    cases heq
  · next heq =>
    rw [h] at heq
    cases heq
  · next heq =>
    rw [h] at heq
    cases heq
    rfl

/-- The lines of a block: the opening boundary, the content, the closing boundary. -/
theorem IsBlock.exists_split (h : IsBlock label content text) (hlabel : IsLabel label) :
    ∃ (lines : List Bytes) (ending last rest : Bytes),
      ending ∈ lineEnds ∧ last ∈ [] :: lineEnds ∧ lines.flatten = Base64.encode content ∧
      (∀ line ∈ lines, IsContentLine line) ∧ IsLine (openingOf label ++ ending) ∧
      text = openingOf label ++ ending ++ rest ∧
      splitLines rest = lines.map (· ++ ending) ++ [closingOf label ++ last] := by
  obtain ⟨-, lines, ending, last, hending, hlast, hencode, hlines, rfl⟩ := h
  have hcontents := isContentLine_of_encode hencode fun line hline => (hlines line hline).1
  have hopening : IsLine (openingOf label ++ ending) := by
    have hle := length_lineEnds (List.mem_cons_of_mem _ hending)
    have hlength := hlabel.opening.2
    refine isLine_append hending hlabel.opening.1 ?_
    rw [List.length_append]
    omega
  -- each line fits together with its end, by what a block is
  have hraw : ∀ raw ∈ lines.map (· ++ ending), IsLine raw := by
    intro raw hraw
    obtain ⟨line, hline, rfl⟩ := List.mem_map.mp hraw
    exact isLine_append hending (hcontents line hline).2 (hlines line hline).2
  obtain ⟨hnewline, -, hlength⟩ := hlabel.closing
  refine ⟨lines, ending, last, (lines.map (· ++ ending)).flatten ++ (closingOf label ++ last),
    hending, hlast, hencode, fun line hline => (hcontents line hline).1, hopening, ?_, ?_⟩
  · rw [List.map_cons, List.flatten_cons, List.append_assoc _ (List.flatten _)]
  · rw [splitLines_flatten hraw, splitLines_last hlast hnewline (List.cons_ne_nil _ _) hlength]

/-- **The block is all that is found in its text.** -/
theorem IsBlock.blocksOf_eq (h : IsBlock label content text) (hlabel : IsLabel label) :
    blocksOf text = [some ⟨label, [], content⟩] := by
  obtain ⟨lines, ending, last, rest, hending, hlast, hencode, hcontents, hopening, rfl, hsplit⟩ :=
    h.exists_split hlabel
  have hcontent := h.content_ne_nil
  have hread := readBlock_lines (p := {}) hlabel rfl rfl hcontents hending hlast
  -- the lines together decode to the content
  have hblock : Progress.block { ({} : Progress) with before := lines.reverse ++ [] } label =
      some ⟨label, [], content⟩ := by
    simp only [Progress.block, List.append_nil, List.reverse_reverse, if_true, hencode,
      Base64.decode_encode]
  rw [hblock] at hread
  rw [blocksOf, splitLines_append hopening, hsplit,
    blocks_of_nextBlock (nextBlock_openingOf hending hread), blocks]

/-- A block is text. -/
theorem IsBlock.isText (h : IsBlock label content text) : isText text = true := by
  obtain ⟨-, lines, ending, last, -, -, -, -, rfl⟩ := h
  rfl

end Keyring.Pem
