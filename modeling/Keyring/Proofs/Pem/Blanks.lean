import Keyring.Proofs.Pem.Block
import Mathlib.Data.List.Infix

/-!
# Blanks in front of a boundary

Whether an input is text is seen from what it starts with apart from blanks, but blocks are looked
for line by line, in all of it.  Blanks that are whole lines are passed over.  Blanks in the line
of the opening boundary hide it, for a boundary is recognised at the start of a line only.  Lines
are cut where they get too long, so that enough blanks in one line are whole lines again.

## Main definitions

* `IsBlank` — a text of blanks.
* `unfinished` — how many blanks stand in the line that follows them.

## Main results

* `exists_splitLines_blanks` — the lines of a text with blanks in front.
* `blocksOf_blanks` — **blanks that are whole lines do not matter.**
* `IsBlock.blocksOf_hidden` — **other blanks hide the boundary, and the block with it.**
-/

namespace Keyring.Pem

variable {w b line raw label content : Bytes} {lines : List Bytes}

/-- The bytes of the last line of a text, if it has not ended and was not cut either. -/
def unfinished (w : Bytes) : Nat := (w.reverse.takeWhile (· != newline)).length % maxLine

/-- A text of blanks. -/
def IsBlank (w : Bytes) : Prop := ∀ c ∈ w, isLeadingBlank c = true

instance : DecidablePred IsBlank := fun w => List.decidableBAll _ w

theorem IsBlank.isTrailing (h : IsBlank w) : ∀ c ∈ w, isTrailing c = true := by
  intro c hc
  have hblank := h c hc
  simp only [isLeadingBlank, Bool.or_eq_true, beq_iff_eq] at hblank
  rcases hblank with (((rfl | rfl) | rfl) | rfl) | rfl <;> decide

theorem IsBlank.reverse (h : IsBlank w) : IsBlank w.reverse :=
  fun c hc => h c (List.mem_reverse.mp hc)

theorem IsBlank.head_ne {c : UInt8} (h : IsBlank w) (hc : isLeadingBlank c = false) :
    w.head? ≠ some c := by
  intro hhead
  rw [h c (List.mem_of_head? hhead)] at hc
  cases hc

/-- What is text is text with blanks in front. -/
theorem isText_append (hw : IsBlank w) (hb : Bytes.ascii "-----BEGIN" <+: b) :
    isText (w ++ b) = true := by
  obtain ⟨rest, rfl⟩ := hb
  rw [isText, List.dropWhile_append_of_pos hw]
  exact List.isPrefixOf_iff_prefix.mpr (List.prefix_append _ rest)

/-! ### Lines of blanks -/

theorem unfinished_concat (w : Bytes) (c : UInt8) :
    unfinished (w ++ [c]) =
      if c = newline || unfinished w + 1 = maxLine then 0 else unfinished w + 1 := by
  rw [unfinished, unfinished, List.reverse_append, List.reverse_singleton, List.singleton_append]
  by_cases hc : c = newline
  · rw [List.takeWhile_cons_of_neg (by simp [hc]), hc]
    rfl
  · have hmod : ∀ n, (n + 1) % maxLine = if n % maxLine + 1 = maxLine then 0
        else n % maxLine + 1 := fun n => by
      unfold maxLine
      split <;> omega
    rw [List.takeWhile_cons_of_pos (by simp [hc]), List.length_cons, hmod]
    simp [hc]

/-- The lines of a text with blanks in front: lines of blanks, then those of the text with what is
left of the blanks. -/
theorem exists_splitLines_blanks (hw : IsBlank w) : ∃ passed tail,
    (∀ line ∈ passed, IsBlank line) ∧ IsBlank tail ∧ tail.length = unfinished w ∧
    ∀ b, splitLines (w ++ b) = passed ++ splitFrom tail.length tail b := by
  induction w using List.reverseRecOn with
  | nil => exact ⟨[], [], by simp, hw, rfl, fun b => rfl⟩
  | append_singleton w c ih =>
    obtain ⟨hblank, hc⟩ := List.forall_mem_append.mp hw
    obtain ⟨passed, tail, hpassed, htail, hlength, hsplit⟩ := ih hblank
    have hnext : IsBlank (c :: tail) :=
      List.forall_mem_cons.mpr ⟨hc c (List.mem_singleton_self c), htail⟩
    have hcons : ∀ b, splitLines (w ++ [c] ++ b) =
        passed ++ splitFrom tail.length tail (c :: b) := fun b => by
      rw [List.append_assoc, List.singleton_append, hsplit]
    simp only [splitFrom, hlength] at hcons
    rw [unfinished_concat]
    by_cases hend : (c = newline || unfinished w + 1 = maxLine) = true
    · -- the blanks so far are a line
      simp only [if_pos hend] at hcons ⊢
      refine ⟨passed ++ [(c :: tail).reverse], [], ?_, by simp [IsBlank], rfl, fun b => ?_⟩
      · refine List.forall_mem_append.mpr ⟨hpassed, fun line hline => ?_⟩
        rw [List.mem_singleton.mp hline]
        exact hnext.reverse
      · rw [hcons, List.append_assoc]
        rfl
    · simp only [if_neg hend] at hcons ⊢
      exact ⟨passed, c :: tail, hpassed, hnext, by rw [List.length_cons, hlength], fun b => by
        rw [hcons, List.length_cons, hlength]⟩

/-! ### Lines without a boundary -/

/-- Lines of blanks are empty. -/
theorem IsBlank.stripLine_eq (h : IsBlank line) : stripLine line = [] := by
  rw [stripLine, List.dropWhile_eq_nil_iff.mpr h.reverse.isTrailing]
  rfl

theorem labelOf?_stripLine_blank (h : IsBlank line) : labelOf? (stripLine line) = none := by
  rw [h.stripLine_eq]
  rfl

/-- A mark that is not there is not taken off. -/
theorem stripMark_eq (h : raw.head? ≠ some 0xef) : stripMark raw = raw := by
  rw [stripMark]
  split
  · next hmark =>
    cases raw with
    | nil => rfl
    | cons c rest =>
      simp only [List.take_succ_cons, Bool.and_eq_true, beq_iff_eq, List.cons.injEq] at hmark
      exact absurd (congrArg some hmark.2.1) h
  · rfl

/-- The search passes over a line without a boundary. -/
theorem findBlock_cons {first : Bool} (hhead : raw.head? ≠ some 0xef)
    (hlabel : labelOf? (stripLine raw) = none) :
    findBlock first (raw :: lines) = findBlock false lines := by
  have hmark : (if first then stripMark raw else raw) = raw := by
    rw [stripMark_eq hhead, ite_self]
  rw [findBlock, hmark, hlabel]

/-- The search passes over lines without a boundary. -/
theorem findBlock_append {first : Bool} {passed : List Bytes}
    (hpassed : ∀ line ∈ passed, line.head? ≠ some 0xef ∧ labelOf? (stripLine line) = none)
    (hhead : ∀ raw, lines.head? = some raw → raw.head? ≠ some 0xef) :
    findBlock first (passed ++ lines) = findBlock true lines := by
  induction passed generalizing first with
  | nil =>
    cases lines with
    | nil => rfl
    | cons raw rest =>
      have hmark := stripMark_eq (hhead raw rfl)
      rw [List.nil_append, findBlock, findBlock, hmark, ite_self, ite_self]
  | cons line passed ih =>
    obtain ⟨hline, hpassed⟩ := List.forall_mem_cons.mp hpassed
    rw [List.cons_append, findBlock_cons hline.1 hline.2, ih hpassed]

/-- Blocks are what searches find. -/
theorem blocks_eq (lines : List Bytes) :
    blocks lines = match nextBlock lines with
      | .nothing => []
      | .broken rest => none :: blocks rest
      | .block b rest => some b :: blocks rest := by
  cases lines with
  | nil => rw [blocks, nextBlock, findBlock]
  | cons line more =>
    rw [blocks]
    split <;> next h => simp only [h]

theorem blocks_congr {lines' : List Bytes} (h : nextBlock lines = nextBlock lines') :
    blocks lines = blocks lines' := by
  rw [blocks_eq, h, ← blocks_eq]

/-! ### Whole lines of blanks -/

/-- A line that has begun begins so. -/
theorem head?_splitFrom {n : Nat} {start : Bytes} (hstart : start ≠ []) :
    ∀ raw, (splitFrom n start b).head? = some raw → raw.head? = start.getLast? := by
  induction b generalizing n start with
  | nil =>
    intro raw hraw
    rw [splitFrom, if_neg (by simpa using hstart)] at hraw
    cases hraw
    rw [List.head?_reverse]
  | cons c rest ih =>
    intro raw hraw
    have hlast : (c :: start).getLast? = start.getLast? := List.getLast?_cons_of_ne_nil hstart
    rw [splitFrom] at hraw
    split at hraw
    · cases hraw
      rw [List.head?_reverse, hlast]
    · rw [ih (List.cons_ne_nil _ _) raw hraw, hlast]

theorem head?_splitLines (hb : b.head? = some 45) :
    ∀ raw, (splitLines b).head? = some raw → raw.head? = some 45 := by
  cases b with
  | nil => cases hb
  | cons c rest =>
    cases hb
    exact head?_splitFrom (List.cons_ne_nil 45 [])

theorem IsBlank.passed (h : IsBlank line) :
    line.head? ≠ some 0xef ∧ labelOf? (stripLine line) = none :=
  ⟨h.head_ne (by decide), labelOf?_stripLine_blank h⟩

/-- **Blanks that are whole lines do not matter.** -/
theorem blocksOf_blanks (hw : IsBlank w) (hunfinished : unfinished w = 0)
    (hb : b.head? = some 45) : blocksOf (w ++ b) = blocksOf b := by
  obtain ⟨passed, tail, hpassed, -, hlength, hsplit⟩ := exists_splitLines_blanks hw
  rw [hunfinished, List.length_eq_zero_iff] at hlength
  subst hlength
  rw [blocksOf, hsplit]
  refine blocks_congr (findBlock_append (fun line hline => (hpassed line hline).passed) ?_)
  intro raw hraw
  rw [head?_splitLines hb raw hraw]
  decide

/-! ### Blanks in the line of the boundary -/

/-- Without a boundary nothing is found. -/
theorem findBlock_eq_nothing (h : ∀ raw ∈ lines, labelOf? (stripLine raw) = none) :
    findBlock false lines = .nothing := by
  induction lines with
  | nil => rfl
  | cons raw rest ih =>
    obtain ⟨hraw, hrest⟩ := List.forall_mem_cons.mp h
    rw [findBlock, if_neg Bool.false_ne_true, hraw]
    exact ih hrest

theorem nextBlock_eq_nothing {passed : List Bytes} (hpassed : ∀ line ∈ passed, IsBlank line)
    (hhead : raw.head? ≠ some 0xef) (hraw : labelOf? (stripLine raw) = none)
    (h : ∀ raw ∈ lines, labelOf? (stripLine raw) = none) :
    nextBlock (passed ++ raw :: lines) = .nothing := by
  have hnext : ∀ raw', (raw :: lines).head? = some raw' → raw'.head? ≠ some 0xef := by
    intro raw' hraw'
    cases hraw'
    exact hhead
  rw [nextBlock, findBlock_append (fun line hline => (hpassed line hline).passed) hnext,
    findBlock_cons hhead hraw, findBlock_eq_nothing h]

/-- A line that does not start like a boundary is none. -/
theorem labelOf?_stripLine (h : ¬opening <+: line) : labelOf? (stripLine line) = none := by
  have hprefix : stripLine line <+: line := by
    obtain ⟨cut, hcut⟩ := List.dropWhile_suffix isTrailing (l := line.reverse)
    exact ⟨cut.reverse, by rw [stripLine, ← List.reverse_append, hcut, List.reverse_reverse]⟩
  have hno : opening.isPrefixOf (stripLine line) = false :=
    Bool.eq_false_iff.mpr fun hopening =>
      h ((List.isPrefixOf_iff_prefix.mp hopening).trans hprefix)
  rw [labelOf?, hno]
  rfl

theorem not_opening_of_head (h : line.head? ≠ some 45) : ¬opening <+: line := by
  rintro ⟨rest, rfl⟩
  exact h rfl

/-- A line that gets too long by what has been read before is cut once. -/
theorem splitFrom_line {n : Nat} (start : Bytes) (hraw : IsLine raw) (hn : n < maxLine)
    (rest : Bytes) :
    splitFrom n start (raw ++ rest) = (start.reverse ++ raw) :: splitLines rest ∨
      ∃ front back, raw = front ++ back ∧ front ≠ [] ∧
        splitFrom n start (raw ++ rest) = (start.reverse ++ front) :: back :: splitLines rest := by
  obtain ⟨line, rfl, hline, hlength⟩ := hraw
  rcases Nat.lt_or_ge (n + line.length) maxLine with hfits | hlong
  · refine .inl ?_
    rw [List.append_assoc, splitFrom_append _ hline hfits, List.singleton_append, splitFrom,
      if_pos (by simp)]
    simp [splitLines]
  · -- the line is cut after the byte `c`
    obtain ⟨front, c, back, rfl, hfront⟩ : ∃ front c back, line = front ++ c :: back ∧
        n + front.length + 1 = maxLine := by
      obtain ⟨m, hm⟩ : ∃ m, n + m + 1 = maxLine := ⟨maxLine - n - 1, by omega⟩
      have hdrop : line.drop m ≠ [] := by
        rw [Ne, List.drop_eq_nil_iff]
        omega
      obtain ⟨c, back, hback⟩ := List.exists_cons_of_ne_nil hdrop
      refine ⟨line.take m, c, back, ?_, ?_⟩
      · rw [← hback, List.take_append_drop]
      · rw [List.length_take]
        omega
    have hback : IsLine (back ++ [newline]) := by
      refine ⟨back, rfl, fun h => hline (by simp [h]), ?_⟩
      simp only [List.length_append, List.length_cons] at hlength ⊢
      omega
    have hno : newline ∉ front := fun h => hline (List.mem_append_left _ h)
    refine .inr ⟨front ++ [c], back ++ [newline], by simp, by simp, ?_⟩
    have happend : front ++ c :: back ++ [newline] ++ rest =
        front ++ c :: (back ++ [newline] ++ rest) := by simp
    rw [happend, splitFrom_append _ hno (by omega), splitFrom, if_pos (by simp [hfront]),
      ← splitLines, splitLines_append hback]
    simp

/-! ### Hidden blocks -/

/-- No end of a boundary is a start of it. -/
theorem opening_border : ∀ mid ∈ opening.tails, mid = [] ∨ mid = opening ∨ ¬mid <+: opening := by
  decide

/-- What follows the start of an opening boundary has no start of a boundary in it, if the label
is without hyphens. -/
theorem not_opening_behind {ending front back : Bytes} (hlabel : 45 ∉ label)
    (hending : ending ∈ lineEnds) (h : label ++ (dashes ++ ending) = front ++ back) :
    ¬opening <+: back := by
  intro hopening
  have hshort : ∀ as : Bytes, dashes ++ ending ≠ as ++ back := by
    intro as heq
    have hle := hopening.length_le
    have hlength := congrArg List.length heq
    have hlast := length_lineEnds (List.mem_cons_of_mem _ hending)
    have hsizes : opening.length = 11 ∧ dashes.length = 5 := by decide
    simp only [List.length_append, hsizes] at hlength hle
    omega
  rcases List.append_eq_append_iff.mp h with ⟨as, -, hrest⟩ | ⟨mid, hmid, hback⟩
  · exact hshort as hrest
  · cases mid with
    | nil => exact hshort [] hback.symm
    | cons c mid =>
      -- the line would start within the label, with a hyphen
      obtain ⟨rest, hrest⟩ := hopening
      rw [hback] at hrest
      have hc : (45 : UInt8) = c := (List.cons.inj hrest).1
      exact hlabel (by rw [hmid, hc]; simp)

/-- No boundary starts within an opening boundary whose label is without hyphens. -/
theorem not_opening_within {ending front back : Bytes} (hlabel : 45 ∉ label)
    (hending : ending ∈ lineEnds) (hfront : front ≠ [])
    (h : openingOf label ++ ending = front ++ back) : ¬opening <+: back := by
  rw [openingOf, List.append_assoc, List.append_assoc] at h
  rcases List.append_eq_append_iff.mp h with ⟨as, -, hrest⟩ | ⟨mid, hmid, hback⟩
  · exact not_opening_behind hlabel hending hrest
  · intro hopening
    have hmem : mid ∈ opening.tails := (List.mem_tails _ _).mpr ⟨front, hmid.symm⟩
    have hprefix : mid <+: opening := by
      refine List.prefix_of_prefix_length_le (hback ▸ List.prefix_append _ _) hopening ?_
      rw [hmid, List.length_append]
      exact Nat.le_add_left _ _
    rcases opening_border mid hmem with rfl | rfl | hno
    · exact not_opening_behind hlabel hending (hback.symm.trans (List.nil_append _).symm) hopening
    · exact hfront (List.append_left_eq_self.mp hmid.symm)
    · exact hno hprefix

theorem not_opening_closingOf (last : Bytes) : ¬opening <+: closingOf label ++ last := by
  intro hopening
  have hclosing : closing <+: closingOf label ++ last := by
    rw [closingOf, List.append_assoc, List.append_assoc]
    exact List.prefix_append _ _
  exact absurd (List.prefix_of_prefix_length_le hclosing hopening (by decide)) (by decide)

/-- The lines behind an opening boundary are none themselves. -/
theorem labelOf?_behind {ending last : Bytes} (h : ∀ line ∈ lines, IsContentLine line) :
    ∀ raw ∈ lines.map (· ++ ending) ++ [closingOf label ++ last],
      labelOf? (stripLine raw) = none := by
  refine List.forall_mem_append.mpr ⟨fun raw hraw => ?_, fun raw hraw => ?_⟩
  · obtain ⟨line, hline, rfl⟩ := List.mem_map.mp hraw
    have hcontent := h line hline
    refine labelOf?_stripLine (not_opening_of_head ?_)
    rw [List.head?_append_of_ne_nil _ hcontent.ne_nil]
    exact hcontent.head_ne
  · rw [List.mem_singleton.mp hraw]
    exact labelOf?_stripLine (not_opening_closingOf last)

/-- **Other blanks hide the boundary, and the block with it.** -/
theorem IsBlock.blocksOf_hidden (h : IsBlock label content b) (hlabel : IsLabel label)
    (hhyphen : 45 ∉ label) (hw : IsBlank w) (hunfinished : unfinished w ≠ 0) :
    blocksOf (w ++ b) = [] := by
  obtain ⟨lines, ending, last, rest, hending, hlast, -, hcontents, hopening, rfl, hsplit⟩ :=
    h.exists_split hlabel
  obtain ⟨passed, tail, hpassed, htail, hlength, hlines⟩ := exists_splitLines_blanks hw
  have hbehind : ∀ raw ∈ splitLines rest, labelOf? (stripLine raw) = none := by
    rw [hsplit]
    exact labelOf?_behind hcontents
  -- the line of the boundary starts with a blank
  have hfirst : ∀ front, ∀ c, isLeadingBlank c = false →
      (tail.reverse ++ front).head? ≠ some c := by
    intro front c hc
    have hne : tail ≠ [] := fun hnil => hunfinished (by rw [← hlength, hnil]; rfl)
    rw [List.head?_append_of_ne_nil _ (List.reverse_ne_nil_iff.mpr hne)]
    exact htail.reverse.head_ne hc
  have hlt : tail.length < maxLine := by
    rw [hlength]
    exact Nat.mod_lt _ (by decide)
  obtain ⟨front, more, hfront, hmore⟩ : ∃ front more,
      splitFrom tail.length tail (openingOf label ++ ending ++ rest) =
        (tail.reverse ++ front) :: more ∧ ∀ raw ∈ more, labelOf? (stripLine raw) = none := by
    rcases splitFrom_line tail hopening hlt rest with
      hwhole | ⟨front, back, heq, hne, hcut⟩
    · exact ⟨_, _, hwhole, hbehind⟩
    · have hback := labelOf?_stripLine (not_opening_within hhyphen hending hne heq)
      exact ⟨front, _, hcut, List.forall_mem_cons.mpr ⟨hback, hbehind⟩⟩
  have hlabel' := labelOf?_stripLine (not_opening_of_head (hfirst front 45 (by decide)))
  rw [blocksOf, hlines, hfront, blocks_eq,
    nextBlock_eq_nothing hpassed (hfirst front _ (by decide)) hlabel' hmore]

end Keyring.Pem
