import Keyring.Pem.Base64

/-!
# Labelled blocks of text

A block stands between two boundary lines that name its content.  A header may
precede the content, ended by an empty line; it tells how the content is encrypted.
Blocks are looked for line by line; text between them is passed over.

## Main definitions

* `Block` — a block with its label, header and content.
* `splitLines` — the lines of a text.
* `nextBlock` — the next block, and the lines after it.
* `blocksOf` — all blocks of a text.
* `isText` — whether a byte string is taken for text with blocks.
-/

namespace Keyring.Pem

/-- A block. -/
structure Block where
  /-- What the boundary lines call it. -/
  label : Bytes
  /-- The lines before the content. -/
  header : List Bytes
  content : Bytes

/-- The longest part of a line that is read at once. -/
def maxLine : Nat := 254

/-- The line end. -/
def newline : UInt8 := 10

/-- The lines of a text, each with its end; longer ones are cut.  `n` bytes of a
line have been read, `line` is these bytes in reverse. -/
def splitFrom (n : Nat) (line : Bytes) : Bytes → List Bytes
  | [] => if line.isEmpty then [] else [line.reverse]
  | b :: rest =>
    if b = newline || n + 1 = maxLine then (b :: line).reverse :: splitFrom 0 [] rest
    else splitFrom (n + 1) (b :: line) rest

/-- The lines of a text, each with its end; longer ones are cut. -/
def splitLines (text : Bytes) : List Bytes := splitFrom 0 [] text

/-- Whether a byte at the end of a line does not count. -/
def isTrailing (b : UInt8) : Bool := b ≤ 32 || 0x80 ≤ b

/-- A line without its end. -/
def stripLine (line : Bytes) : Bytes := (line.reverse.dropWhile isTrailing).reverse

/-- A line without a byte order mark in front. -/
def stripMark (line : Bytes) : Bytes :=
  if line.length > 3 && line.take 3 == [0xef, 0xbb, 0xbf] then line.drop 3 else line

/-- The five hyphens around a boundary. -/
def dashes : Bytes := Bytes.ascii "-----"

/-- What an opening boundary starts with. -/
def opening : Bytes := Bytes.ascii "-----BEGIN "

/-- What a closing boundary starts with. -/
def closing : Bytes := Bytes.ascii "-----END "

/-- The label of an opening boundary. -/
def labelOf? (line : Bytes) : Option Bytes :=
  if opening.isPrefixOf line && dashes.isSuffixOf line then
    some ((line.drop opening.length).take (line.length - opening.length - dashes.length))
  else none

/-- Which part of a block the next line belongs to. -/
inductive Part where
  /-- Header or content: neither a colon nor an empty line was met. -/
  | undecided
  /-- The header: a colon was met. -/
  | header
  /-- The content: an empty line was met. -/
  | content
  deriving DecidableEq

/-- What was read of a block. -/
structure Progress where
  /-- The part. -/
  part : Part := .undecided
  /-- Whether the last line was cut. -/
  cut : Bool := false
  /-- Whether the content was followed by a line shorter than the others. -/
  ended : Bool := false
  /-- The lines before the empty line, in reverse. -/
  before : List Bytes := []
  /-- The lines after it, in reverse. -/
  after : List Bytes := []

/-- The block with the lines read. -/
def Progress.block (p : Progress) (label : Bytes) : Option Block :=
  let (header, lines) :=
    if p.part = .undecided then ([], p.before) else (p.before.reverse, p.after)
  match Base64.decode lines.reverse.flatten with
  | none | some [] => none
  | some content => some ⟨label, header, content⟩

/-- The progress with a line that is neither empty nor a boundary. -/
def Progress.add (p : Progress) (line : Bytes) : Option Progress :=
  if p.ended then none
  else if p.part ≠ .content then some { p with before := line :: p.before }
  else if 64 < line.length then none
  else some { p with after := line :: p.after, ended := line.length < 64 }

/-- Reads the lines after an opening boundary, through the closing one or the line
that does not belong there. -/
def readBlock (label : Bytes) (p : Progress) : List Bytes → Option Block × List Bytes
  | [] => (none, [])
  | raw :: rest =>
    let wasCut := p.cut
    -- a colon in the first line makes it a header
    let part := if p.part = .undecided && raw.contains 58 then .header else p.part
    let p := { p with part, cut := raw.length == maxLine && raw.getLast? != some newline }
    let line := stripLine raw
    if line.isEmpty then
      -- an empty rest of a line that was cut is no empty line
      if wasCut then readBlock label p rest
      else if p.part = .content then (none, rest)
      else readBlock label { p with part := .content } rest
    else if closing.isPrefixOf line then
      (if line = closing ++ label ++ dashes then p.block label else none, rest)
    else
      match p.add line with
      | none => (none, rest)
      | some p => readBlock label p rest

theorem length_readBlock (label : Bytes) (p : Progress) (lines : List Bytes) :
    (readBlock label p lines).2.length ≤ lines.length := by
  induction lines generalizing p with
  | nil => simp [readBlock]
  | cons raw rest ih =>
    simp only [readBlock]
    repeat' split
    all_goals first
      | exact Nat.le_succ_of_le (ih _)
      | simp

/-- What a search for the next block finds. -/
inductive Found where
  /-- No further opening boundary. -/
  | nothing
  /-- An opening boundary with no block behind it; the lines that follow. -/
  | broken (rest : List Bytes)
  /-- A block and the lines after it. -/
  | block (b : Block) (rest : List Bytes)

/-- Looks for the next block; `first` says that no line was looked at before. -/
def findBlock (first : Bool) : List Bytes → Found
  | [] => .nothing
  | raw :: rest =>
    match labelOf? (stripLine (if first then stripMark raw else raw)) with
    | none => findBlock false rest
    | some label =>
      match readBlock label {} rest with
      | (none, rest) => .broken rest
      | (some b, rest) => .block b rest

/-- The blocks of a text up to the first one that is broken. -/
def nextBlock (lines : List Bytes) : Found := findBlock true lines

/-- The number of lines left after a search. -/
def Found.left : Found → Nat
  | nothing => 0
  | broken rest => rest.length
  | block _ rest => rest.length

theorem left_findBlock (first : Bool) (lines : List Bytes) (h : lines ≠ []) :
    (findBlock first lines).left < lines.length := by
  induction lines generalizing first with
  | nil => exact absurd rfl h
  | cons raw rest ih =>
    simp only [findBlock]
    split
    · cases rest with
      | nil => simp [findBlock, Found.left]
      | cons r rs => exact Nat.lt_succ_of_lt (ih false (by simp))
    · rename_i label _
      have hl := length_readBlock label {} rest
      split
      · rename_i heq
        rw [heq] at hl
        exact Nat.lt_succ_of_le hl
      · rename_i heq
        rw [heq] at hl
        exact Nat.lt_succ_of_le hl

theorem left_nextBlock (lines : List Bytes) (h : lines ≠ []) :
    (nextBlock lines).left < lines.length := left_findBlock true lines h

/-- Everything that searches find one after the other: a block, or nothing where an
opening boundary has no block behind it. -/
def blocks (lines : List Bytes) : List (Option Block) :=
  match lines with
  | [] => []
  | line :: more =>
    match h : nextBlock (line :: more) with
    | .nothing => []
    | .broken rest =>
      have : rest.length < (line :: more).length := by
        have hl := left_nextBlock (line :: more) (List.cons_ne_nil line more)
        rw [h] at hl
        exact hl
      none :: blocks rest
    | .block b rest =>
      have : rest.length < (line :: more).length := by
        have hl := left_nextBlock (line :: more) (List.cons_ne_nil line more)
        rw [h] at hl
        exact hl
      some b :: blocks rest
termination_by lines.length
decreasing_by all_goals exact this

/-- The blocks of a text, in order. -/
def blocksOf (text : Bytes) : List (Option Block) := blocks (splitLines text)

/-- The first block with one of some labels, unless a broken one comes before it. -/
def firstLabelled (isWanted : Bytes → Bool) : List (Option Block) → Option Block
  | some b :: rest => if isWanted b.label then some b else firstLabelled isWanted rest
  | _ => none

/-- Whether a byte is blank in front of the first boundary. -/
def isLeadingBlank (b : UInt8) : Bool := b == 9 || b == 10 || b == 12 || b == 13 || b == 32

/-- Whether a byte string is text: apart from blanks it starts with a boundary. -/
def isText (input : Bytes) : Bool :=
  (Bytes.ascii "-----BEGIN").isPrefixOf (input.dropWhile isLeadingBlank)

end Keyring.Pem
