import Stencil.Markdown.Inline
import Stencil.Markdown.Line
import Stencil.Text.Punctuation

/-!
# Pieces of a paragraph

The text of a paragraph is read from left to right into pieces.  Most pieces are parts of the
paragraph already; a run of `*` or of `_` only may open or close emphasis, which its neighbours
decide, and is matched with other runs afterwards.

* `Markdown.MarkRun`      a run of marks;
* `Markdown.Piece`        a part of a paragraph, or a run of marks;
* `Markdown.nextPiece`    the piece at the start of a text;
* `Markdown.readPieces`   the pieces of a text.
-/

namespace Stencil.Markdown

/-! ## runs of marks -/

/-- a run of `size` times the same mark, and whether emphasis may start or end with it -/
structure MarkRun where
  mark : Char
  size : Nat
  opens : Bool
  closes : Bool

def isMark (c : Char) : Bool := c == '*' || c == '_'

/-- what stands beside a run of marks; the start and the end of a text count as space -/
inductive Neighbour
  | space
  | punctuation
  | word
deriving DecidableEq

/-- what a character is beside a run of marks -/
def Neighbour.of : Option Char → Neighbour
  | none => .space
  | some c =>
    if Text.isSpace c then .space else if Text.isPunctuation c then .punctuation else .word

/-- whether a run leans on the text at its side `near`, the other side being `far`: on a word
always, on punctuation only away from a word, and always on another mark -/
def leans (near far : Option Char) : Bool :=
  match Neighbour.of near with
  | .word => true
  | .punctuation => Neighbour.of far ≠ .word || near.any isMark
  | .space => false

/-- a run of marks between two characters: it may open if it leans on what follows, and close if
it leans on what precedes; inside a word `_` does neither -/
def MarkRun.between (before after : Option Char) (mark : Char) (size : Nat) : MarkRun :=
  let opens := leans after before
  let closes := leans before after
  if mark = '_' then
    ⟨mark, size, opens && (Neighbour.of before ≠ .word || !closes),
      closes && (Neighbour.of after ≠ .word || !opens)⟩
  else ⟨mark, size, opens, closes⟩

def MarkRun.literal (r : MarkRun) : Inline := .text (List.replicate r.size r.mark)

/-! ## pieces -/

/-- a part of a paragraph, or a run of marks that is still to be matched -/
inductive Piece
  | part (i : Inline)
  | marks (r : MarkRun)

/-- what was read at the start of a text: a piece or nothing, the last character of it, and the
text after it -/
structure Step where
  piece? : Option Piece
  last : Char
  rest : Text

def Step.text (t : Text) (last : Char) (rest : Text) : Step := ⟨some (.part (.text t)), last, rest⟩

/-! ## code -/

/-- the text up to the next run of exactly `n` backticks and the text after that run, when `run`
backticks have just been read -/
def untilBackticks (n : Nat) (run : Nat) : Text → Option (Text × Text)
  | [] => if run = n then some ([], []) else none
  | c :: t =>
    if c = '\x60' then untilBackticks n (run + 1) t
    else if run = n then some ([], c :: t)
    else (untilBackticks n 0 t).map fun (s, r) => (List.replicate run '\x60' ++ c :: s, r)

/-- a text with a space for every line break -/
def spaceLines : Text → Text
  | [] => []
  | '\r' :: '\n' :: t => ' ' :: spaceLines t
  | c :: t => (if isLineBreak c then ' ' else c) :: spaceLines t

/-- code as it is shown: line breaks are spaces, and one space goes at either end if both ends have
one and the code is not all spaces -/
def codeText (t : Text) : Text :=
  let s := spaceLines t
  if s.head? = some ' ' ∧ s.getLast? = some ' ' ∧ s.any (· ≠ ' ') then s.tail.dropLast else s

/-- what follows a backtick: code up to a run of as many backticks, or else the backticks as text -/
def readBackticks (t : Text) : Step :=
  let n := (t.takeWhile (· = '\x60')).length + 1
  let r := t.dropWhile (· = '\x60')
  match untilBackticks n 0 r with
  | some (s, u) => ⟨some (.part (.code (codeText s))), '\x60', u⟩
  | none => .text (List.replicate n '\x60') '\x60' r

/-! ## the other pieces -/

/-- what follows a backslash: punctuation as text, or a line break that is kept, or else the
backslash is text -/
def readEscape : Text → Step
  | [] => .text ['\\'] '\\' []
  | c :: t =>
    if Text.isAsciiPunctuation c then .text [c] c t
    else if isLineBreak c then ⟨some (.part .hardBreak), '\\', c :: t⟩
    else .text ['\\'] '\\' (c :: t)

/-- the characters that have a name in HTML -/
def namedChars : List (Text × Char) :=
  [("amp;".toList, '&'), ("lt;".toList, '<'), ("gt;".toList, '>'), ("quot;".toList, '\"')]

/-- what follows an ampersand: the name of a character, or else the ampersand is text -/
def readName (t : Text) : Step :=
  match namedChars.find? fun n => n.1.isPrefixOf t with
  | some (name, c) => .text [c] ';' (t.drop name.length)
  | none => .text ['&'] '&' t

/-- what follows a blank: blanks at the end of a line are dropped, but two or more spaces in front
of another line keep the line break -/
def readBlanks (c : Char) (t : Text) : Step :=
  let blanks := c :: t.takeWhile Text.isBlank
  match t.dropWhile Text.isBlank with
  | [] => ⟨none, c, []⟩
  | d :: u =>
    if !isLineBreak d then .text blanks c (d :: u)
    else if 2 ≤ blanks.length ∧ blanks.all (· = ' ') then ⟨some (.part .hardBreak), c, d :: u⟩
    else ⟨none, c, d :: u⟩

/-- the piece at the start of a text `c :: t` that stands after the character `before` -/
def nextPiece (before : Option Char) (c : Char) (t : Text) : Step :=
  if c = '\x60' then readBackticks t
  else if c = '\\' then readEscape t
  else if c = '&' then readName t
  else if isLineBreak c then .text [c] c (t.dropWhile Text.isBlank)
  else if Text.isBlank c then readBlanks c t
  else if isMark c then
    let r := t.dropWhile (· = c)
    ⟨some (.marks (.between before r.head? c ((t.takeWhile (· = c)).length + 1))), c, r⟩
  else .text [c] c t

/-! ## every piece takes a character -/

theorem length_of_untilBackticks {n run : Nat} {t s r : Text}
    (h : untilBackticks n run t = some (s, r)) : r.length ≤ t.length := by
  induction t generalizing run s with
  | nil =>
    simp only [untilBackticks] at h
    split at h
    · simp only [Option.some.injEq, Prod.mk.injEq] at h
      exact h.2 ▸ Nat.le_refl _
    · simp at h
  | cons c t ih =>
    simp only [untilBackticks] at h
    split at h
    · exact Nat.le_succ_of_le (ih h)
    · split at h
      · simp only [Option.some.injEq, Prod.mk.injEq] at h
        exact h.2 ▸ Nat.le_refl _
      · obtain ⟨⟨s', r'⟩, hu, he⟩ := Option.map_eq_some_iff.mp h
        simp only [Prod.mk.injEq] at he
        obtain ⟨rfl, rfl⟩ := he
        exact Nat.le_succ_of_le (ih hu)

theorem length_readBackticks_le (t : Text) : (readBackticks t).rest.length ≤ t.length := by
  unfold readBackticks
  have hd := (List.dropWhile_sublist (l := t) (· = '\x60')).length_le
  dsimp only
  split
  · rename_i h
    exact Nat.le_trans (length_of_untilBackticks h) hd
  · exact hd

theorem length_readEscape_le (t : Text) : (readEscape t).rest.length ≤ t.length := by
  cases t with
  | nil => exact Nat.le_refl _
  | cons c t =>
    simp only [readEscape]
    split
    · exact Nat.le_succ _
    · split <;> exact Nat.le_refl _

theorem length_readName_le (t : Text) : (readName t).rest.length ≤ t.length := by
  unfold readName
  split
  · simp only [Step.text, List.length_drop]
    omega
  · exact Nat.le_refl _

theorem length_readBlanks_le (c : Char) (t : Text) : (readBlanks c t).rest.length ≤ t.length := by
  unfold readBlanks
  have hd := (List.dropWhile_sublist (l := t) Text.isBlank).length_le
  dsimp only
  split
  · exact Nat.zero_le _
  · rename_i h
    rw [h] at hd
    split
    · exact hd
    · split <;> exact hd

theorem length_nextPiece_le (before : Option Char) (c : Char) (t : Text) :
    (nextPiece before c t).rest.length ≤ t.length := by
  unfold nextPiece
  split
  · exact length_readBackticks_le t
  split
  · exact length_readEscape_le t
  split
  · exact length_readName_le t
  split
  · exact (List.dropWhile_sublist _).length_le
  split
  · exact length_readBlanks_le c t
  split
  · exact (List.dropWhile_sublist _).length_le
  · exact Nat.le_refl _

/-! ## whole texts -/

/-- the pieces of a text that stands after the character `before` -/
def readPieces (before : Option Char) : Text → List Piece
  | [] => []
  | c :: t =>
    let step := nextPiece before c t
    step.piece?.toList ++ readPieces (some step.last) step.rest
termination_by t => t.length
decreasing_by exact Nat.lt_succ_of_le (length_nextPiece_le before c t)

end Stencil.Markdown
