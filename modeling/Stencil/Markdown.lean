import Stencil.Markdown.Emphasis

/-!
# Markdown

Paragraphs and headings, with code, emphasis and strong emphasis in them.  This is only a part of
CommonMark, to have something to run with: lists, quotes, links and what else there is are taken for
text.  A host renders Markdown as it likes, and what is proved here rests on none of its ways.

* `Markdown.Block`        a paragraph or a heading;
* `Markdown.readBlocks`   the blocks of some lines;
* `Markdown.render`       Markdown as HTML; a block keeps the line break after it.
-/

namespace Stencil.Markdown

/-! ## blocks -/

/-- a paragraph or a heading of some level, and the line break after it; the text of a heading
stands after the character `before` -/
inductive Block
  | paragraph (text ending : Text)
  | heading (level : Nat) (before : Option Char) (text ending : Text)

/-- what frames the text of a heading: blanks and `#` -/
def isFrame (c : Char) : Bool := Text.isBlank c || c == '#'

/-- the text of a heading without the frame around it; a `#` at the end of a word belongs to the
word -/
def headingText (t : Text) : Text :=
  let inner := t.dropWhile isFrame
  let frame := (inner.reverse.takeWhile isFrame).reverse
  inner.take (inner.length - frame.length) ++ frame.takeWhile (· = '#')

/-- the heading that a line is: up to three spaces, up to six `#`, and a blank after them -/
def Line.heading? (l : Line) : Option Block :=
  let indent := (l.text.takeWhile (· = ' ')).length
  let t := l.text.drop indent
  let level := (t.takeWhile (· = '#')).length
  let rest := t.drop level
  if indent ≤ 3 ∧ 1 ≤ level ∧ level ≤ 6 ∧ rest.head?.all Text.isBlank then
    some (.heading level (rest.takeWhile isFrame).getLast? (headingText rest) l.ending)
  else none

def Line.isParagraph (l : Line) : Bool := !l.isEmpty && l.heading?.isNone

/-- a line in front of some blocks; it joins a paragraph that follows it directly -/
def consLine (l : Line) (joins : Bool) : List Block → List Block
  | .paragraph text ending :: bs =>
    if joins then .paragraph (l.text ++ l.ending ++ text) ending :: bs
    else .paragraph l.text l.ending :: .paragraph text ending :: bs
  | bs => .paragraph l.text l.ending :: bs

def readBlocks : List Line → List Block
  | [] => []
  | l :: ls =>
    if l.isEmpty then readBlocks ls
    else
      match l.heading? with
      | some b => b :: readBlocks ls
      | none => consLine l (ls.head?.any Line.isParagraph) (readBlocks ls)

/-! ## HTML -/

def Block.toHtml : Block → Text
  | .paragraph text ending => element "p" (Inline.allToHtml (readInline none text)) ++ ending
  | .heading level before text ending =>
    element s!"h{level}" (Inline.allToHtml (readInline before text)) ++ ending

def render (source : Text) : Text :=
  let t := if source.head? = some '\ufeff' then source.tail else source
  (readBlocks (readLines t)).flatMap Block.toHtml

end Stencil.Markdown
