import Stencil.Text.Blank

/-!
# Lines of a Markdown source

A line ends with a line feed, a carriage return, or the two together, and keeps its line break.

* `Markdown.Line`            a line and the line break after it;
* `Markdown.readLines`       the lines of a source;
* `Markdown.Line.isEmpty`    whether a line separates blocks.
-/

namespace Stencil.Markdown

def isLineBreak (c : Char) : Bool := c == '\n' || c == '\r'

/-- a line, and the line break after it, which the last line may lack -/
structure Line where
  text : Text
  ending : Text

/-- the lines of a source; a line feed after a carriage return belongs to it -/
def readLines : Text → List Line
  | [] => []
  | '\r' :: '\n' :: t => ⟨[], ['\r', '\n']⟩ :: readLines t
  | c :: t =>
    if isLineBreak c then ⟨[], [c]⟩ :: readLines t
    else
      match readLines t with
      | [] => [⟨[c], []⟩]
      | l :: ls => ⟨c :: l.text, l.ending⟩ :: ls

/-- whether a line separates blocks: it holds only blanks -/
def Line.isEmpty (l : Line) : Bool := l.text.all Text.isBlank

end Stencil.Markdown
