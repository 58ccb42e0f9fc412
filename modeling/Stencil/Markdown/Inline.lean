import Stencil.Text.Basic

/-!
# Parts of a paragraph

* `Markdown.escapeText`       a text in HTML, where four characters have names;
* `Markdown.element`          a text inside an element;
* `Markdown.Inline`           a part of a paragraph;
* `Markdown.Inline.toHtml`    a part of a paragraph in HTML.
-/

namespace Stencil.Markdown

/-! ## HTML -/

/-- a character of a text in HTML; the null character becomes the replacement character -/
def escapeChar (c : Char) : Text :=
  if c = '&' then "&amp;".toList
  else if c = '<' then "&lt;".toList
  else if c = '>' then "&gt;".toList
  else if c = '\"' then "&quot;".toList
  else if c = '\x00' then ['\ufffd']
  else [c]

def escapeText (t : Text) : Text := t.flatMap escapeChar

def element (name : String) (inner : Text) : Text :=
  ('<' :: name.toList ++ ['>']) ++ inner ++ ('<' :: '/' :: name.toList ++ ['>'])

/-! ## parts -/

inductive Inline
  | text (t : Text)
  | code (t : Text)
  | hardBreak
  | emphasis (inner : List Inline)
  | strong (inner : List Inline)

mutual

def Inline.toHtml : Inline → Text
  | .text t => escapeText t
  | .code t => element "code" (escapeText t)
  | .hardBreak => "<br />".toList
  | .emphasis inner => element "em" (Inline.allToHtml inner)
  | .strong inner => element "strong" (Inline.allToHtml inner)

def Inline.allToHtml : List Inline → Text
  | [] => []
  | i :: is => i.toHtml ++ Inline.allToHtml is

end

end Stencil.Markdown
