import Stencil.Command.Token
import Stencil.Proofs.Grammar.Expression
import Stencil.Proofs.LineShapes
import Stencil.Reference.Segment

/-!
# The grammar of a line

The rules that lines of a template are written by, and what the parts of a line mean.  The rules for
a command line, for the arguments of its head, for a text and for a single reference are read from
the start of a text.

* `Rule`                    the rules;
* `Rule.body`               what each rule reads;
* `Grammar.template`        the grammar of these rules;
* `Segment.Scans`           the segments that a text has by the grammar;
* `Reference.Refers`        the reference that a text is by the grammar, if it is one;
* `Head.Splits`             the arguments that a head has by the grammar;
* `LineShape.Shapes`        the kind that a line has by the grammar.
-/

namespace Stencil

inductive Rule
  | blank | escaped | group
  | commandLine | inlineCommand | head | inlineBody | terminator | blockCommand | blockHead
  | arguments | argument | referenceSpan | argChar
  | text | escape | reference | specifier | specChar | unclosed | literal | singleReference
  | endOfInput
deriving DecidableEq, Repr

namespace Rule

open Expression

/-- a backslash with the character that it escapes -/
def escapedPair : Expression Rule := seq (char '\\') (alt (char '#') (char '\\'))

/-- a group in parentheses, an escape, or else what `e` reads -/
def unitOr (e : Expression Rule) : Expression Rule := alt (rule group) (alt (rule escaped) e)

/-- `item`s with blanks between them, or none -/
def separated (item : Rule) : Expression Rule :=
  opt (seq (rule item) (many (seq (oneOrMore (rule blank)) (rule item))))

/-- `item`s with blanks between and around them, then `close` -/
def spacedOut (item : Rule) (close : Expression Rule) : Expression Rule :=
  seq (many (rule blank)) (seq (separated item) (seq (many (rule blank)) close))

def body : Rule → Expression Rule
  | blank => alt (char ' ') (char '\t')
  | escaped => escapedPair
  | group => seq (char '(') (seq (many (unitOr (butNot (char ')')))) (char ')'))
  | commandLine => seq (alt (rule inlineCommand) (rule blockCommand)) (rule endOfInput)
  | inlineCommand =>
    seq (char '$') (seq (rule head)
      (seq (char '$') (seq (rule inlineBody) (seq (char '$') (seq (rule terminator) (char '$'))))))
  | head => many (butNot (char '$'))
  | inlineBody =>
    many (butNot (seq (char '$') (seq (rule terminator) (seq (char '$') (rule endOfInput)))))
  | terminator => many (butNot (char '$'))
  | blockCommand => seq (char '$') (seq (rule blockHead) (char '$'))
  | blockHead => many (butNot (seq (char '$') (rule endOfInput)))
  | arguments => spacedOut argument (rule endOfInput)
  | argument => oneOrMore (alt (rule referenceSpan) (unitOr (alt (rule argChar) (char '#'))))
  | referenceSpan => seq (char '#') (seq (many (unitOr (butNot (char '#')))) (char '#'))
  | argChar => butNot (alt (rule blank) (char '#'))
  | text =>
    seq (many (alt (rule escape) (alt (rule reference) (alt (rule unclosed) (rule literal)))))
      (rule endOfInput)
  | escape => escapedPair
  | reference => seq (char '#') (spacedOut specifier (char '#'))
  | specifier => oneOrMore (unitOr (rule specChar))
  | specChar => butNot (alt (rule blank) (alt (char '#') (rule escaped)))
  | unclosed => seq (char '#') (many any)
  | literal => oneOrMore (butNot (alt (char '#') (rule escaped)))
  | singleReference => seq (rule reference) (rule endOfInput)
  | endOfInput => notAhead any

def isSilent : Rule → Bool
  | blank | escaped | group | referenceSpan | argChar | specChar => true
  | _ => false

end Rule

/-- the grammar that a line of a template is written in -/
def Grammar.template : Grammar Rule := ⟨Rule.body, Rule.isSilent⟩

namespace Pair

def textsOf (n : Rule) (ps : List (Pair Rule)) : List Text :=
  (ps.filter (·.rule = n)).map text

theorem textsOf_append (n : Rule) (ps qs : List (Pair Rule)) :
    textsOf n (ps ++ qs) = textsOf n ps ++ textsOf n qs := by
  rw [textsOf, List.filter_append, List.map_append]
  rfl

/-- the text of the first, second or a later part, nothing if it is missing -/
def textAt (ps : List (Pair Rule)) (k : Nat) : Text := (ps[k]?.map text).getD []

end Pair

/-! ## what the parts mean -/

namespace Reference

/-- the reference that the specifiers between two `#` spell -/
def ofPairs? (ps : List (Pair Rule)) : Option Reference :=
  match (Pair.textsOf .specifier ps).map unescape with
  | [] => none
  | name :: specifiers => some ⟨name, specifiers⟩

/-- the reference that a result of reading tells -/
def ofParsed? : Option (Parsed Rule) → Option Reference
  | some ⟨_, .mk _ _ (.mk _ _ ps :: _) :: _, _⟩ => ofPairs? ps
  | _ => none

/-- by the grammar, a text is this reference, or none; white space around it is left aside -/
def Refers (t : Text) (r? : Option Reference) : Prop :=
  ∃ o, Grammar.template.Reads (.rule .singleReference) t.trim o ∧ ofParsed? o = r?

end Reference

namespace Segment

/-- literal text in front of some segments; neighbouring pieces are one -/
def joinLiteral (t : Text) : List Segment → List Segment
  | .literal s :: ss => .literal (t ++ s) :: ss
  | ss => .literal t :: ss

/-- the segments that the parts of a text spell -/
def ofPairs : List (Pair Rule) → List Segment
  | [] => []
  | .mk n t inner :: ps =>
    match n with
    | .literal => joinLiteral t (ofPairs ps)
    | .escape => joinLiteral t.tail (ofPairs ps)
    | .reference => (Reference.ofPairs? inner).elim empty reference :: ofPairs ps
    | .unclosed => unclosed t.tail :: ofPairs ps
    | _ => ofPairs ps

/-- the segments of a text that a result of reading tells; the whole text is literal if it was not
read -/
def ofParsed (t : Text) : Option (Parsed Rule) → List Segment
  | some ⟨_, .mk _ _ ps :: _, _⟩ => ofPairs ps
  | _ => [literal t]

/-- by the grammar, a text has these segments -/
def Scans (t : Text) (ss : List Segment) : Prop :=
  ∃ o, Grammar.template.Reads (.rule .text) t o ∧ ofParsed t o = ss

end Segment

namespace Head

/-- by the grammar, a head has these arguments -/
def Splits (t : Text) (args : List Text) : Prop :=
  ∃ s ps r, Grammar.template.Reads (.rule .arguments) t (some ⟨s, [.mk .arguments s ps], r⟩) ∧
    Pair.textsOf .argument ps = args

end Head

namespace LineShape

/-- the kind of a line that a result of reading tells -/
def ofParsed (line : Text) : Option (Parsed Rule) → LineShape
  | some ⟨_, .mk _ _ (.mk .inlineCommand _ ps :: _) :: _, _⟩ =>
    if (Pair.textAt ps 2).trim ≠ endName then flawed (.noInlineEnd line.trim)
    else
      match Head.ofText? (Pair.textAt ps 0) line true with
      | none => flawed (.emptyCommand line.trim)
      | some head => inline head (Pair.textAt ps 1)
  | some ⟨_, .mk _ _ (.mk .blockCommand _ ps :: _) :: _, _⟩ =>
    match Head.ofText? (Pair.textAt ps 0) line false with
    | none => flawed (.emptyCommand line.trim)
    | some head => block head
  | _ => text

def Shapes (line : Text) (k : LineShape) : Prop :=
  if line.Fenced then
    ∃ o, Grammar.template.Reads (.rule .commandLine) line.trim o ∧ ofParsed line o = k
  else k = text

end LineShape

end Stencil
