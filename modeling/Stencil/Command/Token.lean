import Stencil.Command.Arguments
import Stencil.Problem

/-!
# Tokens

A template is read line by line. A line between two `$` is a command; a line of the shape
`$head$body$end$` is a command with its text; all other lines are text.

* `Head`               a command: its name, its parameters, and the line it was read from;
* `Token`              a line of text or a command;
* `LineShape`          what kind of line a line is;
* `LineShape.of`       the kind of a line;
* `Token.ofLine`       the tokens of a line;
* `Token.ofSource`     the tokens of a template;
* `Token.problemsOf`   the problems noted on reading it.
-/

namespace Stencil

/-- a command: its name and parameters, whether it stands in one line with its text, and the line
it was read from -/
structure Head where
  name : Text
  params : List Text
  isInline : Bool
  source : Text
deriving DecidableEq, Repr

/-- the name of the command that ends a block -/
def endName : Text := "end".toList

namespace Head

def isEnd (h : Head) : Bool := h.name = endName

/-- the command that a head spells; none if the head has no argument -/
def ofText? (text source : Text) (isInline : Bool) : Option Head :=
  match splitArguments text with
  | [] => none
  | name :: params => some ⟨name, params, isInline, source⟩

theorem source_of_ofText? {text source : Text} {isInline : Bool} {head : Head}
    (h : ofText? text source isInline = some head) :
    head.source = source ∧ head.isInline = isInline := by
  unfold ofText? at h
  split at h
  · simp at h
  · simp only [Option.some.injEq] at h
    subst h
    exact ⟨rfl, rfl⟩

/-- the end that belongs to a command which stands in one line with its text -/
def inlineEnd : Head := ⟨endName, [], true, []⟩

end Head

/-- a line of text or a command -/
inductive Token
  | text (line : Text)
  | command (head : Head)
deriving DecidableEq, Repr

/-! ## lines -/

/-- what kind of line a line is; a line that looks like a command and is none is text with a
problem -/
inductive LineShape
  | text
  | flawed (p : Problem)
  | block (head : Head)
  | inline (head : Head) (body : Text)

namespace LineShape

/-- the text between the two `$` that a line has to start and to end with -/
def inside? : Text → Option Text
  | [] => none
  | c :: t => if c = '$' then Text.dropEnd? '$' t else none

/-- the head, the text and the last word of the inside of `$head$text$word$` -/
def parts? (inside : Text) : Option (Text × Text × Text) :=
  (Text.cutAt '$' inside).bind fun (head, rest) =>
    (Text.cutAtLast '$' rest).map fun (body, word) => (head, body, word)

def of (line : Text) : LineShape :=
  match inside? line.trim with
  | none => text
  | some inside =>
    match parts? inside with
    | none =>
      match Head.ofText? inside line false with
      | none => flawed (.emptyCommand line.trim)
      | some head => block head
    | some (headText, body, word) =>
      if word.trim ≠ endName then flawed (.noInlineEnd line.trim)
      else
        match Head.ofText? headText line true with
        | none => flawed (.emptyCommand line.trim)
        | some head => inline head body

theorem source_of_block {line : Text} {head : Head} (h : of line = block head) :
    head.source = line ∧ head.isInline = false := by
  unfold of at h
  split at h
  · simp at h
  · split at h
    · split at h
      · simp at h
      · rename_i hh
        simp only [block.injEq] at h
        rw [← h]
        exact Head.source_of_ofText? hh
    · split at h
      · simp at h
      · split at h <;> simp at h

theorem source_of_inline {line body : Text} {head : Head} (h : of line = inline head body) :
    head.source = line ∧ head.isInline = true := by
  unfold of at h
  split at h
  · simp at h
  · split at h
    · split at h <;> simp at h
    · split at h
      · simp at h
      · split at h
        · simp at h
        · rename_i hh
          simp only [inline.injEq] at h
          rw [← h.1]
          exact Head.source_of_ofText? hh

def tokens (line : Text) : LineShape → List Token
  | text => [.text line]
  | flawed _ => [.text line]
  | block head => [.command head]
  | inline head body => [.command head, .text body, .command Head.inlineEnd]

def problems : LineShape → List Problem
  | flawed p => [p]
  | _ => []

end LineShape

namespace Token

def ofLine (line : Text) : List Token := (LineShape.of line).tokens line

def problemsOfLine (line : Text) : List Problem := (LineShape.of line).problems

def ofSource (source : Text) : List Token := (List.splitOn '\n' source).flatMap ofLine

/-- the problems noted on reading a template into tokens -/
def problemsOf (source : Text) : List Problem := (List.splitOn '\n' source).flatMap problemsOfLine

end Token

end Stencil
