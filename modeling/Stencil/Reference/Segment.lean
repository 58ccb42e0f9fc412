import Stencil.Reference.Basic

/-!
# Segments of a line

A line of text is a row of literal pieces and references.

* `Segment`          a literal piece, a reference, an empty reference `##`, or a `#` without an end;
* `Segment.scan`     the segments of a text; neighbouring literal characters are one piece;
* `Segment.write`    a segment as text.
-/

namespace Stencil

/-- a part of a line -/
inductive Segment
  | literal (t : Text)
  | reference (r : Reference)
  | empty
  | unclosed (rest : Text)
deriving DecidableEq, Repr

namespace Segment

def consLiteral (c : Char) : List Segment → List Segment
  | .literal t :: ss => .literal (c :: t) :: ss
  | ss => .literal [c] :: ss

/-- the segment that the units between two `#` are -/
def ofUnits (us : List Text) : Segment :=
  match Reference.ofUnits? us with
  | some r => .reference r
  | none => .empty

def scan (t : Text) : List Segment :=
  match t with
  | [] => []
  | c :: t =>
    if c = '#' then
      match _ : walk t with
      | none => [.unclosed t]
      | some (us, r) => ofUnits us :: scan r
    else
      match t with
      | [] => [.literal [c]]
      | d :: r =>
        if c = '\\' ∧ needsEscape d then consLiteral d (scan r) else consLiteral c (scan (d :: r))
termination_by t.length
decreasing_by
  · rename_i h
    have hl := length_of_walk h
    simp only [List.length_cons]
    omega
  · simp only [List.length_cons]
    omega
  · simp only [List.length_cons]
    omega

def write : Segment → Text
  | .literal t => escape t
  | .reference r => r.write
  | .empty => "##".toList
  | .unclosed rest => '#' :: rest

end Segment

end Stencil
