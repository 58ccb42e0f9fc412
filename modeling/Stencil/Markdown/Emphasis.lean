import Stencil.Markdown.Piece

/-!
# Matching of emphasis

The runs of marks of a paragraph are matched like brackets.  A run that closes is matched with the
nearest earlier run that opens and suits it; the runs between the two become text.  Two marks of
each run make strong emphasis, one mark of each makes emphasis, and what is left of either run is
matched further.

* `Markdown.MarkRun.suits`   whether two runs may be matched;
* `Markdown.Level`           a run that was opened, and the parts in front of it;
* `Markdown.Nesting`         the parts and the open runs of the pieces read so far;
* `Markdown.Nesting.addRun`  a further run of marks;
* `Markdown.readInline`      the parts of a text.
-/

namespace Stencil.Markdown

/-! ## suitable runs -/

/-- whether a run that opens and a run that closes may be matched: the marks are the same, and if
one of the runs could do both, the sum of the sizes is a multiple of three only if the sizes are -/
def MarkRun.suits (opener closer : MarkRun) : Bool :=
  opener.mark = closer.mark
    && !((opener.closes || closer.opens) && closer.size % 3 ≠ 0
      && (opener.size + closer.size) % 3 = 0)

/-- the number of marks that two runs give to one emphasis -/
def MarkRun.shared (opener closer : MarkRun) : Nat :=
  if 2 ≤ opener.size ∧ 2 ≤ closer.size then 2 else 1

theorem MarkRun.shared_pos (opener closer : MarkRun) : 0 < opener.shared closer := by
  unfold MarkRun.shared
  split <;> decide

def MarkRun.less (r : MarkRun) (n : Nat) : MarkRun := ⟨r.mark, r.size - n, r.opens, r.closes⟩

/-- the emphasis that `n` marks on either side make -/
def emphasise (n : Nat) (inner : List Inline) : Inline :=
  if n = 2 then .strong inner else .emphasis inner

/-! ## open runs -/

/-- a run that was opened, and the parts in front of it up to the run opened before, last first -/
structure Level where
  before : List Inline
  run : MarkRun

/-- the parts after the last open run, last first, and the open runs, last first -/
structure Nesting where
  inner : List Inline
  levels : List Level

/-- an open run that was found, the parts after it, last first, and the open runs in front of it -/
structure Opening where
  inner : List Inline
  level : Level
  outer : List Level

/-- the last open run that suits a run that closes; the open runs after it become text -/
def findOpening (closer : MarkRun) (inner : List Inline) : List Level → Option Opening
  | [] => none
  | l :: ls =>
    if l.run.suits closer then some ⟨inner, l, ls⟩
    else findOpening closer (inner ++ l.run.literal :: l.before) ls

/-- the nesting after an emphasis with `n` marks on either side; an opening run with marks left
stays open -/
def Opening.close (o : Opening) (n : Nat) : Nesting :=
  let part := emphasise n o.inner.reverse
  if o.level.run.size ≤ n then ⟨part :: o.level.before, o.outer⟩
  else ⟨[part], ⟨o.level.before, o.level.run.less n⟩ :: o.outer⟩

namespace Nesting

def empty : Nesting := ⟨[], []⟩

def addPart (m : Nesting) (i : Inline) : Nesting := ⟨i :: m.inner, m.levels⟩

/-- a run that closes nothing: it is open from here on, or it is text -/
def leaveRun (m : Nesting) (r : MarkRun) : Nesting :=
  if r.opens then ⟨[], ⟨m.inner, r⟩ :: m.levels⟩ else m.addPart r.literal

/-- a further run of marks: it closes open runs as long as it has marks and finds them -/
def addRun (m : Nesting) (r : MarkRun) : Nesting :=
  match if r.closes then findOpening r m.inner m.levels else none with
  | none => m.leaveRun r
  | some o =>
    let n := o.level.run.shared r
    if r.size ≤ n then o.close n else addRun (o.close n) (r.less n)
termination_by r.size
decreasing_by
  have hn := MarkRun.shared_pos o.level.run r
  simp only [MarkRun.less]
  omega

def add (m : Nesting) : Piece → Nesting
  | .part i => m.addPart i
  | .marks r => m.addRun r

/-- the parts in front of and after the open runs, last first, the runs as text -/
def flatten (inner : List Inline) : List Level → List Inline
  | [] => inner
  | l :: ls => flatten (inner ++ l.run.literal :: l.before) ls

/-- all parts in order, the runs that are still open as text -/
def parts (m : Nesting) : List Inline := (flatten m.inner m.levels).reverse

end Nesting

/-! ## texts -/

/-- the parts of a text that stands after the character `before`; blanks in front of it do not
count -/
def readInline (before : Option Char) (t : Text) : List Inline :=
  ((readPieces before (t.dropWhile Text.isBlank)).foldl Nesting.add Nesting.empty).parts

end Stencil.Markdown
