import Stencil.Proofs.RawBody

/-!
# Templates read from the first line

The levels of a template are built from its last line to its first.  Read the other way, what was
read so far is a row of blocks, cut at the ends that closed nothing, and a stack of commands that
are still open, each with what was read of its body.  The two ways meet in the middle: the levels
of some lines and others behind them are the levels of those behind, put behind what was read of
those in front (`Levels.ofLines_append`).

* `Block.append`, `Levels.prepend`   a block in front of a block, and in front of levels;
* `OpenCommand`              a command that is open, with what was read of its body;
* `Reading`                  what was read so far;
* `Reading.step`             a line more;
* `Reading.before`           levels put behind what was read;
* `Reading.before_step`      putting a line into what was read, or in front of what is behind it;
* `Template.openAtEnd`       the commands that are open at the end of a template;
* `problems_read`            they are the ones that the problems of the template name.
-/

namespace Stencil

/-! ## blocks in front of others -/

namespace Block

def one (node : Node) (lines : List Text) : Block := ⟨[node], lines⟩

def append (b c : Block) : Block := ⟨b.nodes ++ c.nodes, b.lines ++ c.lines⟩

theorem append_empty (b : Block) : b.append empty = b := by
  show (⟨b.nodes ++ [], b.lines ++ []⟩ : Block) = b
  rw [List.append_nil, List.append_nil]

theorem empty_append (b : Block) : empty.append b = b := rfl

theorem append_assoc (b c d : Block) : (b.append c).append d = b.append (c.append d) := by
  show (⟨_ ++ _ ++ _, _ ++ _ ++ _⟩ : Block) = ⟨_ ++ (_ ++ _), _ ++ (_ ++ _)⟩
  rw [List.append_assoc, List.append_assoc]

end Block

namespace Levels

def prepend (b : Block) (l : Levels) : Levels := { l with first := b.append l.first }

theorem prepend_prepend (b c : Block) (l : Levels) :
    (l.prepend c).prepend b = l.prepend (b.append c) := by
  show ({ l with first := b.append (c.append l.first) } : Levels) = _
  rw [← Block.append_assoc]
  rfl

theorem nodes_prepend (b : Block) (l : Levels) : (l.prepend b).nodes = b.nodes ++ l.nodes :=
  List.append_assoc _ _ _

theorem problems_prepend (b : Block) (l : Levels) : (l.prepend b).problems = l.problems := rfl

theorem problems_cut (source : Text) (l : Levels) :
    (l.cut source).problems = .strayEnd :: l.problems := rfl

/-- an `end` in one line with a text is read as two ends with the text between them -/
theorem ofLines_inlineEnd {line body : Text} {head : Head}
    (h : LineShape.of line = .inline head body) (he : head.isEnd = true) (lines : List Text) :
    ofLines (line :: lines) =
      (((ofLines lines).cut []).prepend (.one (.text body) [body])).cut line := by
  have htokens : ofLines (line :: lines) = ofTokens (.command head :: .text body ::
      .command Head.inlineEnd :: lines.flatMap Token.ofLine) := by
    rw [ofLines_cons, h]
    rfl
  rw [htokens, ofTokens_end he, ofTokens_text, ofTokens_end rfl, (LineShape.source_of_inline h).1]
  rfl

end Levels

/-! ## what was read -/

/-- a command that is open, with what was read of its body -/
structure OpenCommand where
  head : Head
  body : Block

/-- the command with all of its body, and with the line of its end if it has one -/
def OpenCommand.closed (c : OpenCommand) (last : List Text) : Block :=
  .one (.command c.head (Text.joinLines c.body.lines) c.body.nodes)
    (c.head.source :: c.body.lines ++ last)

/-- what was read so far: blocks, each with the end behind it that closed nothing, then what was
read behind the last such end, and the commands that are open, innermost first -/
structure Reading where
  past : List (Block × Text)
  outer : Block
  opened : List OpenCommand

namespace Reading

/-- nothing read yet -/
def start : Reading := ⟨[], .empty, []⟩

def add (b : Block) (r : Reading) : Reading :=
  match r.opened with
  | [] => { r with outer := r.outer.append b }
  | c :: cs => { r with opened := { c with body := c.body.append b } :: cs }

/-- a command read, which is open then -/
def openWith (head : Head) (r : Reading) : Reading :=
  { r with opened := ⟨head, .empty⟩ :: r.opened }

/-- an `end` read, which closes the innermost open command -/
def close (source : Text) (r : Reading) : Reading :=
  match r.opened with
  | [] => { r with past := r.past ++ [(r.outer, source)], outer := .empty }
  | c :: cs => add (c.closed [source]) { r with opened := cs }

/-- a line read -/
def step (r : Reading) (line : Text) : Reading :=
  match LineShape.of line with
  | .block head => if head.isEnd then r.close line else r.openWith head
  | .inline head body =>
    if head.isEnd then ((r.close line).add (.one (.text body) [body])).close []
    else r.add (.one (.command head body [.text body]) [line])
  | _ => r.add (.one (.text line) [line])

def ofLines (lines : List Text) : Reading := lines.foldl step start

/-! ## levels behind what was read -/

/-- levels behind what was read of some open commands, innermost first -/
def wrapAll (cs : List OpenCommand) (l : Levels) : Levels :=
  cs.foldl (fun l c => (l.prepend c.body).wrap c.head) l

/-- levels behind some blocks, each with an end behind it that closed nothing -/
def cutAll (past : List (Block × Text)) (l : Levels) : Levels :=
  past.foldr (fun p l => (l.cut p.2).prepend p.1) l

/-- levels behind what was read -/
def before (r : Reading) (l : Levels) : Levels :=
  cutAll r.past ((wrapAll r.opened l).prepend r.outer)

theorem wrap_cut (c : OpenCommand) (source : Text) (l : Levels) :
    ((l.cut source).prepend c.body).wrap c.head = l.prepend (c.closed [source]) := by
  have hbody : (l.cut source).prepend c.body =
      ⟨c.body, (source, l.first) :: l.later, l.unclosed⟩ := by
    show (⟨c.body.append .empty, (source, l.first) :: l.later, l.unclosed⟩ : Levels) = _
    rw [Block.append_empty]
  rw [hbody]
  rfl

theorem before_add (b : Block) (r : Reading) (l : Levels) :
    (r.add b).before l = r.before (l.prepend b) := by
  obtain ⟨past, outer, opened⟩ := r
  cases opened with
  | nil =>
    show cutAll past (l.prepend (outer.append b)) = cutAll past ((l.prepend b).prepend outer)
    rw [Levels.prepend_prepend]
  | cons c cs =>
    show cutAll past ((wrapAll cs ((l.prepend (c.body.append b)).wrap c.head)).prepend outer) =
      cutAll past ((wrapAll cs (((l.prepend b).prepend c.body).wrap c.head)).prepend outer)
    rw [Levels.prepend_prepend]

theorem before_openWith (head : Head) (r : Reading) (l : Levels) :
    (r.openWith head).before l = r.before (l.wrap head) := rfl

theorem before_close (source : Text) (r : Reading) (l : Levels) :
    (r.close source).before l = r.before (l.cut source) := by
  obtain ⟨past, outer, opened⟩ := r
  cases opened with
  | nil =>
    show cutAll (past ++ [(outer, source)]) l = cutAll past ((l.cut source).prepend outer)
    unfold cutAll
    rw [List.foldr_append]
    rfl
  | cons c cs =>
    show (add (c.closed [source]) ⟨past, outer, cs⟩).before l =
      before ⟨past, outer, cs⟩ (((l.cut source).prepend c.body).wrap c.head)
    rw [before_add, wrap_cut]

/-- a line is put into what was read in front of it, or in front of the levels behind it -/
theorem before_step (r : Reading) (line : Text) (lines : List Text) :
    (r.step line).before (Levels.ofLines lines) = r.before (Levels.ofLines (line :: lines)) := by
  unfold step
  cases hs : LineShape.of line with
  | text => rw [Levels.ofLines_text hs]; exact before_add _ r _
  | flawed p => rw [Levels.ofLines_flawed hs]; exact before_add _ r _
  | block head =>
    cases he : head.isEnd with
    | true =>
      rw [Levels.ofLines_end hs he, ← before_close]
      exact congrArg (fun r' => before r' _) (if_pos he)
    | false =>
      rw [Levels.ofLines_block hs he, ← before_openWith]
      exact congrArg (fun r' => before r' _) (if_neg (by rw [he]; decide))
  | inline head body =>
    cases he : head.isEnd with
    | true =>
      rw [Levels.ofLines_inlineEnd hs he, ← before_close, ← before_add, ← before_close]
      exact congrArg (fun r' => before r' _) (if_pos he)
    | false =>
      rw [Levels.ofLines_inline hs he]
      refine (congrArg (fun r' => before r' _) (if_neg (by rw [he]; decide))).trans ?_
      exact before_add _ r _

theorem before_foldl (r : Reading) (above below : List Text) :
    (above.foldl step r).before (Levels.ofLines below) =
      r.before (Levels.ofLines (above ++ below)) := by
  induction above generalizing r with
  | nil => rfl
  | cons line above ih => rw [List.foldl_cons, ih, before_step, List.cons_append]

end Reading

theorem Levels.ofLines_append (above below : List Text) :
    ofLines (above ++ below) = (Reading.ofLines above).before (ofLines below) :=
  (Reading.before_foldl .start above below).symm

/-! ## nodes and problems -/

namespace Reading

def nodes (r : Reading) : List Node := (r.past.flatMap fun p => p.1.nodes) ++ r.outer.nodes

def strayEnds (r : Reading) : List Problem := r.past.map fun _ => .strayEnd

theorem nodes_cutAll (past : List (Block × Text)) (l : Levels) :
    (cutAll past l).nodes = (past.flatMap fun p => p.1.nodes) ++ l.nodes := by
  induction past with
  | nil => rfl
  | cons p past ih =>
    show ((Levels.cut p.2 (cutAll past l)).prepend p.1).nodes = _
    rw [Levels.nodes_prepend, Levels.nodes_cut, ih, List.flatMap_cons, List.append_assoc]

theorem problems_cutAll (past : List (Block × Text)) (l : Levels) :
    (cutAll past l).problems = (past.map fun _ => .strayEnd) ++ l.problems := by
  induction past with
  | nil => rfl
  | cons p past ih =>
    show ((Levels.cut p.2 (cutAll past l)).prepend p.1).problems = _
    rw [Levels.problems_prepend, Levels.problems_cut, ih]
    rfl

theorem nodes_before (r : Reading) (l : Levels) :
    (r.before l).nodes = r.nodes ++ (wrapAll r.opened l).nodes := by
  unfold before
  rw [nodes_cutAll, Levels.nodes_prepend, ← List.append_assoc]
  rfl

theorem problems_before (r : Reading) (l : Levels) :
    (r.before l).problems = r.strayEnds ++ (wrapAll r.opened l).problems := by
  unfold before
  rw [problems_cutAll, Levels.problems_prepend]
  rfl

/-! ## commands open at the end -/

/-- some open commands, innermost first, around a block, each with the same lines behind its body -/
def encloseAll (last : List Text) (cs : List OpenCommand) (b : Block) : Block :=
  cs.foldl (fun b c => OpenCommand.closed { c with body := c.body.append b } last) b

/-- without an end behind them the commands are left unclosed -/
theorem wrapAll_unclosed (cs : List OpenCommand) (b : Block) (names : List Text) :
    wrapAll cs ⟨b, [], names⟩ =
      ⟨encloseAll [] cs b, [], (cs.map fun c => c.head.name).reverse ++ names⟩ := by
  induction cs generalizing b names with
  | nil => rfl
  | cons c cs ih =>
    show wrapAll cs ⟨OpenCommand.closed { c with body := c.body.append b } [], [],
      c.head.name :: names⟩ = _
    rw [ih, List.map_cons, List.reverse_cons, List.append_assoc]
    rfl

theorem problems_wrapAll_empty (cs : List OpenCommand) :
    (wrapAll cs .empty).problems = cs.map fun c => .unclosedCommand c.head.name := by
  show (wrapAll cs ⟨.empty, [], []⟩).problems = _
  rw [wrapAll_unclosed, List.append_nil]
  show [] ++ ((cs.map fun c => c.head.name).reverse.reverse).map Problem.unclosedCommand = _
  rw [List.nil_append, List.reverse_reverse, List.map_map]
  rfl

end Reading

/-! ## templates -/

namespace Template

/-- what was read at the end of a template -/
def reading (source : Text) : Reading := .ofLines (List.splitOn '\n' source)

/-- the commands that are open at the end of a template, innermost first -/
def openAtEnd (source : Text) : List Head := (reading source).opened.map (·.head)

theorem levels_read (source : Text) :
    Levels.ofTokens (Token.ofSource source) = (reading source).before .empty := by
  have h := Levels.ofLines_append (List.splitOn '\n' source) []
  rw [List.append_nil, Levels.ofLines_nil] at h
  exact h

/-- the problems of a template: those of its lines, an end without a command for each end that
closed nothing, and the commands that are open at its end -/
theorem problems_read (source : Text) :
    (read source).problems = Token.problemsOf source ++ ((reading source).strayEnds ++
      (openAtEnd source).map fun h => .unclosedCommand h.name) := by
  show Token.problemsOf source ++ (Levels.ofTokens (Token.ofSource source)).problems = _
  rw [levels_read, Reading.problems_before, Reading.problems_wrapAll_empty, openAtEnd,
    List.map_map]
  rfl

theorem nodes_read (source : Text) : (read source).nodes =
    (reading source).nodes ++ (Reading.encloseAll [] (reading source).opened .empty).nodes := by
  show (Levels.ofTokens (Token.ofSource source)).nodes = _
  rw [levels_read, Reading.nodes_before]
  show _ ++ (Reading.wrapAll _ ⟨.empty, [], []⟩).nodes = _
  rw [Reading.wrapAll_unclosed]
  show _ ++ (_ ++ []) = _
  rw [List.append_nil]

end Template

end Stencil
