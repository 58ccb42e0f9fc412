import Stencil.Proofs.Reading

/-!
# Commands in one line with their text

A command that stands in one line with its text takes the place that a line of text would take, at
whatever depth: the rest of the tree and the problems noted on building it do not depend on which
of the two stands there, and the commands around it have the line in their raw bodies.

An `end` in one line with a text is no such command.  It is taken for two ends with a text between
them (`Levels.ofLines_inlineEnd`), which close what they do not belong to (`inlineEnd_closes`).

* `Place`             a place for a node in a tree;
* `Gap`               a block with a place for a node and for its line;
* `Reading.wrapAll_gap`   a place in a block is a place in the commands around the block;
* `Engine.Stands`         a line that gives a node at a place;
* `Engine.parse_inline`   the place of a line in a template.
-/

namespace Stencil

/-! ## places -/

/-- a place in a row of nodes, or in the body of a command of the row, where some lines of the body
stand above and below the line at the place -/
inductive Place
  | here (front back : List Node)
  | within (front : List Node) (head : Head) (above below : List Text) (place : Place)
    (back : List Node)

namespace Place

/-- the nodes with a node at the place, which was read from a line -/
def fill (node : Node) (line : Text) : Place → List Node
  | here front back => front ++ node :: back
  | within front head above below place back =>
    front ++ .command head (Text.joinLines (above ++ line :: below)) (place.fill node line) :: back

def between (front back : List Node) : Place → Place
  | here f b => here (front ++ f) (b ++ back)
  | within f head above below place b => within (front ++ f) head above below place (b ++ back)

theorem fill_between (node : Node) (line : Text) (front back : List Node) (place : Place) :
    (place.between front back).fill node line = front ++ place.fill node line ++ back := by
  cases place <;> simp [between, fill]

end Place

/-- a block with a place for a node, and the lines above and below the line of the node -/
structure Gap where
  place : Place
  above : List Text
  below : List Text

namespace Gap

def fill (node : Node) (line : Text) (g : Gap) : Block :=
  ⟨g.place.fill node line, g.above ++ line :: g.below⟩

def between (b c : Block) (g : Gap) : Gap :=
  ⟨g.place.between b.nodes c.nodes, b.lines ++ g.above, g.below ++ c.lines⟩

theorem fill_between (node : Node) (line : Text) (b c : Block) (g : Gap) :
    (g.between b c).fill node line = (b.append (g.fill node line)).append c := by
  show (⟨(g.place.between b.nodes c.nodes).fill node line,
      b.lines ++ g.above ++ line :: (g.below ++ c.lines)⟩ : Block) =
    ⟨b.nodes ++ g.place.fill node line ++ c.nodes,
      b.lines ++ (g.above ++ line :: g.below) ++ c.lines⟩
  rw [Place.fill_between, List.append_assoc b.lines g.above,
    List.append_assoc b.lines (g.above ++ _), List.append_assoc g.above]
  rfl

/-- the place in the body of a command -/
def inside (head : Head) (g : Gap) : Gap :=
  ⟨.within [] head g.above g.below g.place [], head.source :: g.above, g.below⟩

theorem fill_inside (node : Node) (line : Text) (head : Head) (g : Gap) :
    (g.inside head).fill node line =
      .one (.command head (Text.joinLines (g.fill node line).lines) (g.fill node line).nodes)
        (head.source :: (g.fill node line).lines) := rfl

end Gap

/-! ## places in levels -/

/-- a place in the first level is one after a command was put in front, which takes the level -/
theorem Levels.wrap_gap (head : Head) (g : Gap) (later : List (Text × Block))
    (names : List Text) :
    ∃ (g' : Gap) (later' : List (Text × Block)) (names' : List Text), ∀ (node : Node) (line : Text),
      Levels.wrap head ⟨g.fill node line, later, names⟩ = ⟨g'.fill node line, later', names'⟩ := by
  cases later with
  | nil =>
    refine ⟨g.inside head, [], head.name :: names, fun node line => ?_⟩
    rw [Gap.fill_inside, ← Block.append_empty (.one _ _)]
    rfl
  | cons e later =>
    -- the end of the command and what follows it come to stand behind the place
    refine ⟨(g.inside head).between .empty (Block.append ⟨[], [e.1]⟩ e.2), later, names,
      fun node line => ?_⟩
    rw [Gap.fill_between, Gap.fill_inside, Block.empty_append, ← Block.append_assoc]
    rfl

theorem Reading.wrapAll_gap (cs : List OpenCommand) (g : Gap) (later : List (Text × Block))
    (names : List Text) :
    ∃ (g' : Gap) (later' : List (Text × Block)) (names' : List Text), ∀ (node : Node) (line : Text),
      wrapAll cs ⟨g.fill node line, later, names⟩ = ⟨g'.fill node line, later', names'⟩ := by
  induction cs generalizing g later names with
  | nil => exact ⟨g, later, names, fun _ _ => rfl⟩
  | cons c cs ih =>
    obtain ⟨g₁, later₁, names₁, h₁⟩ :=
      Levels.wrap_gap c.head (g.between c.body .empty) later names
    obtain ⟨g₂, later₂, names₂, h₂⟩ := ih g₁ later₁ names₁
    refine ⟨g₂, later₂, names₂, fun node line => ?_⟩
    rw [← h₂, ← h₁, Gap.fill_between, Block.append_empty]
    rfl

/-- a line that gives one node has a place in the levels of the lines around it -/
theorem Levels.exists_place (above below : List Text) :
    ∃ (place : Place) (problems : List Problem), ∀ (node : Node) (line : Text),
      ofLines (line :: below) = (ofLines below).push node [line] →
      (ofLines (above ++ line :: below)).nodes = place.fill node line ∧
        (ofLines (above ++ line :: below)).problems = problems := by
  -- the node comes to stand in front of what is below, inside the commands that are open above
  let r := Reading.ofLines above
  let l := ofLines below
  obtain ⟨g, later, names, hg⟩ :=
    Reading.wrapAll_gap r.opened ⟨.here [] l.first.nodes, [], l.first.lines⟩ l.later l.unclosed
  refine ⟨g.place.between r.nodes (later.flatMap fun e => e.2.nodes),
    r.strayEnds ++ Levels.problems ⟨.empty, later, names⟩, fun node line h => ?_⟩
  have hlevels : ofLines (above ++ line :: below) = r.before (l.push node [line]) := by
    rw [ofLines_append, h]
  have hwrap : Reading.wrapAll r.opened (l.push node [line]) =
      ⟨g.fill node line, later, names⟩ := hg node line
  rw [hlevels, Reading.nodes_before, Reading.problems_before, hwrap, Place.fill_between,
    List.append_assoc]
  exact ⟨rfl, rfl⟩

/-! ## the place of a line in a template -/

theorem Text.splitOn_around (above below : List Text) {line : Text} (h : '\n' ∉ line) :
    (joinLines (above ++ line :: below)).splitOn '\n' =
      above.flatMap (List.splitOn '\n') ++ line :: below.flatMap (List.splitOn '\n') := by
  have hne : above ++ line :: below ≠ [] := List.append_ne_nil_of_right_ne_nil _ (by simp)
  rw [splitOn_joinLines hne, List.flatMap_append, List.flatMap_cons,
    List.splitOn_eq_singleton h]
  rfl

/-- between some lines a line gives a node at a place, and these are the problems noted on building
the tree -/
structure Engine.Stands {σ : Type} (e : Engine σ) (above below : List Text) (place : Place)
    (problems : List Problem) (line : Text) (node : Node) : Prop where
  nodes : (e.parse (Text.joinLines (above ++ line :: below))).1 = place.fill node line
  problems : (e.parse (Text.joinLines (above ++ line :: below))).2.log.problems =
    e.log.problems ++ (Token.problemsOf (Text.joinLines (above ++ line :: below)) ++ problems)

/-- **A command in one line with its text stands where a line of text would stand**: for lines
above and below there is a place and there are problems such that, whichever of the two stands
between them, the tree is what has its node and its line at this place, and these are the problems
noted on building the tree.  The command must not be an `end`. -/
theorem Engine.parse_inline {σ : Type} (e : Engine σ) (above below : List Text) :
    ∃ (place : Place) (problems : List Problem), ∀ line : Text, '\n' ∉ line →
      (Token.ofLine line = [.text line] →
        e.Stands above below place problems line (.text line)) ∧
      ∀ (head : Head) (body : Text), LineShape.of line = .inline head body → head.isEnd = false →
        e.Stands above below place problems line (.command head body [.text body]) := by
  obtain ⟨place, problems, hplace⟩ := Levels.exists_place (above.flatMap (List.splitOn '\n'))
    (below.flatMap (List.splitOn '\n'))
  refine ⟨place, problems, fun line hline => ?_⟩
  have hstands (node : Node) (h : Levels.ofLines (line :: below.flatMap (List.splitOn '\n')) =
      (Levels.ofLines (below.flatMap (List.splitOn '\n'))).push node [line]) :
      e.Stands above below place problems line node := by
    obtain ⟨hnodes, hproblems⟩ := hplace node line h
    rw [← Text.splitOn_around above below hline] at hnodes hproblems
    refine ⟨?_, ?_⟩
    · rw [parse_eq]
      exact hnodes
    · rw [parse_eq, ← hproblems]
      rfl
  refine ⟨fun htext => hstands _ ?_, fun head body hinline hend => hstands _ ?_⟩
  · show Levels.ofTokens (Token.ofLine line ++ _) = _
    rw [htext]
    exact Levels.ofTokens_text line _
  · exact Levels.ofLines_inline hinline hend _

theorem parse_inline_within :
    ∃ (place : Place) (problems : List Problem),
      (Engine.new {} Host.bare () .congruence).Stands ["$if a$".toList] ["$end$".toList] place
        problems "x".toList (.text "x".toList) ∧
      (Engine.new {} Host.bare () .congruence).Stands ["$if a$".toList] ["$end$".toList] place
        problems "$md$x$end$".toList
        (.command ⟨"md".toList, [], true, "$md$x$end$".toList⟩ "x".toList [.text "x".toList]) := by
  obtain ⟨place, problems, h⟩ :=
    (Engine.new {} Host.bare () .congruence).parse_inline ["$if a$".toList] ["$end$".toList]
  have htext : Token.ofLine "x".toList = [.text "x".toList] := by cbv
  have hinline : LineShape.of "$md$x$end$".toList =
      .inline ⟨"md".toList, [], true, "$md$x$end$".toList⟩ "x".toList := by cbv
  exact ⟨place, problems, (h "x".toList (by decide)).1 htext,
    (h "$md$x$end$".toList (by decide)).2 _ _ hinline (by decide)⟩

/-- an `end` in one line with a text closes the command around it, and then there is an `end` too
many: a line of text at its place stands in the body of that command, and leaves it open -/
theorem inlineEnd_closes :
    let e := Engine.new {} Host.bare () .congruence
    let head : Head := ⟨"if".toList, ["a".toList], false, "$if a$".toList⟩
    let line := "$end$x$end$".toList
    LineShape.of line = .inline ⟨endName, [], true, line⟩ "x".toList ∧
      (e.parse "$if a$\nx".toList).1 = [.command head "x".toList [.text "x".toList]] ∧
      (e.parse "$if a$\nx".toList).2.log.problems = [.unclosedCommand "if".toList] ∧
      (e.parse "$if a$\n$end$x$end$".toList).1 = [.command head [] [], .text "x".toList] ∧
      (e.parse "$if a$\n$end$x$end$".toList).2.log.problems = [.strayEnd] := by
  refine ⟨?_, ?_, ?_, ?_, ?_⟩
  · cbv
  · cbv
  · cbv
  · cbv
  · cbv

end Stencil
