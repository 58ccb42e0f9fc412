import Stencil.Proofs.LineShapes

/-!
# Blocks around a template

A template that leaves no command open, and in which every `end` closes a command, can be put
between a command and an `end`: its nodes are the body of the command, whatever stands below.

* `Template.Balanced`          a template that opens as many commands as it closes;
* `Template.Balanced.before`   levels behind such a template;
* `Template.balanced_of_problems_eq_nil`, `Template.balanced_line`   such templates: one that is
                               read without a problem, a line of text;
* `Levels.ofLines_inBlock`     the levels of a block around such a template;
* `Template.read_block`        what is read from a block with some lines below it.
-/

namespace Stencil

namespace Template

/-- no command of the template is open at its end, and every `end` in it closes a command -/
structure Balanced (source : Text) : Prop where
  closed : openAtEnd source = []
  noStray : .strayEnd ∉ (read source).problems

namespace Balanced

variable {source : Text} (h : Balanced source)
include h

theorem past_eq : (reading source).past = [] := by
  refine List.eq_nil_iff_forall_not_mem.mpr fun p hp => h.noStray ?_
  have hstray : .strayEnd ∈ (reading source).strayEnds := List.mem_map.mpr ⟨p, hp, rfl⟩
  rw [problems_read]
  exact List.mem_append_right _ (List.mem_append_left _ hstray)

theorem opened_eq : (reading source).opened = [] := List.map_eq_nil_iff.mp h.closed

/-- all that was read stands in one block -/
theorem before (l : Levels) : (reading source).before l = l.prepend (reading source).outer := by
  unfold Reading.before
  rw [h.past_eq, h.opened_eq]
  rfl

theorem nodes_eq : (read source).nodes = (reading source).outer.nodes := by
  rw [nodes_read, Reading.nodes, h.past_eq, h.opened_eq]
  exact List.append_nil _

theorem problems_eq : (read source).problems = Token.problemsOf source := by
  rw [problems_read, Reading.strayEnds, h.past_eq, h.closed]
  exact List.append_nil _

end Balanced

theorem balanced_of_problems_eq_nil {source : Text} (h : (read source).problems = []) :
    Balanced source := by
  refine ⟨?_, ?_⟩
  · rw [problems_read] at h
    exact List.map_eq_nil_iff.mp (List.append_eq_nil_iff.mp (List.append_eq_nil_iff.mp h).2).2
  · rw [h]
    exact List.not_mem_nil

/-! ## one line of text -/

section
variable {line : Text} (hl : '\n' ∉ line) (hs : ¬line.Fenced)
include hl hs

theorem reading_line : reading line = ⟨[], .one (.text line) [line], []⟩ := by
  rw [reading, List.splitOn_eq_singleton hl]
  show Reading.step .start line = _
  rw [Reading.step, LineShape.of_notFenced hs]
  rfl

theorem problemsOf_line : Token.problemsOf line = [] := by
  rw [Token.problemsOf, List.splitOn_eq_singleton hl, List.flatMap_singleton, Token.problemsOfLine,
    LineShape.of_notFenced hs]
  rfl

theorem balanced_line : Balanced line := by
  have hopen : openAtEnd line = [] := by
    rw [openAtEnd, reading_line hl hs]
    rfl
  refine ⟨hopen, ?_⟩
  rw [problems_read, problemsOf_line hl hs, hopen, reading_line hl hs]
  exact List.not_mem_nil

end

end Template

/-! ## a block -/

/-- a command read from a line of its own takes such a template as its body -/
theorem Levels.ofLines_around {line source : Text} {head : Head}
    (hl : LineShape.of line = .block head) (he : head.isEnd = false)
    (hs : Template.Balanced source) (below : List Text) :
    ofLines (line :: (List.splitOn '\n' source ++ endLine :: below)) =
      (ofLines below).prepend (OpenCommand.closed ⟨head, (Template.reading source).outer⟩
        [endLine]) := by
  rw [ofLines_block hl he, ofLines_append]
  show Levels.wrap head ((Template.reading source).before _) = _
  rw [hs.before, ofLines_end LineShape.of_endLine rfl, ← Reading.wrap_cut]

section
variable {head name : Text} {params : List Text} (h : '$' ∉ head)
  (ha : splitArguments head = name :: params)
include h ha

theorem Token.problemsOf_commandLine : Token.problemsOfLine (commandLine head) = [] := by
  rw [problemsOfLine, LineShape.of_commandLine h ha]
  rfl

variable (he : name ≠ endName) {source : Text} (hs : Template.Balanced source)
include he hs

theorem Levels.ofLines_inBlock (below : List Text) :
    ofLines (commandLine head :: (List.splitOn '\n' source ++ endLine :: below)) =
      (ofLines below).prepend (OpenCommand.closed
        ⟨⟨name, params, false, commandLine head⟩, (Template.reading source).outer⟩ [endLine]) :=
  ofLines_around (LineShape.of_commandLine h ha) (decide_eq_false he) hs below

/-- a block with some lines below it: the nodes of the template are the body of the command -/
theorem Template.read_block (hl : '\n' ∉ head) {below : List Text} (hb : ∀ t ∈ below, '\n' ∉ t) :
    read (Text.joinLines (commandLine head :: source :: endLine :: below)) =
      ⟨.command ⟨name, params, false, commandLine head⟩
          (Text.joinLines (reading source).outer.lines) (read source).nodes ::
            (Levels.ofLines below).nodes,
        (read source).problems ++ below.flatMap Token.problemsOfLine ++
          (Levels.ofLines below).problems⟩ := by
  have hline : '\n' ∉ commandLine head := by simp [commandLine, hl]
  have hlines : (commandLine head :: source :: endLine :: below).flatMap (List.splitOn '\n') =
      commandLine head :: (List.splitOn '\n' source ++ endLine :: below) := by
    rw [List.flatMap_cons, List.flatMap_cons, List.flatMap_cons, List.splitOn_eq_singleton hline,
      List.splitOn_eq_singleton (by decide : '\n' ∉ endLine), Text.flatMap_splitOn hb]
    rfl
  have hproblems : (commandLine head :: (List.splitOn '\n' source ++ endLine :: below)).flatMap
      Token.problemsOfLine = (read source).problems ++ below.flatMap Token.problemsOfLine := by
    have hend : Token.problemsOfLine endLine = [] := by
      rw [Token.problemsOfLine, LineShape.of_endLine]
      rfl
    rw [List.flatMap_cons, List.flatMap_append, List.flatMap_cons, hend, hs.problems_eq,
      Token.problemsOf_commandLine h ha]
    rfl
  rw [read_joinLines (List.cons_ne_nil _ _), hlines, hproblems,
    Levels.ofLines_inBlock h ha he hs, Levels.nodes_prepend, Levels.problems_prepend, hs.nodes_eq]
  rfl

end

end Stencil
