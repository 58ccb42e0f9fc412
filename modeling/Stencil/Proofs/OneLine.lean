import Stencil.Proofs.Block

/-!
# A command in one line and as a block

A command whose text is one line can be written in one line with it, or as a block of three lines.
The two trees differ in what the head of the command tells of its line, which rendering does not
read (`Setting.renderNodes_ofLine`), so that both ways give the same (`Engine.render_inOneLine`).
-/

namespace Stencil

/-- a command does what its name and its parameters say, whatever line it was read from -/
theorem Setting.renderNodes_ofLine {σ : Type} (set : Setting σ) (name : Text) (params : List Text)
    (isInline isInline' : Bool) (line line' rawBody : Text) (body : List Node) (scope : Scope) :
    set.renderNodes [.command ⟨name, params, isInline, line⟩ rawBody body] scope =
      set.renderNodes [.command ⟨name, params, isInline', line'⟩ rawBody body] scope := by
  rw [renderNodes, renderNodes, renderNode, renderNode]
  rfl

namespace Template

section
variable {head name body : Text} {params : List Text} (h : '$' ∉ head) (hl : '\n' ∉ head)
  (ha : splitArguments head = name :: params) (he : name ≠ endName) (hb : '\n' ∉ body)
include h hl ha he hb

theorem read_commandLineWith : read (commandLineWith head body) =
    ⟨[.command ⟨name, params, true, commandLineWith head body⟩ body [.text body]], []⟩ := by
  have hshape := LineShape.of_commandLineWith h ha body
  have hend : ('\n' : Char) ∉ endName := by decide
  have hline : '\n' ∉ commandLineWith head body := by
    simp [commandLineWith, hl, hb, hend]
  have hlevels : Levels.ofTokens (Token.ofSource (commandLineWith head body)) =
      Levels.empty.push (.command ⟨name, params, true, commandLineWith head body⟩ body
        [.text body]) [commandLineWith head body] := by
    show Levels.ofLines (List.splitOn '\n' _) = _
    rw [List.splitOn_eq_singleton hline, Levels.ofLines_inline hshape (decide_eq_false he),
      Levels.ofLines_nil]
  have hproblems : Token.problemsOf (commandLineWith head body) = [] := by
    rw [Token.problemsOf, List.splitOn_eq_singleton hline, List.flatMap_singleton,
      Token.problemsOfLine, hshape]
    rfl
  unfold read
  rw [hlevels, hproblems]
  rfl

theorem read_blockOfLine (hs : ¬body.Fenced) :
    read (Text.joinLines [commandLine head, body, endLine]) =
      ⟨[.command ⟨name, params, false, commandLine head⟩ body [.text body]], []⟩ := by
  have hbody : (reading body).outer = .one (.text body) [body] := by
    rw [reading_line hb hs]
  have hbalanced := balanced_line hb hs
  rw [read_block h ha he hbalanced hl (fun t ht => absurd ht List.not_mem_nil),
    hbalanced.nodes_eq, hbalanced.problems_eq, problemsOf_line hb hs, hbody, Levels.ofLines_nil]
  show (⟨[.command _ (Text.joinLines [body]) [.text body]], []⟩ : Template) = _
  rw [Text.joinLines_singleton]

end

end Template

/-- **A command is rendered in one line with its text as in a block**: from every scope and every
state of the engine there is the same output, the same scope and the same engine after it, whether
the command is known or not and whatever it does with the text. -/
theorem Engine.render_inOneLine {σ : Type} (e : Engine σ) {head name body : Text} (h : '$' ∉ head)
    (hl : '\n' ∉ head) (ha : (splitArguments head).head? = some name) (he : name ≠ endName)
    (hb : '\n' ∉ body) (hs : ¬body.Fenced) (scope : Scope) :
    e.render (commandLineWith head body) scope =
      e.render (Text.joinLines [commandLine head, body, endLine]) scope := by
  obtain ⟨params, ha⟩ := List.head?_eq_some_iff.mp ha
  have hnodes := e.setting.renderNodes_ofLine name params true false (commandLineWith head body)
    (commandLine head) body [.text body] scope
  rw [render_eq, render_eq, Template.read_commandLineWith h hl ha he hb,
    Template.read_blockOfLine h hl ha he hb hs, hnodes]

/-- a text with `$`, an `end` and blanks in it, handed on as it is -/
theorem render_inOneLine_pureMd :
    '$' ∉ "md pure".toList ∧ (splitArguments "md pure".toList).head? = some "md".toList ∧
      ¬Text.Fenced " $end$ #x ".toList ∧
      (Engine.new {} Host.bare () .congruence).render "$md pure$ $end$ #x $end$".toList [] =
        (Engine.new {} Host.bare () .congruence).render "$md pure$\n $end$ #x \n$end$".toList
          [] := by
  have hname : (splitArguments "md pure".toList).head? = some "md".toList := by cbv
  have hfence : ¬Text.Fenced " $end$ #x ".toList := by decide
  refine ⟨by decide, hname, hfence, ?_⟩
  exact (Engine.new {} Host.bare () .congruence).render_inOneLine (by decide) (by decide) hname
    (by decide) (by decide) hfence []

end Stencil
