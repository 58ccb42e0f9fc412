import Stencil.Proofs.Block
import Stencil.Proofs.Sequence

/-!
# A block between two templates

A template that leaves no command open and has no stray `end` is read as if nothing stood behind it,
and what stands behind it as if nothing stood in front.  So a template put together from such ones,
with or without a block around one of them, is read part by part, and rendered part by part.

* `Template.append`          what is read from two templates;
* `Template.read_cons`       such a template with some others behind it;
* `Template.read_around`     a block around such a template, with some others behind it;
* `Template.read_between`    a block between two templates;
* `Setting.renderNodes_skipping`   a node between others that does nothing;
* `Engine.noted`             the problems noted on rendering a template, once it is read.
-/

namespace Stencil

/-! ## reading part by part -/

namespace Template

/-- what is read from one template, and then from another one -/
def append (s t : Template) : Template := ⟨s.nodes ++ t.nodes, s.problems ++ t.problems⟩

section
variable {source : Text} (h : Balanced source) {ts : List Text} (ht : ts ≠ [])
include h ht

/-- a template that is complete in itself, with others behind it -/
theorem read_cons :
    read (Text.joinLines (source :: ts)) = (read source).append (read (Text.joinLines ts)) := by
  rw [read_joinLines (List.cons_ne_nil _ _), read_joinLines ht, List.flatMap_cons,
    Levels.ofLines_append, ← reading, h.before, Levels.nodes_prepend, Levels.problems_prepend,
    ← h.nodes_eq, List.flatMap_append, List.append_assoc]
  show (⟨_, Token.problemsOf source ++ _⟩ : Template) = _
  rw [← h.problems_eq]
  rfl

/-- a block around such a template: the command takes it as its body, and no more -/
theorem read_around {line : Text} {head : Head} (hl : LineShape.of line = .block head)
    (he : head.isEnd = false) (hn : '\n' ∉ line) :
    read (Text.joinLines (line :: source :: endLine :: ts)) =
      append ⟨[.command head (Text.joinLines (reading source).outer.lines) (read source).nodes],
        (read source).problems⟩ (read (Text.joinLines ts)) := by
  have hline : Token.problemsOfLine line = [] := by
    rw [Token.problemsOfLine, hl]
    rfl
  have hend : Token.problemsOfLine endLine = [] := by
    rw [Token.problemsOfLine, LineShape.of_endLine]
    rfl
  have hlines : (line :: source :: endLine :: ts).flatMap (List.splitOn '\n') =
      line :: (List.splitOn '\n' source ++ endLine :: ts.flatMap (List.splitOn '\n')) := by
    rw [List.flatMap_cons, List.flatMap_cons, List.flatMap_cons, List.splitOn_eq_singleton hn,
      List.splitOn_eq_singleton (by decide : '\n' ∉ endLine)]
    rfl
  rw [read_joinLines (List.cons_ne_nil _ _), read_joinLines ht, hlines,
    Levels.ofLines_around hl he h, Levels.nodes_prepend, Levels.problems_prepend,
    List.flatMap_cons, List.flatMap_append, List.flatMap_cons, hline, hend, List.nil_append,
    List.nil_append, List.append_assoc, h.nodes_eq, h.problems_eq]
  rfl

end

/-- the node of a command around a template -/
def around (head : Head) (source : Text) : Node :=
  .command head (Text.joinLines (reading source).outer.lines) (read source).nodes

section
variable {above body : Text} (ha : Balanced above) (below : Text)
include ha

theorem read_pair :
    read (Text.joinLines [above, below]) = (read above).append (read below) := by
  rw [read_cons ha (List.cons_ne_nil _ _), Text.joinLines_singleton]

/-- a block between two templates -/
theorem read_between (hs : Balanced body) {line : Text} {head : Head}
    (hl : LineShape.of line = .block head) (he : head.isEnd = false) (hn : '\n' ∉ line) :
    read (Text.joinLines [above, line, body, endLine, below]) =
      (read above).append (append ⟨[around head body], (read body).problems⟩ (read below)) := by
  rw [read_cons ha (List.cons_ne_nil _ _), read_around hs (List.cons_ne_nil _ _) hl he hn,
    Text.joinLines_singleton]
  rfl

end

end Template

/-! ## rendering part by part -/

namespace Setting

variable {σ : Type} (set : Setting σ)

theorem resolve_name {c : Text} (h : startsReference c = false) (scope : Scope) :
    set.resolve c scope = lookup c scope := by
  rw [resolve, h]
  exact if_neg (by decide)

theorem renderNodes_append_eq (ns ms : List Node) (scope : Scope) (w : World σ) :
    set.renderNodes (ns ++ ms) scope w =
      let r := set.renderNodes ns scope w
      let s := set.renderNodes ms r.value.2 r.world
      ⟨(r.value.1 ++ s.value.1, s.value.2), r.problems ++ s.problems, s.world⟩ := by
  rw [renderNodes_append, Run.bind_apply, Run.bind_pure_apply]

theorem renderNodes_cons_eq (node : Node) (ns : List Node) (scope : Scope) (w : World σ) :
    set.renderNodes (node :: ns) scope w =
      let o := set.renderNode node scope w
      let s := set.renderNodes ns o.value.bound o.world
      ⟨(o.value.output.toList ++ s.value.1, s.value.2), o.problems ++ s.problems, s.world⟩ := by
  rw [renderNodes, Run.bind_apply, Run.bind_pure_apply]

/-- a node between others that notes some problems and does nothing else -/
theorem renderNodes_skipping (ns ms : List Node) {node : Node} {own : List Problem}
    {scope inner : Scope} {w : World σ} (hi : (set.renderNodes ns scope w).value.2 = inner)
    (h : set.renderNode node inner = (do
      .noteAll own
      pure (.skip inner))) :
    set.renderNodes (ns ++ node :: ms) scope w =
      let r := set.renderNodes ns scope w
      let s := set.renderNodes ms inner r.world
      ⟨(r.value.1 ++ s.value.1, s.value.2), r.problems ++ (own ++ s.problems), s.world⟩ := by
  subst hi
  let r := set.renderNodes ns scope w
  let s := set.renderNodes ms r.value.2 r.world
  have hrest : set.renderNodes (node :: ms) r.value.2 r.world =
      ⟨s.value, own ++ s.problems, s.world⟩ := by
    rw [renderNodes_cons_eq, h, Run.noteAll_pure]
    rfl
  rw [renderNodes_append, Run.bind_apply, Run.bind_pure_apply, hrest]

end Setting

namespace Engine

variable {σ : Type}

/-- the problems noted on rendering a template, without those of reading it -/
def noted (e : Engine σ) (source : Text) (scope : Scope) : List Problem :=
  (e.setting.renderNodes (Template.read source).nodes scope e.world).problems

theorem render_of_read (e : Engine σ) {source : Text} {t : Template} {scope : Scope}
    {r : Result σ (List Text × Scope)} (ht : Template.read source = t)
    (hr : e.setting.renderNodes t.nodes scope e.world = r) :
    e.render source scope = ((Text.joinLines r.value.1, r.value.2),
      { e with world := r.world, log := e.log.add (t.problems ++ r.problems) }) := by
  rw [render_eq, ht, hr]

end Engine

end Stencil
