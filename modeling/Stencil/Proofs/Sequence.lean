import Stencil.Proofs.Reading

/-!
# Templates one after the other

A template that leaves no command open does not reach over its last line: rendered together with
the lines of another template behind it, it gives what the two give one after the other.  Only the
order of the problems differs, as those of reading the template come before all others.

* `Template.nodes_append`, `Template.problems_append`   the tree and the problems of two templates
                              in one;
* `Setting.renderNodes_append`   two rows of nodes in one;
* `Engine.pieces`             the pieces of output of a template;
* `joinLines_pieces`          the pieces of two rows joined;
* `Engine.render_append`      two templates rendered in one call.
-/

namespace Stencil

/-! ## reading two templates -/

namespace Template

theorem levels_append (a b : Text) : Levels.ofTokens (Token.ofSource (a ++ '\n' :: b)) =
    (reading a).before (Levels.ofTokens (Token.ofSource b)) := by
  show Levels.ofLines (List.splitOn '\n' (a ++ '\n' :: b)) = _
  rw [List.splitOn_append_cons_self, Levels.ofLines_append]
  rfl

section
variable {a : Text} (h : openAtEnd a = []) (b : Text)
include h

theorem opened_reading : (reading a).opened = [] := List.map_eq_nil_iff.mp h

theorem nodes_append : (read (a ++ '\n' :: b)).nodes = (read a).nodes ++ (read b).nodes := by
  have ha : (read a).nodes = (reading a).nodes := by
    rw [nodes_read, opened_reading h]
    exact List.append_nil _
  show (Levels.ofTokens (Token.ofSource (a ++ '\n' :: b))).nodes = _
  rw [levels_append, Reading.nodes_before, opened_reading h, ha]
  rfl

/-- reading two templates in one notes the problems of both; those of the lines of the second come
before those of the tree of the first -/
theorem problems_append :
    (read (a ++ '\n' :: b)).problems.Perm ((read a).problems ++ (read b).problems) := by
  have hlines : Token.problemsOf (a ++ '\n' :: b) = Token.problemsOf a ++ Token.problemsOf b := by
    unfold Token.problemsOf
    rw [List.splitOn_append_cons_self, List.flatMap_append]
  have htree : (Levels.ofTokens (Token.ofSource (a ++ '\n' :: b))).problems =
      (reading a).strayEnds ++ (Levels.ofTokens (Token.ofSource b)).problems := by
    rw [levels_append, Reading.problems_before, opened_reading h]
    rfl
  show (Token.problemsOf (a ++ '\n' :: b) ++ Levels.problems _).Perm
    (_ ++ (Token.problemsOf b ++ Levels.problems _))
  rw [hlines, htree, problems_read a, h, List.map_nil, List.append_nil, List.perm_iff_count]
  intro p
  simp only [List.count_append]
  omega

end

end Template

/-! ## rendering two rows of nodes -/

namespace Setting

variable {σ : Type} (set : Setting σ)

theorem renderNodes_append (ns ms : List Node) (scope : Scope) :
    set.renderNodes (ns ++ ms) scope = (do
      let r ← set.renderNodes ns scope
      let s ← set.renderNodes ms r.2
      pure (r.1 ++ s.1, s.2)) := by
  induction ns generalizing scope with
  | nil =>
    rw [List.nil_append, renderNodes, pure_bind]
    exact (bind_pure _).symm
  | cons node ns ih =>
    rw [List.cons_append, renderNodes, renderNodes, bind_assoc]
    congr 1
    funext o
    rw [ih o.bound, bind_assoc, bind_assoc]
    congr 1
    funext r
    rw [bind_assoc, pure_bind]
    congr 1
    funext s
    rw [pure_bind, List.append_assoc]

end Setting

/-! ## rendering two templates -/

/-- the pieces of two rows joined: a line break stands between them if both have a piece -/
theorem joinLines_pieces (ps qs : List Text) : Text.joinLines (ps ++ qs) =
    if ps = [] ∨ qs = [] then Text.joinLines ps ++ Text.joinLines qs
    else Text.joinLines ps ++ '\n' :: Text.joinLines qs := by
  by_cases hp : ps = []
  · rw [if_pos (.inl hp), hp]
    rfl
  by_cases hq : qs = []
  · rw [if_pos (.inr hq), hq, List.append_nil, Text.joinLines_nil, List.append_nil]
  · rw [if_neg (not_or.mpr ⟨hp, hq⟩), Text.joinLines_append hp hq]

namespace Engine

variable {σ : Type}

def pieces (e : Engine σ) (source : Text) (scope : Scope) : List Text :=
  (e.setting.renderNodes (Template.read source).nodes scope e.world).value.1

section
variable (e : Engine σ) (a b : Text) (scope : Scope)

/-- a template rendered after another one, in the scope and the world that that one leaves -/
theorem render_render :
    (e.render a scope).2.render b (e.render a scope).1.2 =
      let r := e.setting.renderNodes (Template.read a).nodes scope e.world
      let s := e.setting.renderNodes (Template.read b).nodes r.value.2 r.world
      ((Text.joinLines s.value.1, s.value.2), { e with
        world := s.world
        log := (e.log.add ((Template.read a).problems ++ r.problems)).add
          ((Template.read b).problems ++ s.problems) }) := by
  rw [e.render_eq a scope]
  exact render_eq _ b _

/-- a template rendered together with another one in front that leaves no command open -/
theorem render_inOne (h : Template.openAtEnd a = []) :
    e.render (a ++ '\n' :: b) scope =
      let r := e.setting.renderNodes (Template.read a).nodes scope e.world
      let s := e.setting.renderNodes (Template.read b).nodes r.value.2 r.world
      ((Text.joinLines (r.value.1 ++ s.value.1), s.value.2), { e with
        world := s.world
        log := e.log.add
          ((Template.read (a ++ '\n' :: b)).problems ++ (r.problems ++ s.problems)) }) := by
  rw [render_eq, Template.nodes_append h, Setting.renderNodes_append]
  simp only [Run.bind_apply, Run.pure_apply, List.append_nil]

end

/-- **Two templates, the first of which leaves no command open, can be rendered in one call**: the
scope and the world after it are those after the two calls, the outputs stand one below the other
unless one of them has no piece, and the same problems are noted, those of reading first. -/
theorem render_append (e : Engine σ) {a : Text} (h : Template.openAtEnd a = []) (b : Text)
    (scope : Scope) :
    let first := e.render a scope
    let second := first.2.render b first.1.2
    let whole := e.render (a ++ '\n' :: b) scope
    whole.1.2 = second.1.2 ∧ whole.2.world = second.2.world ∧
      whole.1.1 = (if e.pieces a scope = [] ∨ first.2.pieces b first.1.2 = [] then
          first.1.1 ++ second.1.1
        else first.1.1 ++ '\n' :: second.1.1) ∧
      (∃ rendered, whole.2.log.problems =
        e.log.problems ++ (Template.read (a ++ '\n' :: b)).problems ++ rendered) ∧
      whole.2.log.problems.Perm second.2.log.problems := by
  intro first second whole
  let r := e.setting.renderNodes (Template.read a).nodes scope e.world
  let s := e.setting.renderNodes (Template.read b).nodes r.value.2 r.world
  have hfirst : first = _ := e.render_eq a scope
  have hsecond : second = _ := e.render_render a b scope
  have hwhole : whole = _ := e.render_inOne a b scope h
  have hpieces : first.2.pieces b first.1.2 = s.value.1 := by
    rw [hfirst]
    rfl
  refine ⟨?_, ?_, ?_, ⟨r.problems ++ s.problems, ?_⟩, ?_⟩
  · rw [hwhole, hsecond]
  · rw [hwhole, hsecond]
  · rw [hpieces, hwhole, hsecond, hfirst]
    exact joinLines_pieces _ _
  · rw [hwhole, List.append_assoc]
    rfl
  · -- what the two calls note is the same but for the order of three parts of it
    have hread := Template.problems_append h b
    rw [hwhole, hsecond, List.perm_iff_count]
    intro p
    show (e.log.problems ++ (_ ++ (r.problems ++ s.problems))).count p =
      (e.log.problems ++ (_ ++ r.problems) ++ (_ ++ s.problems)).count p
    have hcount := hread.count_eq p
    simp only [List.count_append] at hcount ⊢
    omega

end Engine

/-- a definition, and an `end` too many -/
def Template.defining : Text := "$define x$\nhi\n$end$\n$end$".toList

theorem render_append_defining :
    let first := (Engine.new {} Host.bare () .congruence).render Template.defining []
    let second := first.2.render "#x#".toList first.1.2
    let whole := (Engine.new {} Host.bare () .congruence).render
      "$define x$\nhi\n$end$\n$end$\n#x#".toList []
    Template.openAtEnd Template.defining = [] ∧ whole.1.2 = second.1.2 ∧
      whole.2.log.problems.Perm second.2.log.problems := by
  have h : Template.openAtEnd Template.defining = [] := by cbv
  obtain ⟨hscope, -, -, -, hproblems⟩ :=
    (Engine.new {} Host.bare () .congruence).render_append h "#x#".toList []
  exact ⟨h, hscope, hproblems⟩

end Stencil
