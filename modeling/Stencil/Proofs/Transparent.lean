import Stencil.Proofs.Arguments
import Stencil.Proofs.Between
import Stencil.Proofs.Document

/-!
# Conditions that hold

The body of a condition that holds is rendered where the condition stands.  If it is `unscoped`, the
two lines around the body could be left out.  If it is not, what the body does to the variables
stays inside, and nothing else changes.

* `Text.BareName`               a name that can be written as an argument;
* `condHead`                    the head of a condition on such a name;
* `splitArguments_condHead`     its arguments;
* `joinPieces_append`, `joinLines_joinPieces`   pieces of output, some joined beforehand;
* `Setting.command_cond`        what a condition that holds does;
* `Engine.render_cond`          a template with such a condition in it.
-/

namespace Stencil

/-! ## the line of a condition -/

/-- a name that is one argument of a head and no reference, and does not part a line -/
structure Text.BareName (c : Text) : Prop where
  isArgument : splitArguments c = [c]
  notReference : startsReference c = false
  dollars : c.count '$' ≤ 1
  noBreak : '\n' ∉ c

def scopeWords (unscoped : Bool) : List Text := if unscoped then ["unscoped".toList] else []

def condHead (unscoped : Bool) (c : Text) : Text :=
  Text.joinWords ("if".toList :: c :: scopeWords unscoped)

theorem condHead_eq (unscoped : Bool) (c : Text) : condHead unscoped c =
    "if ".toList ++ (c ++ if unscoped then " unscoped".toList else []) := by
  cases unscoped with
  | false =>
    show Text.joinWords ["if".toList, c] = "if ".toList ++ (c ++ [])
    rw [Text.joinWords_cons_cons, Text.joinWords_singleton, List.append_nil]
    rfl
  | true =>
    show Text.joinWords ["if".toList, c, "unscoped".toList] = _
    rw [Text.joinWords_cons_cons, Text.joinWords_cons_cons, Text.joinWords_singleton]
    rfl

section
variable {c : Text} (h : c.BareName) (unscoped : Bool)
include h

theorem splitArguments_condHead :
    splitArguments (condHead unscoped c) = "if".toList :: c :: scopeWords unscoped := by
  have hif : Text.Plain "if".toList := by decide
  have hrest : splitArguments (Text.joinWords (c :: scopeWords unscoped)) =
      c :: scopeWords unscoped := by
    cases unscoped with
    | false =>
      show splitArguments (Text.joinWords [c]) = [c]
      rw [Text.joinWords_singleton, h.isArgument]
    | true =>
      have hword : Text.Plain "unscoped".toList := by decide
      show splitArguments (Text.joinWords [c, "unscoped".toList]) = [c, "unscoped".toList]
      rw [Text.joinWords_cons_cons, Text.joinWords_singleton, splitArguments_concat c hword,
        h.isArgument]
      rfl
  rw [condHead, Text.joinWords_cons_cons, splitArguments_cons hif, hrest]

theorem count_condHead : (condHead unscoped c).count '$' ≤ 1 := by
  have hif : ("if ".toList).count '$' = 0 := rfl
  have htail : (if unscoped then " unscoped".toList else []).count '$' = 0 := by
    cases unscoped <;> rfl
  rw [condHead_eq, List.count_append, List.count_append, hif, htail, Nat.zero_add, Nat.add_zero]
  exact h.dollars

theorem newline_notMem_condHead : '\n' ∉ condHead unscoped c := by
  have htail : '\n' ∉ (if unscoped then " unscoped".toList else []) := by
    cases unscoped <;> decide
  rw [condHead_eq, List.mem_append, List.mem_append]
  rintro (hm | hm | hm)
  · exact absurd hm (by decide)
  · exact h.noBreak hm
  · exact htail hm

theorem LineShape.of_condLine : of (commandLine (condHead unscoped c)) =
    .block ⟨"if".toList, c :: scopeWords unscoped, false, commandLine (condHead unscoped c)⟩ :=
  of_commandLine_of_count (splitArguments_condHead h unscoped) (count_condHead h unscoped)

end

/-! ## lines joined beforehand -/

theorem joinPieces_singleton (t : Text) : joinPieces [t] = some t := by
  rw [joinPieces, if_neg (List.cons_ne_nil _ _), Text.joinLines_singleton]

theorem joinPieces_nil : joinPieces [] = none := rfl

theorem joinLines_eq (ps : List Text) : Text.joinLines ps = (joinPieces ps).getD [] := by
  rw [joinPieces]
  split
  · rename_i h
    rw [h]
    rfl
  · rfl

theorem joinPieces_append (ps qs : List Text) : joinPieces (ps ++ qs) =
    (joinPieces ps).merge (fun s t => s ++ '\n' :: t) (joinPieces qs) := by
  by_cases hp : ps = []
  · rw [hp, List.nil_append, joinPieces_nil, Option.merge_none_left]
  by_cases hq : qs = []
  · rw [hq, List.append_nil, joinPieces_nil, Option.merge_none_right]
  rw [joinPieces, joinPieces, joinPieces, if_neg hp, if_neg hq,
    if_neg (List.append_ne_nil_of_left_ne_nil hp qs), Text.joinLines_append hp hq]
  rfl

theorem joinPieces_toList (ps : List Text) : joinPieces (joinPieces ps).toList = joinPieces ps := by
  cases joinPieces ps with
  | none => rfl
  | some t => exact joinPieces_singleton t

theorem joinLines_joinPieces (ps qs rs : List Text) :
    Text.joinLines (ps ++ ((joinPieces qs).toList ++ rs)) = Text.joinLines (ps ++ (qs ++ rs)) := by
  simp only [joinLines_eq, joinPieces_append, joinPieces_toList]

theorem Engine.render_node {σ : Type} (e : Engine σ) {source : Text} {node : Node}
    {scope after : Scope} {lines : List Text} (hread : Template.read source = ⟨[node], []⟩)
    (hnode : e.setting.renderNode node scope e.world =
      ⟨⟨joinPieces lines, none, after⟩, [], e.world⟩) :
    e.render source scope = ((Text.joinLines lines, after), e) := by
  have hnodes : e.setting.renderNodes [node] scope e.world =
      ⟨((joinPieces lines).toList, after), [], e.world⟩ := by
    rw [Setting.renderNodes_cons_eq, hnode]
    simp only [Outcome.bound, Setting.renderNodes]
    show (⟨((joinPieces lines).toList ++ [], after), [], e.world⟩ : Result σ _) = _
    rw [List.append_nil]
  have hjoin : Text.joinLines (joinPieces lines).toList = Text.joinLines lines := by
    rw [joinLines_eq, joinPieces_toList, joinLines_eq]
  rw [e.render_of_read hread hnodes]
  simp only [hjoin, List.append_nil, Log.add_nil]

namespace Setting

variable {σ : Type} (set : Setting σ)

theorem check_cond (c : Text) (unscoped : Bool) :
    CommandKind.cond.signature.check (.command "if".toList) (c :: scopeWords unscoped) =
      ⟨[c], if unscoped then [.unscoped] else [], true, []⟩ := by
  cases unscoped with
  | false => rfl
  | true => rfl

/-- a condition that holds: its output is one piece, and it leaves the scope of its body or the one
that it was given -/
theorem command_cond {c : Text} {v : Value} {scope : Scope} (hc : startsReference c = false)
    (hv : scope.get? c = some v) (ht : v.isTruthy = true) (unscoped isInline : Bool)
    (line rawBody : Text) (body : Body σ) :
    set.command ⟨"if".toList, c :: scopeWords unscoped, isInline, line⟩ rawBody body scope = (do
      let r ← Run.scoped unscoped scope body
      pure ⟨joinPieces r.1, none, r.2⟩) := by
  have hresolve : set.resolve c scope = pure v := by
    rw [resolve_name set hc, lookup_of_get? hv]
  have hunscoped : Checked.isUnscoped ⟨[c], if unscoped then [.unscoped] else [], true, []⟩ =
      unscoped := by
    cases unscoped with
    | false => rfl
    | true => rfl
  have hcheck := check_cond c unscoped
  rw [set.command_of_valid rawBody body scope rfl (by rw [hcheck]), hcheck, Run.noteAll_nil,
    pure_bind]
  show set.runCond (Checked.isUnscoped ⟨[c], _, true, []⟩) c body scope = _
  rw [hunscoped, runCond, hresolve, pure_bind, if_pos ht]

end Setting

/-! ## a template with such a condition -/

/-- what stands behind a condition that holds works on the scope of its body, or on the one that
the condition was given -/
theorem Setting.renderNodes_cond {σ : Type} (set : Setting σ) {c : Text} {v : Value}
    {scope : Scope} {w : World σ} (ns ms : List Node) (hc : startsReference c = false)
    (hv : (set.renderNodes ns scope w).value.2.get? c = some v) (ht : v.isTruthy = true)
    (unscoped : Bool) (line body : Text) :
    let node := Template.around ⟨"if".toList, c :: scopeWords unscoped, false, line⟩ body
    let r := set.renderNodes ns scope w
    let q := set.renderNodes (Template.read body).nodes r.value.2 r.world
    let t := set.renderNodes ms (if unscoped then q.value.2 else r.value.2) q.world
    set.renderNodes (ns ++ node :: ms) scope w =
      ⟨(r.value.1 ++ ((joinPieces q.value.1).toList ++ t.value.1), t.value.2),
        r.problems ++ (q.problems ++ t.problems), t.world⟩ := by
  intro node r q t
  have hnode : set.renderNode node r.value.2 r.world =
      ⟨⟨joinPieces q.value.1, none, if unscoped then q.value.2 else r.value.2⟩, q.problems,
        q.world⟩ := by
    show set.renderNode (.command _ _ (Template.read body).nodes) r.value.2 r.world = _
    rw [renderNode, set.command_cond hc hv ht, Run.scoped, bind_assoc]
    simp only [pure_bind]
    exact Run.bind_pure_apply _ _ r.world
  have hrest : set.renderNodes (node :: ms) r.value.2 r.world =
      ⟨((joinPieces q.value.1).toList ++ t.value.1, t.value.2), q.problems ++ t.problems,
        t.world⟩ := by
    rw [renderNodes_cons_eq, hnode]
    rfl
  rw [renderNodes_append, Run.bind_apply, Run.bind_pure_apply, hrest]

/-- **A condition that holds can be left out, if it is `unscoped`**: rendering a template with such
a condition around a part of it gives the same in every respect as rendering it without the two
lines.  In any case the body is rendered where the condition stands, and gives one piece; what
stands below works on the scope that the body leaves if the condition is `unscoped`, and otherwise
on the scope that the body was given. -/
theorem Engine.render_cond {σ : Type} (e : Engine σ) {above body : Text}
    (ha : Template.Balanced above) (hs : Template.Balanced body) (below : Text) (scope : Scope)
    {c : Text} (hc : c.BareName) {v : Value} (hv : (e.render above scope).1.2.get? c = some v)
    (ht : v.isTruthy = true) :
    let whole unscoped := e.render (Text.joinLines
      [above, commandLine (condHead unscoped c), body, endLine, below]) scope
    let first := e.render above scope
    let second := first.2.render body first.1.2
    whole true = e.render (Text.joinLines [above, body, below]) scope ∧
      ∀ unscoped,
        let left := if unscoped then second.1.2 else first.1.2
        let third := second.2.render below left
        (whole unscoped).1.2 = third.1.2 ∧ (whole unscoped).2.world = third.2.world ∧
          (whole unscoped).1.1 = Text.joinLines (e.pieces above scope ++
            ((joinPieces (first.2.pieces body first.1.2)).toList ++ second.2.pieces below left)) ∧
          (whole unscoped).2.log.problems = e.log.problems ++
            ((Template.read above).problems ++
              ((Template.read body).problems ++ (Template.read below).problems) ++
            (e.noted above scope ++
              (first.2.noted body first.1.2 ++ second.2.noted below left))) := by
  let r := e.setting.renderNodes (Template.read above).nodes scope e.world
  let q := e.setting.renderNodes (Template.read body).nodes r.value.2 r.world
  intro whole first second
  have hfirst : first = _ := e.render_of_read rfl rfl
  have hsecond : second = _ := e.render_render above body scope
  have hwhole (unscoped : Bool) :
      let t := e.setting.renderNodes (Template.read below).nodes
        (if unscoped then q.value.2 else r.value.2) q.world
      whole unscoped = ((Text.joinLines (r.value.1 ++
          ((joinPieces q.value.1).toList ++ t.value.1)), t.value.2), { e with
        world := t.world
        log := e.log.add ((Template.read above).problems ++
          ((Template.read body).problems ++ (Template.read below).problems) ++
            (r.problems ++ (q.problems ++ t.problems))) }) := by
    have hbreak : '\n' ∉ commandLine (condHead unscoped c) := by
      simp [commandLine, newline_notMem_condHead hc unscoped]
    have hread := Template.read_between ha below hs (LineShape.of_condLine hc unscoped) rfl hbreak
    have hget : r.value.2.get? c = some v := by
      rw [← hv, e.render_eq above scope]
    exact e.render_of_read hread (e.setting.renderNodes_cond _ _ hc.notReference hget ht
      unscoped _ body)
  refine ⟨?_, fun unscoped => ?_⟩
  · -- the pieces of the body stand between the others, joined or not
    have hread : Template.read (Text.joinLines [above, body, below]) = (Template.read above).append
        ((Template.read body).append (Template.read below)) := by
      rw [Template.read_cons ha (List.cons_ne_nil _ _), Template.read_pair hs]
    let t := e.setting.renderNodes (Template.read below).nodes q.value.2 q.world
    have hrest : e.setting.renderNodes ((Template.read body).nodes ++ (Template.read below).nodes)
        r.value.2 r.world =
        ⟨(q.value.1 ++ t.value.1, t.value.2), q.problems ++ t.problems, t.world⟩ :=
      e.setting.renderNodes_append_eq _ _ r.value.2 r.world
    have hrun : e.setting.renderNodes ((Template.read above).nodes ++
        ((Template.read body).nodes ++ (Template.read below).nodes)) scope e.world =
        ⟨(r.value.1 ++ (q.value.1 ++ t.value.1), t.value.2),
          r.problems ++ (q.problems ++ t.problems), t.world⟩ := by
      rw [Setting.renderNodes_append, Run.bind_apply, Run.bind_pure_apply, hrest]
    have hplain := e.render_of_read hread hrun
    rw [hplain, hwhole true]
    show ((Text.joinLines (r.value.1 ++ ((joinPieces q.value.1).toList ++ t.value.1)), _), _) = _
    rw [joinLines_joinPieces]
    rfl
  · intro left third
    let t := e.setting.renderNodes (Template.read below).nodes left q.world
    have hleft : left = if unscoped then q.value.2 else r.value.2 := by
      show (if unscoped then second.1.2 else first.1.2) = _
      rw [hsecond, hfirst]
    have hbody : first.2.setting.renderNodes (Template.read body).nodes first.1.2 first.2.world =
        q := by
      rw [hfirst]
      rfl
    have hbelow : second.2.setting.renderNodes (Template.read below).nodes left second.2.world =
        t := by
      rw [hsecond]
      rfl
    have hthird : third = _ := second.2.render_of_read rfl hbelow
    have houter := hwhole unscoped
    rw [← hleft] at houter
    rw [houter, hthird, pieces, pieces, pieces, noted, noted, noted, hbody, hbelow]
    exact ⟨rfl, rfl, rfl, rfl⟩

/-- a definition, which has no output, and a reference to what it defines -/
def Template.defineAndUse : Text := "$define y$\n0\n$end$\n#y#".toList

/-- a name with a blank in it, in parentheses -/
theorem render_cond_parenthesized :
    let e := Engine.new {} Host.bare () .congruence
    let scope : Scope := [("(a b)".toList, .bool true)]
    let whole unscoped := e.render (Text.joinLines ["x".toList,
      commandLine (condHead unscoped "(a b)".toList), Template.defineAndUse, endLine,
      "#y#".toList]) scope
    Text.BareName "(a b)".toList ∧ Template.Balanced Template.defineAndUse ∧
      commandLine (condHead true "(a b)".toList) = "$if (a b) unscoped$".toList ∧
      whole true = e.render (Text.joinLines ["x".toList, Template.defineAndUse, "#y#".toList])
        scope := by
  have hname : Text.BareName "(a b)".toList := ⟨by cbv, rfl, by decide, by decide⟩
  have hbody : Template.Balanced Template.defineAndUse :=
    Template.balanced_of_problems_eq_nil (by cbv)
  have habove : Template.Balanced "x".toList := Template.balanced_line (by decide) (by decide)
  have hget : ((Engine.new {} Host.bare () .congruence).render "x".toList
      [("(a b)".toList, .bool true)]).1.2.get? "(a b)".toList = some (.bool true) := by cbv
  exact ⟨hname, hbody, rfl, ((Engine.new {} Host.bare () .congruence).render_cond habove hbody
    "#y#".toList _ hname hget rfl).1⟩

end Stencil
