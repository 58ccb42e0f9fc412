import Stencil.Proofs.Reading

/-!
# Commands left open

A template that leaves commands open is rendered as if an `end` for each of them stood at its end,
and one problem more is noted for each of them.  The two trees are not quite the same: the lines of
the ends between the innermost and the outermost open command stand in the raw bodies of the
commands around them.  Rendering reads raw bodies for `md` with `pure` only.

* `Template.withEnds`         a template with some ends behind it;
* `Template.closed`           a template with an end for each open command behind it;
* `Reading.wrapAll_closed`    open commands with an end for each of them behind;
* `Template.nodes_closed`, `Template.problems_closed`   what is read from it;
* `Node.erase`                a node without the raw bodies that rendering does not read;
* `Setting.renderNodes_eraseAll`   rendering does not read them;
* `Engine.render_closed`      rendering a template without its last ends and with them.
-/

namespace Stencil

/-! ## ends behind a template -/

def endLine : Text := "$end$".toList

/-- a template with so many lines behind it, each an `end` -/
def Template.withEnds (k : Nat) (source : Text) : Text :=
  source ++ (List.replicate k ('\n' :: endLine)).flatten

theorem LineShape.of_endLine : of endLine = .block ⟨endName, [], false, endLine⟩ := by
  cbv

theorem Levels.ofLines_ends (k : Nat) :
    ofLines (List.replicate k endLine) = ⟨.empty, List.replicate k (endLine, .empty), []⟩ := by
  induction k with
  | zero => exact ofLines_nil
  | succ k ih =>
    rw [List.replicate_succ, ofLines_end LineShape.of_endLine rfl, ih]
    rfl

/-- each of some open commands takes one of the ends behind them -/
theorem Reading.wrapAll_closed (source : Text) (cs : List OpenCommand) (b : Block)
    (names : List Text) :
    wrapAll cs ⟨b, List.replicate cs.length (source, .empty), names⟩ =
      ⟨encloseAll [source] cs b, [], names⟩ := by
  induction cs generalizing b with
  | nil => rfl
  | cons c cs ih =>
    let c' : OpenCommand := { c with body := c.body.append b }
    -- the innermost command takes the first of the ends, and stands closed in the next one
    have hwrap : Levels.wrap c.head
        (Levels.prepend c.body ⟨b, List.replicate (cs.length + 1) (source, .empty), names⟩) =
        ⟨(c'.closed [source]).append .empty, List.replicate cs.length (source, .empty), names⟩ := by
      rw [List.replicate_succ]
      rfl
    show wrapAll cs (Levels.wrap c.head (Levels.prepend c.body _)) = _
    rw [List.length_cons, hwrap, Block.append_empty, ih]
    rfl

namespace Template

theorem splitOn_withEnds (k : Nat) (source : Text) : List.splitOn '\n' (withEnds k source) =
    List.splitOn '\n' source ++ List.replicate k endLine := by
  induction k generalizing source with
  | zero => rw [withEnds, List.replicate_zero, List.flatten_nil, List.append_nil,
      List.replicate_zero, List.append_nil]
  | succ k ih =>
    have hstep : withEnds (k + 1) source = source ++ '\n' :: withEnds k endLine := rfl
    rw [hstep, List.splitOn_append_cons_self, ih, List.replicate_succ]
    rfl

/-- the template with an end for each command that is open at its end -/
def closed (source : Text) : Text := withEnds (openAtEnd source).length source

theorem levels_closed (source : Text) : Levels.ofTokens (Token.ofSource (closed source)) =
    (reading source).before
      ⟨.empty, List.replicate (reading source).opened.length (endLine, .empty), []⟩ := by
  have hlength : (openAtEnd source).length = (reading source).opened.length := List.length_map _
  show Levels.ofLines (List.splitOn '\n' (closed source)) = _
  rw [closed, splitOn_withEnds, Levels.ofLines_append, Levels.ofLines_ends, hlength]
  rfl

theorem nodes_closed (source : Text) : (read (closed source)).nodes = (reading source).nodes ++
    (Reading.encloseAll [endLine] (reading source).opened .empty).nodes := by
  show (Levels.ofTokens (Token.ofSource (closed source))).nodes = _
  rw [levels_closed, Reading.nodes_before, Reading.wrapAll_closed]
  show _ ++ (_ ++ []) = _
  rw [List.append_nil]

theorem problems_closed (source : Text) : (read (closed source)).problems =
    Token.problemsOf source ++ (reading source).strayEnds := by
  have hend : Token.problemsOfLine endLine = [] := by
    unfold Token.problemsOfLine
    rw [LineShape.of_endLine]
    rfl
  have hends (k : Nat) : (List.replicate k endLine).flatMap Token.problemsOfLine = [] :=
    List.flatMap_eq_nil_iff.mpr fun line hline => List.eq_of_mem_replicate hline ▸ hend
  have hlines : Token.problemsOf (closed source) = Token.problemsOf source := by
    unfold Token.problemsOf closed
    rw [splitOn_withEnds, List.flatMap_append, hends, List.append_nil]
  show Token.problemsOf (closed source) ++ (Levels.ofTokens _).problems = _
  rw [hlines, levels_closed, Reading.problems_before, Reading.wrapAll_closed]
  show _ ++ (_ ++ []) = _
  rw [List.append_nil]

end Template

/-! ## what rendering does not read -/

namespace Node

mutual

/-- a node without the raw bodies of its commands, those of `md` commands with `pure` excepted -/
def erase : Node → Node
  | text line => text line
  | command head rawBody body =>
    command head (if head.isPureMd then rawBody else []) (eraseAll body)

def eraseAll : List Node → List Node
  | [] => []
  | node :: nodes => erase node :: eraseAll nodes

end

theorem eraseAll_nil : eraseAll [] = [] := by rw [eraseAll]

theorem eraseAll_cons (node : Node) (nodes : List Node) :
    eraseAll (node :: nodes) = erase node :: eraseAll nodes := by rw [eraseAll]

theorem eraseAll_append (ns ms : List Node) : eraseAll (ns ++ ms) = eraseAll ns ++ eraseAll ms := by
  induction ns with
  | nil => rw [eraseAll_nil]; rfl
  | cons n ns ih => rw [List.cons_append, eraseAll_cons, eraseAll_cons, ih, List.cons_append]

theorem erase_command {head : Head} (h : head.isPureMd = false) (rawBody : Text)
    (body : List Node) : erase (.command head rawBody body) = .command head [] (eraseAll body) := by
  rw [erase, h]
  rfl

end Node

namespace Setting

variable {σ : Type} (set : Setting σ)

/-- only a `md` command with `pure` reads its raw body -/
theorem command_rawBody {head : Head} (h : head.isPureMd = false) (rawBody rawBody' : Text)
    (body : Body σ) (scope : Scope) :
    set.command head rawBody body scope = set.command head rawBody' body scope := by
  cases hk : CommandKind.ofName? head.name with
  | none => rw [set.command_of_unknown _ body scope hk, set.command_of_unknown _ body scope hk]
  | some kind =>
    cases hv : (kind.signature.check (.command head.name) head.params).isValid with
    | false =>
      rw [set.command_of_invalid _ body scope hk hv, set.command_of_invalid _ body scope hk hv]
    | true =>
      rw [set.command_of_valid _ body scope hk hv, set.command_of_valid _ body scope hk hv]
      congr 1
      funext _
      unfold runKind
      split
      · rfl
      · rfl
      · rfl
      · rfl
      · have hp : (CommandKind.md.signature.check (.command head.name) head.params).has .pure =
            false := by
          unfold Head.isPureMd Head.mdArguments at h
          rw [hk, hv] at h
          simpa using h
        rw [hp]
        rfl
      · rfl

/-- rendering does not read what `erase` leaves out; by induction on the tree -/
theorem renderNodes_eraseAll (nodes : List Node) :
    set.renderNodes (Node.eraseAll nodes) = set.renderNodes nodes := by
  funext scope
  match nodes with
  | [] => rw [Node.eraseAll_nil]
  | .text line :: nodes =>
    rw [Node.eraseAll_cons, Node.erase, renderNodes, renderNodes, renderNodes_eraseAll nodes]
  | .command head rawBody body :: nodes =>
    rw [Node.eraseAll_cons, Node.erase, renderNodes, renderNodes, renderNodes_eraseAll nodes,
      renderNode, renderNode, renderNodes_eraseAll body]
    cases h : head.isPureMd with
    | true => rfl
    | false => rw [set.command_rawBody h]

end Setting

/-! ## commands around a block, without and with their ends -/

theorem eraseAll_encloseAll (last last' : List Text) {cs : List OpenCommand}
    (h : ∀ c ∈ cs, c.head.isPureMd = false) {b b' : Block}
    (hb : Node.eraseAll b.nodes = Node.eraseAll b'.nodes) :
    Node.eraseAll (Reading.encloseAll last cs b).nodes =
      Node.eraseAll (Reading.encloseAll last' cs b').nodes := by
  induction cs generalizing b b' with
  | nil => exact hb
  | cons c cs ih =>
    refine ih (fun d hd => h d (List.mem_cons_of_mem _ hd)) ?_
    have hc : c.head.isPureMd = false := h c List.mem_cons_self
    show Node.eraseAll [.command c.head _ (c.body.nodes ++ b.nodes)] =
      Node.eraseAll [.command c.head _ (c.body.nodes ++ b'.nodes)]
    rw [Node.eraseAll_cons, Node.eraseAll_cons, Node.erase_command hc, Node.erase_command hc,
      Node.eraseAll_append, Node.eraseAll_append, hb]

/-- the innermost command has the same body with its end and without it -/
theorem eraseAll_encloseAll_empty (last last' : List Text) {cs : List OpenCommand}
    (h : ∀ c ∈ cs.tail, c.head.isPureMd = false) :
    Node.eraseAll (Reading.encloseAll last cs .empty).nodes =
      Node.eraseAll (Reading.encloseAll last' cs .empty).nodes := by
  cases cs with
  | nil => rfl
  | cons c cs => exact eraseAll_encloseAll last last' h rfl

/-- **A template whose last ends are missing is rendered as with them**, with one problem more for
each command left open, if none of these commands but the innermost is a `md` with `pure`, which
would hand on the lines of the ends. -/
theorem Engine.render_closed {σ : Type} (e : Engine σ) (source : Text) (scope : Scope)
    (h : ∀ head ∈ (Template.openAtEnd source).tail, head.isPureMd = false) :
    (e.render source scope).1 = (e.render (Template.closed source) scope).1 ∧
      (e.render source scope).2.world = (e.render (Template.closed source) scope).2.world ∧
      ∃ before after,
        (e.render (Template.closed source) scope).2.log.problems = before ++ after ∧
        (e.render source scope).2.log.problems = before ++
          (Template.openAtEnd source).map (fun head => .unclosedCommand head.name) ++ after := by
  have hopened : ∀ c ∈ (Template.reading source).opened.tail, c.head.isPureMd = false := by
    intro c hc
    refine h c.head ?_
    unfold Template.openAtEnd
    rw [← List.map_tail]
    exact List.mem_map_of_mem hc
  have hnodes : e.setting.renderNodes (Template.read source).nodes =
      e.setting.renderNodes (Template.read (Template.closed source)).nodes := by
    -- the trees are the same but for raw bodies that are not read
    rw [← e.setting.renderNodes_eraseAll, ← e.setting.renderNodes_eraseAll (Template.read _).nodes,
      Template.nodes_read, Template.nodes_closed, Node.eraseAll_append, Node.eraseAll_append,
      eraseAll_encloseAll_empty [] [endLine] hopened]
  rw [render_eq, render_eq, hnodes]
  let noted := Token.problemsOf source ++ (Template.reading source).strayEnds
  let rendered := e.setting.renderNodes (Template.read (Template.closed source)).nodes scope e.world
  refine ⟨rfl, rfl, e.log.problems ++ noted, rendered.problems, ?_, ?_⟩
  · show e.log.problems ++ (_ ++ rendered.problems) = _
    rw [Template.problems_closed, List.append_assoc e.log.problems]
  · show e.log.problems ++ (_ ++ rendered.problems) = _
    rw [Template.problems_read]
    simp only [noted, List.append_assoc]

/-- a condition with a `md` command with `pure` in it, both of them open -/
def Template.halfOpen : Text := "$if a$\n$md pure$\n#x#".toList

theorem render_closed_halfOpen :
    (Template.openAtEnd Template.halfOpen).map Head.name = ["md".toList, "if".toList] ∧
      Template.closed Template.halfOpen = "$if a$\n$md pure$\n#x#\n$end$\n$end$".toList ∧
      ((Engine.new {} Host.bare () .congruence).render Template.halfOpen
          [("a".toList, .bool true)]).1 =
        ((Engine.new {} Host.bare () .congruence).render (Template.closed Template.halfOpen)
          [("a".toList, .bool true)]).1 := by
  have hopen : Template.openAtEnd Template.halfOpen =
      [⟨"md".toList, ["pure".toList], false, "$md pure$".toList⟩,
        ⟨"if".toList, ["a".toList], false, "$if a$".toList⟩] := by cbv
  refine ⟨by rw [hopen]; rfl, by rw [Template.closed, hopen]; rfl, ?_⟩
  refine ((Engine.new {} Host.bare () .congruence).render_closed Template.halfOpen _ ?_).1
  rw [hopen]
  decide

/-- the output of a template that is one `md` command with `pure` -/
theorem Engine.render_pureMd {σ : Type} (e : Engine σ) {source rawBody : Text} {head : Head}
    {body : List Node} (h : head.isPureMd = true)
    (hnodes : (Template.read source).nodes = [.command head rawBody body]) (scope : Scope) :
    (e.render source scope).1.1 = e.host.markdown rawBody := by
  rw [render_eq, hnodes, Setting.renderNodes]
  show Text.joinLines ((e.setting.renderNode _ scope e.world).value.output.toList ++
    (e.setting.renderNodes [] _ _).value.1) = _
  rw [renderNode_pureMd e.setting h, Setting.renderNodes]
  exact Text.joinLines_singleton _

/-- a `md` command with `pure` hands on the end of the command in it, but only if there is one -/
theorem pureMd_output_closed :
    let e := Engine.new {} Host.bare () .congruence
    let source := "$md pure$\n$if a$".toList
    (Template.openAtEnd source).length = 2 ∧
      Template.closed source = "$md pure$\n$if a$\n$end$\n$end$".toList ∧
      (e.render source []).1.1 = "$if a$".toList ∧
      (e.render (Template.closed source) []).1.1 = "$if a$\n$end$".toList := by
  intro e source
  let head : Head := ⟨"md".toList, ["pure".toList], false, "$md pure$".toList⟩
  let inner : Node := .command ⟨"if".toList, ["a".toList], false, "$if a$".toList⟩ [] []
  have hpure : head.isPureMd = true := by decide
  have hlength : (Template.openAtEnd "$md pure$\n$if a$".toList).length = 2 := by cbv
  have hclosed : Template.closed source = "$md pure$\n$if a$\n$end$\n$end$".toList := by
    rw [Template.closed, hlength]
    rfl
  have hopen : (Template.read "$md pure$\n$if a$".toList).nodes =
      [.command head "$if a$".toList [inner]] := by cbv
  have hnodes : (Template.read "$md pure$\n$if a$\n$end$\n$end$".toList).nodes =
      [.command head "$if a$\n$end$".toList [inner]] := by cbv
  refine ⟨hlength, hclosed, ?_, ?_⟩
  · exact e.render_pureMd hpure hopen []
  · rw [hclosed]
    exact e.render_pureMd hpure hnodes []

end Stencil
