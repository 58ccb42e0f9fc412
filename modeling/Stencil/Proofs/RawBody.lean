import Mathlib.Tactic
import Stencil.Engine

/-!
# The lines of a body

The raw body of a block command is the lines of the template between the line of the command and
the line of the `end` that belongs to it, as they are.  Which `end` belongs to it is said on the
lines alone: the first one behind it at which no command is open that was opened in between.

* `LineShape.isInlineEnd`   whether a line is an `end` in one line with a text;
* `linesToEnd`              the lines up to the `end` of the block they stand in;
* `blocksOfLines`           the block commands of some lines, each with the lines of its body;
* `Node.blocks`             the block commands of a tree, each with its raw body;
* `Levels.linesWithin`      the lines of the first levels, with those of the ends between them;
* `blocks_parse`            the tree of a template has the blocks of its lines, and a `md` command
                            with `pure` hands on its raw body as it is.
-/

namespace Stencil

/-! ## blocks of lines -/

/-- whether a line is an `end` in one line with a text, which closes more than one block -/
def LineShape.isInlineEnd : LineShape → Bool
  | inline head _ => head.isEnd
  | _ => false

/-- the lines up to the `end` of the block they stand in, `depth` blocks being open inside it; all
lines if it has no `end` -/
def linesToEnd (depth : Nat) : List Text → List Text
  | [] => []
  | line :: lines =>
    match LineShape.of line with
    | .block head =>
      if head.isEnd then if depth = 0 then [] else line :: linesToEnd (depth - 1) lines
      else line :: linesToEnd (depth + 1) lines
    | _ => line :: linesToEnd depth lines

/-- the block commands of some lines, each with the lines up to its `end` as one text -/
def blocksOfLines : List Text → List (Head × Text)
  | [] => []
  | line :: lines =>
    match LineShape.of line with
    | .block head =>
      if head.isEnd then blocksOfLines lines
      else (head, Text.joinLines (linesToEnd 0 lines)) :: blocksOfLines lines
    | _ => blocksOfLines lines

namespace Node

mutual

/-- the block commands in a node, outer ones first, each with its raw body -/
def blocks : Node → List (Head × Text)
  | text _ => []
  | command head rawBody body =>
    (if head.isInline then [] else [(head, rawBody)]) ++ blocksAll body

def blocksAll : List Node → List (Head × Text)
  | [] => []
  | node :: nodes => blocks node ++ blocksAll nodes

end

theorem blocksAll_nil : blocksAll [] = [] := by rw [blocksAll]

theorem blocksAll_cons (node : Node) (nodes : List Node) :
    blocksAll (node :: nodes) = blocks node ++ blocksAll nodes := by rw [blocksAll]

theorem blocksAll_append (ns ms : List Node) :
    blocksAll (ns ++ ms) = blocksAll ns ++ blocksAll ms := by
  induction ns with
  | nil => rw [blocksAll_nil]; rfl
  | cons n ns ih => rw [List.cons_append, blocksAll_cons, blocksAll_cons, ih, List.append_assoc]

theorem blocks_text (line : Text) : blocks (.text line) = [] := by rw [blocks]

theorem blocks_inline {head : Head} (h : head.isInline = true) (line : Text) :
    blocks (.command head line [.text line]) = [] := by
  rw [blocks, h, blocksAll_cons, blocksAll_nil, blocks_text]
  rfl

theorem blocks_block {head : Head} (h : head.isInline = false) (rawBody : Text)
    (body : List Node) : blocks (.command head rawBody body) =
      (head, rawBody) :: blocksAll body := by
  rw [blocks, h]
  rfl

end Node

/-! ## levels of lines -/

namespace Levels

def ofLines (lines : List Text) : Levels := ofTokens (lines.flatMap Token.ofLine)

/-- the lines of the first level and of so many levels after it, with the ends between them -/
def linesWithin (depth : Nat) (l : Levels) : List Text :=
  l.first.lines ++ (l.later.take depth).flatMap fun e => e.1 :: e.2.lines

theorem ofLines_nil : ofLines [] = empty := by
  show ofTokens [] = empty
  rw [ofTokens_nil]

theorem ofLines_cons (line : Text) (lines : List Text) :
    ofLines (line :: lines) =
      ofTokens ((LineShape.of line).tokens line ++ lines.flatMap Token.ofLine) := by
  rw [ofLines, List.flatMap_cons]
  rfl

theorem ofLines_text {line : Text} (h : LineShape.of line = .text) (lines : List Text) :
    ofLines (line :: lines) = (ofLines lines).push (.text line) [line] := by
  rw [ofLines_cons, h]
  exact ofTokens_text line _

theorem ofLines_flawed {line : Text} {p : Problem} (h : LineShape.of line = .flawed p)
    (lines : List Text) : ofLines (line :: lines) = (ofLines lines).push (.text line) [line] := by
  rw [ofLines_cons, h]
  exact ofTokens_text line _

theorem ofLines_inline {line body : Text} {head : Head} (h : LineShape.of line = .inline head body)
    (he : head.isEnd = false) (lines : List Text) :
    ofLines (line :: lines) = (ofLines lines).push (.command head body [.text body]) [line] := by
  obtain ⟨hs, hi⟩ := LineShape.source_of_inline h
  rw [ofLines_cons, h]
  exact (ofTokens_inline he hi body _ _).trans (by rw [hs]; rfl)

theorem ofLines_end {line : Text} {head : Head} (h : LineShape.of line = .block head)
    (he : head.isEnd = true) (lines : List Text) :
    ofLines (line :: lines) = (ofLines lines).cut line := by
  rw [ofLines_cons, h]
  exact (ofTokens_end he _).trans (by rw [(LineShape.source_of_block h).1]; rfl)

theorem ofLines_block {line : Text} {head : Head} (h : LineShape.of line = .block head)
    (he : head.isEnd = false) (lines : List Text) :
    ofLines (line :: lines) = (ofLines lines).wrap head := by
  rw [ofLines_cons, h]
  exact ofTokens_block he (LineShape.source_of_block h).2 _

/-! ## what the operations on levels do to lines and blocks -/

theorem linesWithin_push (depth : Nat) (node : Node) (line : Text) (l : Levels) :
    (l.push node [line]).linesWithin depth = line :: l.linesWithin depth := rfl

theorem linesWithin_cut_succ (depth : Nat) (source : Text) (l : Levels) :
    (l.cut source).linesWithin (depth + 1) = source :: l.linesWithin depth := rfl

/-- a command takes the first level with the `end` behind it, so that one level more is inside -/
theorem linesWithin_wrap (depth : Nat) (head : Head) (l : Levels) :
    (l.wrap head).linesWithin depth = head.source :: l.linesWithin (depth + 1) := by
  obtain ⟨first, later, unclosed⟩ := l
  cases later with
  | nil =>
    show head.source :: first.lines ++ [] ++ (([] : List (Text × Block)).take depth).flatMap _ =
      head.source :: (first.lines ++ _)
    rw [List.take_nil, List.append_nil]
    rfl
  | cons e later =>
    show head.source :: first.lines ++ [e.1] ++ e.2.lines ++ _ =
      head.source :: (first.lines ++ (e.1 :: e.2.lines ++ _))
    rw [List.append_assoc, List.append_assoc]
    rfl

theorem blocksAll_nodes_push (node : Node) (lines : List Text) (l : Levels) :
    Node.blocksAll (l.push node lines).nodes = Node.blocks node ++ Node.blocksAll l.nodes := by
  show Node.blocksAll (node :: (l.first.nodes ++ _)) = _
  rw [Node.blocksAll_cons]
  rfl

theorem nodes_cut (source : Text) (l : Levels) : (l.cut source).nodes = l.nodes := rfl

theorem blocksAll_nodes_wrap {head : Head} (hi : head.isInline = false) (l : Levels) :
    Node.blocksAll (l.wrap head).nodes =
      (head, Text.joinLines (l.linesWithin 0)) :: Node.blocksAll l.nodes := by
  obtain ⟨first, later, unclosed⟩ := l
  have hw : Levels.linesWithin 0 ⟨first, later, unclosed⟩ = first.lines := List.append_nil _
  rw [hw]
  cases later with
  | nil =>
    show Node.blocksAll (.command head (Text.joinLines first.lines) first.nodes :: ([] ++ [])) =
      _ :: Node.blocksAll (first.nodes ++ [])
    rw [Node.blocksAll_cons, Node.blocks_block hi, List.append_nil, List.append_nil,
      Node.blocksAll_nil, List.append_nil]
  | cons e later =>
    show Node.blocksAll (.command head (Text.joinLines first.lines) first.nodes ::
      (e.2.nodes ++ later.flatMap _)) = _ :: Node.blocksAll (first.nodes ++ (e.2.nodes ++ _))
    rw [Node.blocksAll_cons, Node.blocks_block hi, Node.blocksAll_append first.nodes]
    rfl

end Levels

/-! ## the bodies of blocks in the lines of a template -/

theorem linesToEnd_eq {lines : List Text}
    (h : ∀ line ∈ lines, (LineShape.of line).isInlineEnd = false) (depth : Nat) :
    linesToEnd depth lines = (Levels.ofLines lines).linesWithin depth := by
  induction lines generalizing depth with
  | nil =>
    rw [linesToEnd, Levels.ofLines_nil]
    show [] = [] ++ (([] : List (Text × Block)).take depth).flatMap _
    rw [List.take_nil]
    rfl
  | cons line lines ih =>
    have hline := h line List.mem_cons_self
    have ih' := ih fun l hl => h l (List.mem_cons_of_mem _ hl)
    rw [linesToEnd]
    cases hs : LineShape.of line with
    | text => rw [Levels.ofLines_text hs, Levels.linesWithin_push, ← ih']
    | flawed p => rw [Levels.ofLines_flawed hs, Levels.linesWithin_push, ← ih']
    | inline head body =>
      rw [hs] at hline
      rw [Levels.ofLines_inline hs hline, Levels.linesWithin_push, ← ih']
    | block head =>
      cases he : head.isEnd with
      | false =>
        rw [Levels.ofLines_block hs he, Levels.linesWithin_wrap, ← ih',
          (LineShape.source_of_block hs).1]
        exact if_neg (by rw [he]; decide)
      | true =>
        rw [Levels.ofLines_end hs he]
        refine (if_pos he).trans ?_
        cases depth with
        | zero => rfl
        | succ depth =>
          rw [Levels.linesWithin_cut_succ, ← ih', if_neg (Nat.succ_ne_zero depth)]
          rfl

theorem blocksAll_ofLines {lines : List Text}
    (h : ∀ line ∈ lines, (LineShape.of line).isInlineEnd = false) :
    Node.blocksAll (Levels.ofLines lines).nodes = blocksOfLines lines := by
  induction lines with
  | nil => rw [Levels.ofLines_nil, blocksOfLines]; exact Node.blocksAll_nil
  | cons line lines ih =>
    have hline := h line List.mem_cons_self
    have hlines : ∀ l ∈ lines, (LineShape.of l).isInlineEnd = false :=
      fun l hl => h l (List.mem_cons_of_mem _ hl)
    rw [blocksOfLines]
    cases hs : LineShape.of line with
    | text =>
      rw [Levels.ofLines_text hs, Levels.blocksAll_nodes_push, Node.blocks_text, ih hlines]
      rfl
    | flawed p =>
      rw [Levels.ofLines_flawed hs, Levels.blocksAll_nodes_push, Node.blocks_text, ih hlines]
      rfl
    | inline head body =>
      rw [hs] at hline
      rw [Levels.ofLines_inline hs hline, Levels.blocksAll_nodes_push,
        Node.blocks_inline (LineShape.source_of_inline hs).2, ih hlines]
      rfl
    | block head =>
      cases he : head.isEnd with
      | false =>
        rw [Levels.ofLines_block hs he,
          Levels.blocksAll_nodes_wrap (LineShape.source_of_block hs).2, ih hlines,
          ← linesToEnd_eq hlines]
        exact (if_neg (by rw [he]; decide)).symm
      | true =>
        rw [Levels.ofLines_end hs he, Levels.nodes_cut, ih hlines]
        exact (if_pos he).symm

/-! ## Markdown as it is -/

def Head.mdArguments (h : Head) : Checked :=
  CommandKind.md.signature.check (.command h.name) h.params

/-- whether a command is a `md` command that is valid and has `pure` -/
def Head.isPureMd (h : Head) : Bool :=
  CommandKind.ofName? h.name = some .md && h.mdArguments.isValid && h.mdArguments.has .pure

/-- a `md` command with `pure` hands on its raw body, and nothing else happens -/
theorem renderNode_pureMd {σ : Type} (set : Setting σ) {head : Head} (h : head.isPureMd = true)
    (rawBody : Text) (body : List Node) (scope : Scope) (w : World σ) :
    set.renderNode (.command head rawBody body) scope w =
      ⟨⟨some (set.host.markdown rawBody), none, scope⟩, head.mdArguments.problems, w⟩ := by
  unfold Head.isPureMd at h
  simp only [Bool.and_eq_true, decide_eq_true_eq] at h
  obtain ⟨⟨hk, hv⟩, hp⟩ := h
  unfold Head.mdArguments at hv hp
  rw [Setting.renderNode, Setting.command_of_valid set rawBody _ scope hk hv, Setting.runKind_md,
    hp, Setting.runMd_verbatim, Run.noteAll_pure]
  rfl

/-- **The raw body of a block is its lines, as they are**: the block commands of the tree are those
of the lines of the template, each with the lines up to its `end`; and a `md` command with `pure`
hands on exactly this text, evaluates nothing and leaves the scope as it is. -/
theorem blocks_parse {σ : Type} (e : Engine σ) (source : Text)
    (h : ∀ line ∈ List.splitOn '\n' source, (LineShape.of line).isInlineEnd = false) :
    Node.blocksAll (e.parse source).1 = blocksOfLines (List.splitOn '\n' source) ∧
      ∀ (set : Setting σ) (head : Head) (rawBody : Text) (body : List Node) (scope : Scope)
        (w : World σ), head.isPureMd = true →
        set.renderNode (.command head rawBody body) scope w =
          ⟨⟨some (set.host.markdown rawBody), none, scope⟩, head.mdArguments.problems, w⟩ :=
  ⟨blocksAll_ofLines h, fun set _ rawBody body scope w hp =>
    renderNode_pureMd set hp rawBody body scope w⟩

/-- a `md` block with `pure` around a block, a line with its own end, and some white space -/
def nestedPure : Text := "$md pure$\n  $if a$\r\nx\n$end$\n$if b$y$end$\n$end$".toList

def nestedPureHead : Head := ⟨"md".toList, ["pure".toList], false, "$md pure$".toList⟩

theorem blocks_parse_nestedPure :
    (∀ line ∈ List.splitOn '\n' nestedPure, (LineShape.of line).isInlineEnd = false) ∧
      nestedPureHead.isPureMd = true ∧
      Node.blocksAll ((Engine.new {} Host.bare () .congruence).parse nestedPure).1 =
        [(nestedPureHead, "  $if a$\r\nx\n$end$\n$if b$y$end$".toList),
          (⟨"if".toList, ["a".toList], false, "  $if a$\r".toList⟩, "x".toList)] ∧
      (Setting.top {} Host.bare []).renderNode (.command nestedPureHead "#x#".toList []) []
        ⟨(), .congruence 0⟩ = ⟨⟨some "#x#".toList, none, []⟩, [], ⟨(), .congruence 0⟩⟩ := by
  have hall : ((List.splitOn '\n' nestedPure).all
      fun line => (LineShape.of line).isInlineEnd == false) = true := by cbv
  have h : ∀ line ∈ List.splitOn '\n' nestedPure, (LineShape.of line).isInlineEnd = false :=
    fun line hl => eq_of_beq (List.all_eq_true.mp hall line hl)
  have hp : nestedPureHead.isPureMd = true := by decide
  obtain ⟨hb, hr⟩ := blocks_parse (Engine.new {} Host.bare () .congruence) nestedPure h
  refine ⟨h, hp, hb.trans (by cbv), ?_⟩
  exact (hr (Setting.top {} Host.bare []) nestedPureHead "#x#".toList [] [] ⟨(), .congruence 0⟩
    hp).trans rfl

end Stencil
