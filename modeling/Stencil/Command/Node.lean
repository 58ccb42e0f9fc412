import Stencil.Command.Token

/-!
# Trees of commands

The tokens between a command and the `end` that belongs to it are its body. The tree is built from
the last token to the first: what is read so far is cut at each `end` that is still without a
command, and a command takes what stands before the first such `end`.

* `Node`              a line of text, or a command with its body;
* `Block`             nodes, and the lines they were read from;
* `Levels`            what is read so far, cut at the ends without a command;
* `Levels.ofTokens`   the levels of a row of tokens;
* `Node.ofTokens`     the tree of a row of tokens; an `end` without a command is dropped;
* `Node.problemsOfTokens`   the problems noted on building it.
-/

namespace Stencil

/-- a line of text, or a command with the lines between it and its end, as they are and as nodes -/
inductive Node
  | text (line : Text)
  | command (head : Head) (rawBody : Text) (body : List Node)

/-- nodes, and the lines they were read from -/
structure Block where
  nodes : List Node
  lines : List Text

namespace Block

def empty : Block := ⟨[], []⟩

def push (node : Node) (lines : List Text) (b : Block) : Block :=
  ⟨node :: b.nodes, lines ++ b.lines⟩

end Block

/-- a row of tokens, cut at each end without a command: what stands before the first such end,
then for each of them its line and what follows it; and the commands without an end, outermost
first -/
structure Levels where
  first : Block
  later : List (Text × Block)
  unclosed : List Text

namespace Levels

def empty : Levels := ⟨.empty, [], []⟩

def push (node : Node) (lines : List Text) (l : Levels) : Levels :=
  { l with first := l.first.push node lines }

/-- an end in front -/
def cut (source : Text) (l : Levels) : Levels :=
  { l with first := .empty, later := (source, l.first) :: l.later }

/-- a command in front, which takes what stands before the first end as its body -/
def wrap (head : Head) (l : Levels) : Levels :=
  let node := Node.command head (Text.joinLines l.first.lines) l.first.nodes
  match l.later with
  | [] => ⟨Block.empty.push node (head.source :: l.first.lines), [], head.name :: l.unclosed⟩
  | (source, b) :: later =>
    ⟨b.push node (head.source :: l.first.lines ++ [source]), later, l.unclosed⟩

/-- a command that stands in one line with its text, which is the next token -/
def inlineNode (head : Head) : Option Token → Node
  | some (.text line) => .command head line [.text line]
  | _ => .command head [] []

/-- the levels of a row of tokens; a command in one line with its text has taken its text and its
end with it -/
def ofTokens (ts : List Token) : Levels :=
  match ts with
  | [] => .empty
  | .text line :: ts => (ofTokens ts).push (.text line) [line]
  | .command head :: ts =>
    if head.isEnd then (ofTokens ts).cut head.source
    else if head.isInline then
      (ofTokens (ts.drop 2)).push (inlineNode head ts.head?) [head.source]
    else (ofTokens ts).wrap head
termination_by ts.length
decreasing_by
  · simp only [List.length_cons]
    omega
  · simp only [List.length_cons]
    omega
  · simp only [List.length_cons, List.length_drop]
    omega
  · simp only [List.length_cons]
    omega

@[simp] theorem ofTokens_nil : ofTokens [] = empty := by rw [ofTokens]

theorem ofTokens_text (line : Text) (ts : List Token) :
    ofTokens (.text line :: ts) = (ofTokens ts).push (.text line) [line] := by
  rw [ofTokens]

theorem ofTokens_end {head : Head} (h : head.isEnd = true) (ts : List Token) :
    ofTokens (.command head :: ts) = (ofTokens ts).cut head.source := by
  rw [ofTokens, if_pos h]

theorem ofTokens_inline {head : Head} (h : head.isEnd = false) (hi : head.isInline = true)
    (line : Text) (t : Token) (ts : List Token) :
    ofTokens (.command head :: .text line :: t :: ts) =
      (ofTokens ts).push (.command head line [.text line]) [head.source] := by
  rw [ofTokens, if_neg (by rw [h]; decide), if_pos hi]
  rfl

theorem ofTokens_block {head : Head} (h : head.isEnd = false) (hi : head.isInline = false)
    (ts : List Token) : ofTokens (.command head :: ts) = (ofTokens ts).wrap head := by
  rw [ofTokens, if_neg (by rw [h]; decide), if_neg (by rw [hi]; decide)]

def nodes (l : Levels) : List Node := l.first.nodes ++ l.later.flatMap fun e => e.2.nodes

/-- an end without a command is noted, and then, innermost first, each command without an end -/
def problems (l : Levels) : List Problem :=
  l.later.map (fun _ => .strayEnd) ++ l.unclosed.reverse.map .unclosedCommand

end Levels

namespace Node

def ofTokens (ts : List Token) : List Node := (Levels.ofTokens ts).nodes

/-- the problems noted on building the tree of a row of tokens -/
def problemsOfTokens (ts : List Token) : List Problem := (Levels.ofTokens ts).problems

def ofSource (source : Text) : List Node := ofTokens (Token.ofSource source)

end Node

end Stencil
