import Stencil.Command.Node

/-!
# Trees and the tokens they were built from

Nothing is lost, doubled or moved on building a tree: written out again, with an `end` behind each
command, it is the row of tokens it was built from, put in balance.  An `end` is put back without
the line and the parameters it had, which the tree does not keep.

* `Node.flatten`        a node as tokens;
* `Token.bare`          a token, an `end` without its line and its parameters;
* `Token.Paired`        a row in which each inline command stands before its text and its `end`;
* `Token.balance`       a row from left to right, with the ends that close nothing put aside;
* `Balance.closed`      the row that is kept, with an `end` for each command left open;
* `Levels.tokensAfter`  the later levels as tokens, some commands being open;
* `flatten_ofTokens`    the tree of a row is the row in balance, and the problems tell what was
                        dropped and what was added.
-/

namespace Stencil

/-! ## trees as tokens -/

/-- an `end` of which nothing but its kind is known -/
def Head.bareEnd (isInline : Bool) : Head := ⟨endName, [], isInline, []⟩

namespace Node

mutual

/-- a node as tokens: a command stands before its body and an `end` behind it -/
def flatten : Node → List Token
  | text line => [.text line]
  | command head _ body =>
    .command head :: (flattenAll body ++ [.command (Head.bareEnd head.isInline)])

def flattenAll : List Node → List Token
  | [] => []
  | node :: nodes => flatten node ++ flattenAll nodes

end

theorem flattenAll_nil : flattenAll [] = [] := by rw [flattenAll]

theorem flattenAll_cons (node : Node) (nodes : List Node) :
    flattenAll (node :: nodes) = flatten node ++ flattenAll nodes := by rw [flattenAll]

theorem flattenAll_append (ns ms : List Node) :
    flattenAll (ns ++ ms) = flattenAll ns ++ flattenAll ms := by
  induction ns with
  | nil => rw [flattenAll_nil]; rfl
  | cons n ns ih => rw [List.cons_append, flattenAll_cons, flattenAll_cons, ih, List.append_assoc]

theorem flatten_text (line : Text) : flatten (.text line) = [.text line] := by rw [flatten]

theorem flatten_inline {head : Head} (h : head.isInline = true) (line : Text) :
    flatten (.command head line [.text line]) =
      [.command head, .text line, .command (Head.bareEnd true)] := by
  rw [flatten, flattenAll_cons, flattenAll_nil, flatten_text, h]
  rfl

theorem flatten_block {head : Head} (h : head.isInline = false) (rawBody : Text)
    (body : List Node) : flatten (.command head rawBody body) =
      .command head :: flattenAll body ++ [.command (Head.bareEnd false)] := by
  rw [flatten, h]
  rfl

end Node

/-! ## rows in balance -/

namespace Token

/-- an `end` without its line and its parameters; any other token as it is -/
def bare : Token → Token
  | text line => text line
  | command h => if h.isEnd then command (Head.bareEnd h.isInline) else command h

theorem bare_end {h : Head} (he : h.isEnd = true) :
    bare (.command h) = .command (Head.bareEnd h.isInline) := if_pos he

theorem bare_command {h : Head} (he : h.isEnd = false) : bare (.command h) = .command h := by
  show (if h.isEnd then _ else _) = _
  rw [he]
  rfl

/-- a row in which each inline command is no `end` and stands before its text and an inline `end`,
and no other inline `end` stands -/
inductive Paired : List Token → Prop
  | nil : Paired []
  | text (line : Text) {ts : List Token} (hts : Paired ts) : Paired (.text line :: ts)
  | block (h : Head) {ts : List Token} (hi : h.isInline = false) (hts : Paired ts) :
    Paired (.command h :: ts)
  | inline (h e : Head) (line : Text) {ts : List Token} (hi : h.isInline = true)
    (hn : h.isEnd = false) (ei : e.isInline = true) (en : e.isEnd = true) (hts : Paired ts) :
    Paired (.command h :: .text line :: .command e :: ts)

end Token

/-- a row put in balance: what is kept of it, the ends that close nothing, and the names of the
commands that are open at its end, innermost first -/
structure Balance where
  kept : List Token
  dropped : List Token
  opened : List Text

namespace Balance

def keep (t : Token) (b : Balance) : Balance := { b with kept := t :: b.kept }

def drop (t : Token) (b : Balance) : Balance := { b with dropped := t :: b.dropped }

def closed (b : Balance) : List Token :=
  b.kept ++ b.opened.map fun _ => .command (Head.bareEnd false)

theorem closed_keep (t : Token) (b : Balance) : (b.keep t).closed = t :: b.closed := rfl

theorem closed_drop (t : Token) (b : Balance) : (b.drop t).closed = b.closed := rfl

end Balance

/-- a row put in balance from left to right, `opened` being the commands open before it: a block
command is opened, and an `end` closes the innermost command or, if none is open, is dropped -/
def Token.balance (opened : List Text) : List Token → Balance
  | [] => ⟨[], [], opened⟩
  | .text line :: ts => (balance opened ts).keep (.text line)
  | .command h :: ts =>
    if h.isInline then (balance opened ts).keep (.command h)
    else if h.isEnd then
      if opened = [] then (balance [] ts).drop (.command h)
      else (balance opened.tail ts).keep (.command h)
    else (balance (h.name :: opened) ts).keep (.command h)

namespace Token

theorem balance_inline {h : Head} (hi : h.isInline = true) (opened : List Text) (ts : List Token) :
    balance opened (.command h :: ts) = (balance opened ts).keep (.command h) := by
  rw [balance, if_pos hi]

theorem balance_end_nil {h : Head} (hi : h.isInline = false) (he : h.isEnd = true)
    (ts : List Token) : balance [] (.command h :: ts) = (balance [] ts).drop (.command h) := by
  rw [balance, if_neg (by rw [hi]; decide), if_pos he, if_pos rfl]

theorem balance_end_cons {h : Head} (hi : h.isInline = false) (he : h.isEnd = true) (name : Text)
    (outer : List Text) (ts : List Token) :
    balance (name :: outer) (.command h :: ts) = (balance outer ts).keep (.command h) := by
  rw [balance, if_neg (by rw [hi]; decide), if_pos he, if_neg (List.cons_ne_nil _ _)]
  rfl

theorem balance_block {h : Head} (hi : h.isInline = false) (he : h.isEnd = false)
    (opened : List Text) (ts : List Token) : balance opened (.command h :: ts) =
      (balance (h.name :: opened) ts).keep (.command h) := by
  rw [balance, if_neg (by rw [hi]; decide), if_neg (by rw [he]; decide)]

end Token

/-! ## levels as tokens -/

namespace Levels

/-- the later levels as tokens, so many commands being open: the end in front of a level is kept as
long as there is a command that it closes, and commands still open then are closed at the end -/
def tokensAfter : Nat → List (Text × Block) → List Token
  | depth, [] => List.replicate depth (.command (Head.bareEnd false))
  | 0, e :: later => Node.flattenAll e.2.nodes ++ tokensAfter 0 later
  | depth + 1, e :: later =>
    .command (Head.bareEnd false) :: (Node.flattenAll e.2.nodes ++ tokensAfter depth later)

/-- the levels as tokens, so many commands being open before them -/
def tokens (depth : Nat) (l : Levels) : List Token :=
  Node.flattenAll l.first.nodes ++ tokensAfter depth l.later

theorem tokensAfter_zero (later : List (Text × Block)) :
    tokensAfter 0 later = Node.flattenAll (later.flatMap fun e => e.2.nodes) := by
  induction later with
  | nil => rw [tokensAfter, List.flatMap_nil, Node.flattenAll_nil]; rfl
  | cons e later ih => rw [tokensAfter, List.flatMap_cons, Node.flattenAll_append, ih]

theorem tokens_zero (l : Levels) : l.tokens 0 = Node.flattenAll l.nodes := by
  rw [tokens, nodes, Node.flattenAll_append, tokensAfter_zero]

theorem tokens_empty (depth : Nat) :
    empty.tokens depth = List.replicate depth (.command (Head.bareEnd false)) := by
  show Node.flattenAll [] ++ tokensAfter depth [] = _
  rw [Node.flattenAll_nil, List.nil_append, tokensAfter]

theorem tokens_push (depth : Nat) (node : Node) (lines : List Text) (l : Levels) :
    (l.push node lines).tokens depth = Node.flatten node ++ l.tokens depth := by
  show Node.flattenAll (node :: l.first.nodes) ++ tokensAfter depth l.later = _
  rw [Node.flattenAll_cons, List.append_assoc]
  rfl

theorem tokens_cut_zero (source : Text) (l : Levels) : (l.cut source).tokens 0 = l.tokens 0 := by
  show Node.flattenAll [] ++ tokensAfter 0 ((source, l.first) :: l.later) = _
  rw [Node.flattenAll_nil, List.nil_append, tokensAfter]
  rfl

theorem tokens_cut_succ (depth : Nat) (source : Text) (l : Levels) :
    (l.cut source).tokens (depth + 1) = .command (Head.bareEnd false) :: l.tokens depth := by
  show Node.flattenAll [] ++ tokensAfter (depth + 1) ((source, l.first) :: l.later) = _
  rw [Node.flattenAll_nil, List.nil_append, tokensAfter]
  rfl

/-- a command takes the first level as its body, and the end behind it is the one that closes it -/
theorem tokens_wrap (depth : Nat) {head : Head} (hi : head.isInline = false) (l : Levels) :
    (l.wrap head).tokens depth = .command head :: l.tokens (depth + 1) := by
  obtain ⟨first, later, unclosed⟩ := l
  cases later with
  | nil =>
    show Node.flattenAll [.command head _ first.nodes] ++ tokensAfter depth [] =
      .command head :: (Node.flattenAll first.nodes ++ tokensAfter (depth + 1) [])
    rw [Node.flattenAll_cons, Node.flattenAll_nil, Node.flatten_block hi, tokensAfter, tokensAfter,
      List.replicate_succ, List.append_nil, List.append_assoc]
    rfl
  | cons e later =>
    show Node.flattenAll (.command head _ first.nodes :: e.2.nodes) ++ tokensAfter depth later =
      .command head :: (Node.flattenAll first.nodes ++ tokensAfter (depth + 1) (e :: later))
    rw [Node.flattenAll_cons, Node.flatten_block hi, tokensAfter, List.append_assoc,
      List.append_assoc]
    rfl

end Levels

/-! ## what building a tree keeps -/

theorem tokens_ofTokens {ts : List Token} (h : Token.Paired ts) (opened : List Text) :
    (Levels.ofTokens ts).tokens opened.length = (Token.balance opened ts).closed.map Token.bare := by
  -- `opened` is general: the tokens behind a command are read with that command open
  induction h generalizing opened with
  | nil =>
    rw [Levels.ofTokens_nil, Levels.tokens_empty]
    show _ = (opened.map fun _ => _).map Token.bare
    rw [List.map_map]
    exact (List.map_const' ..).symm
  | text line _ ih =>
    rw [Levels.ofTokens_text, Levels.tokens_push, ih, Node.flatten_text]
    rfl
  | inline h e line hi hn ei en _ ih =>
    rw [Levels.ofTokens_inline hn hi, Levels.tokens_push, ih, Node.flatten_inline hi,
      Token.balance_inline hi, Token.balance, Token.balance_inline ei, Balance.closed_keep,
      Balance.closed_keep, Balance.closed_keep, List.map_cons, List.map_cons, List.map_cons,
      Token.bare_command hn, Token.bare_end en, ei]
    rfl
  | block h hi _ ih =>
    cases he : h.isEnd with
    | false =>
      rw [Levels.ofTokens_block he hi, Levels.tokens_wrap _ hi, Token.balance_block hi he,
        Balance.closed_keep, List.map_cons, Token.bare_command he, ← ih (h.name :: opened)]
      rfl
    | true =>
      rw [Levels.ofTokens_end he]
      cases opened with
      | nil =>
        rw [Token.balance_end_nil hi he, Balance.closed_drop, ← ih []]
        exact Levels.tokens_cut_zero _ _
      | cons name outer =>
        rw [Token.balance_end_cons hi he, List.length_cons, Levels.tokens_cut_succ, ih outer,
          Balance.closed_keep, List.map_cons, Token.bare_end he, hi]

/-- the ends dropped are those in front of the levels that no open command takes -/
theorem length_dropped {ts : List Token} (h : Token.Paired ts) (opened : List Text) :
    (Token.balance opened ts).dropped.length =
      (Levels.ofTokens ts).later.length - opened.length := by
  induction h generalizing opened with
  | nil => rw [Levels.ofTokens_nil]; exact (Nat.zero_sub _).symm
  | text line _ ih => rw [Levels.ofTokens_text]; exact ih opened
  | inline h e line hi hn ei en _ ih =>
    rw [Levels.ofTokens_inline hn hi, Token.balance_inline hi, Token.balance,
      Token.balance_inline ei]
    exact ih opened
  | @block h ts hi _ ih =>
    cases he : h.isEnd with
    | false =>
      rw [Levels.ofTokens_block he hi, Token.balance_block hi he]
      show (Token.balance (h.name :: opened) ts).dropped.length = _
      rw [ih, List.length_cons]
      obtain ⟨first, later, unclosed⟩ := Levels.ofTokens ts
      cases later with
      | nil => show 0 - _ = 0 - _; rw [Nat.zero_sub, Nat.zero_sub]
      | cons e later => show later.length + 1 - (opened.length + 1) = later.length - opened.length; omega
    | true =>
      rw [Levels.ofTokens_end he]
      cases opened with
      | nil =>
        rw [Token.balance_end_nil hi he]
        show (Token.balance [] ts).dropped.length + 1 = (Levels.ofTokens ts).later.length + 1 - 0
        rw [ih]
        rfl
      | cons name outer =>
        rw [Token.balance_end_cons hi he]
        show (Token.balance outer ts).dropped.length =
          (Levels.ofTokens ts).later.length + 1 - (outer.length + 1)
        rw [ih]
        omega

theorem opened_balance {ts : List Token} (h : Token.Paired ts) (opened : List Text) :
    (Token.balance opened ts).opened = (Levels.ofTokens ts).unclosed.reverse ++
      opened.drop (Levels.ofTokens ts).later.length := by
  induction h generalizing opened with
  | nil => rw [Levels.ofTokens_nil]; rfl
  | text line _ ih => rw [Levels.ofTokens_text]; exact ih opened
  | inline h e line hi hn ei en _ ih =>
    rw [Levels.ofTokens_inline hn hi, Token.balance_inline hi, Token.balance,
      Token.balance_inline ei]
    exact ih opened
  | @block h ts hi _ ih =>
    cases he : h.isEnd with
    | false =>
      rw [Levels.ofTokens_block he hi, Token.balance_block hi he]
      show (Token.balance (h.name :: opened) ts).opened = _
      rw [ih]
      obtain ⟨first, later, unclosed⟩ := Levels.ofTokens ts
      cases later with
      | nil =>
        show unclosed.reverse ++ h.name :: opened = (h.name :: unclosed).reverse ++ opened
        rw [List.reverse_cons, List.append_assoc]
        rfl
      | cons e later => rfl
    | true =>
      rw [Levels.ofTokens_end he]
      cases opened with
      | nil =>
        rw [Token.balance_end_nil hi he]
        show (Token.balance [] ts).opened = _
        rw [ih, List.drop_nil, List.drop_nil]
        rfl
      | cons name outer =>
        rw [Token.balance_end_cons hi he]
        exact ih outer

theorem flattenAll_ofTokens {ts : List Token} (h : Token.Paired ts) :
    Node.flattenAll (Node.ofTokens ts) = (Token.balance [] ts).closed.map Token.bare := by
  rw [← tokens_ofTokens h []]
  exact (Levels.tokens_zero _).symm

theorem problemsOfTokens_eq {ts : List Token} (h : Token.Paired ts) :
    Node.problemsOfTokens ts = (Token.balance [] ts).dropped.map (fun _ => .strayEnd) ++
      (Token.balance [] ts).opened.map .unclosedCommand := by
  rw [opened_balance h, List.drop_nil, List.append_nil, List.map_const', length_dropped h]
  show (Levels.ofTokens ts).later.map _ ++ _ = _
  rw [List.map_const']
  rfl

/-- **The tree of a row is the row in balance**, with the lines and parameters of its ends left
out; there is one problem for each `end` dropped, and then one for each `end` added, innermost
command first. -/
theorem flatten_ofTokens {ts : List Token} (h : Token.Paired ts) :
    Node.flattenAll (Node.ofTokens ts) = (Token.balance [] ts).closed.map Token.bare ∧
      Node.problemsOfTokens ts = (Token.balance [] ts).dropped.map (fun _ => .strayEnd) ++
        (Token.balance [] ts).opened.map .unclosedCommand :=
  ⟨flattenAll_ofTokens h, problemsOfTokens_eq h⟩

/-- a stray `end`, a command in one line, and two commands left open, the inner one around text -/
def Token.unbalanced : List Token :=
  [.command ⟨endName, ["if".toList], false, "$end if$".toList⟩,
    .command ⟨"if".toList, ["a".toList], false, "$if a$".toList⟩,
    .command ⟨"md".toList, [], true, "$md$b$end$".toList⟩, .text "b".toList,
    .command Head.inlineEnd,
    .command ⟨"md".toList, [], false, "$md$".toList⟩, .text "c".toList]

theorem flatten_ofTokens_unbalanced :
    Token.Paired Token.unbalanced ∧
      Node.flattenAll (Node.ofTokens Token.unbalanced) =
        [.command ⟨"if".toList, ["a".toList], false, "$if a$".toList⟩,
          .command ⟨"md".toList, [], true, "$md$b$end$".toList⟩, .text "b".toList,
          .command (Head.bareEnd true),
          .command ⟨"md".toList, [], false, "$md$".toList⟩, .text "c".toList,
          .command (Head.bareEnd false), .command (Head.bareEnd false)] ∧
      Node.problemsOfTokens Token.unbalanced =
        [.strayEnd, .unclosedCommand "md".toList, .unclosedCommand "if".toList] := by
  have h : Token.Paired Token.unbalanced :=
    .block _ rfl (.block _ rfl (.inline _ _ _ rfl rfl rfl rfl (.block _ rfl (.text _ .nil))))
  obtain ⟨hf, hp⟩ := flatten_ofTokens h
  refine ⟨h, hf.trans ?_, hp.trans ?_⟩
  · decide
  · decide

/-! ## what a tree does not keep -/

def Token.withoutLine : Token → Token
  | .text line => .text line
  | .command h => if h.isEnd then .command { h with source := [] } else .command h

/-- a command and its `end`, which has some parameters -/
def Token.ended (params : List Text) : List Token :=
  [.command ⟨"if".toList, ["a".toList], false, "$if a$".toList⟩,
    .command ⟨endName, params, false, "$end$".toList⟩]

/-- the parameters of an `end` are lost, so that a row is not given back up to the lines of its
ends alone, neither by `flattenAll` nor in any other way -/
theorem end_params_lost :
    Token.Paired (Token.ended ["b".toList]) ∧
      (Node.flattenAll (Node.ofTokens (Token.ended ["b".toList]))).map Token.withoutLine ≠
        (Token.balance [] (Token.ended ["b".toList])).closed.map Token.withoutLine ∧
      Node.ofTokens (Token.ended ["b".toList]) = Node.ofTokens (Token.ended []) := by
  have h : ∀ params, Token.Paired (Token.ended params) :=
    fun params => .block _ rfl (.block _ rfl .nil)
  refine ⟨h _, ?_, ?_⟩
  · rw [flattenAll_ofTokens (h _)]
    decide
  · have hw : ∀ params, Levels.ofTokens (Token.ended params) =
        (Levels.empty.cut "$end$".toList).wrap ⟨"if".toList, ["a".toList], false,
          "$if a$".toList⟩ := by
      intro params
      unfold Token.ended
      rw [Levels.ofTokens_block rfl rfl, Levels.ofTokens_end rfl, Levels.ofTokens_nil]
    unfold Node.ofTokens
    rw [hw, hw]

end Stencil
