import Stencil.Proofs.Fetched
import Stencil.Proofs.Iteration
import Stencil.Proofs.Transparent
import Stencil.Proofs.WholeNumbers
import Stencil.Proofs.Writing
import Stencil.Standard

/-!
# Calls in the order of the output

A host function is called when the line with its reference is rendered, and the host keeps what the
call made of it: no scope that is left takes a call back, and no line makes one twice.

* `Host.called`, `Host.answer`     the host after so many calls of a function, and what the next one
                                   gives;
* `Host.answered`                  lines with the answers of calls that follow each other;
* `Host.CountsFrom`                the answers are whole numbers, each the next one;
* `CallsBetween`, `Calling`        lines with one call, and trees of them;
* `Unrolls`, `UnrollsAll`          the lines that a tree comes to, in the order of the output;
* `Printed`                        what is printed between two worlds;
* `Setting.Answers`                a body prints the lines that it comes to, and calls nothing else;
* `Setting.renderNodes_answers`    so does every tree of lines with a call;
* `Setting.renderNodes_counted`    what is printed if the function counts.
-/

namespace Stencil

/-! ## calls that follow each other -/

namespace Host

variable {σ : Type} (host : Host σ) (f : Callable)

/-- the host after so many calls of a function -/
def called : Nat → σ → σ
  | 0, s => s
  | k + 1, s => called k (host.invoke f.id s).2

def answer (s : σ) (k : Nat) : Value := (host.invoke f.id (host.called f k s)).1

def answered (s : σ) (lines : List (Text × Text)) : List Text :=
  lines.mapIdx fun k line => line.1 ++ ((host.answer f s k).display ++ line.2)

theorem called_add (s : σ) (j k : Nat) :
    host.called f (j + k) s = host.called f k (host.called f j s) := by
  induction j generalizing s with
  | zero => rw [Nat.zero_add, called]
  | succ j ih => rw [Nat.succ_add, called, ih, called]

theorem answered_append (s : σ) (lines more : List (Text × Text)) :
    host.answered f s (lines ++ more) =
      host.answered f s lines ++ host.answered f (host.called f lines.length s) more := by
  have hanswer : ∀ k, host.answer f s (k + lines.length) =
      host.answer f (host.called f lines.length s) k := fun k => by
    rw [answer, answer, Nat.add_comm, called_add]
  simp only [answered, List.mapIdx_append, hanswer]

/-- the answers are the whole numbers from `N` on, each of them rounded -/
def CountsFrom (s : σ) (N : Int) : Prop :=
  ∀ k : Nat, host.answer f s k = .number (.nearest ((N + k : Int) : Rat))

end Host

theorem Host.countsFrom_of_counter {host : Host Callees} (hinvoke : host.invoke = Callees.invoke)
    {f : Callable} {fs : Callees} {N : Int} (h : fs[f.id]? = some (.counter N)) :
    host.CountsFrom f fs N := by
  have hcall : ∀ {gs : Callees} {m : Int}, gs[f.id]? = some (.counter m) →
      host.invoke f.id gs = (.number (.nearest m), gs.set f.id (.counter (m + 1))) := by
    intro gs m hm
    rw [hinvoke, Callees.invoke, hm]
  intro k
  induction k generalizing fs N with
  | zero =>
    rw [answer, called, hcall h, Int.natCast_zero, Int.add_zero]
  | succ k ih =>
    have hlt : f.id < fs.length := (List.getElem?_eq_some_iff.mp h).1
    have hnext := ih (List.getElem?_set_self hlt (a := .counter (N + 1)))
    have hsum : N + 1 + (k : Int) = N + ((k + 1 : Nat) : Int) := by omega
    rw [answer, called, hcall h, ← hsum]
    exact hnext

/-! ## trees of lines with a call -/

/-- a line that is read as a call of a variable between two texts -/
def CallsBetween (n p q line : Text) : Prop :=
  Segment.scan line = p.foldr Segment.consLiteral
    (.reference ⟨n, ["call".toList]⟩ :: q.foldr Segment.consLiteral [])

/-- such a line is a plain name and `call` between two `#`, and the two texts with their escapes -/
theorem callsBetween_write {n : Text} (hn : n.Plain) (p q : Text) :
    CallsBetween n p q (escape p ++ '#' :: (Text.joinWords [n, "call".toList] ++ '#' :: escape q))
    := by
  have hwords : ∀ w ∈ [n, "call".toList], w ≠ [] ∧ w.Solid := by
    intro w hw
    have hplain : w.Plain := by
      rcases List.mem_pair.mp hw with rfl | rfl
      · exact hn
      · decide
    exact ⟨hplain.ne_nil, Text.solid_of_chars hplain.chars⟩
  have hq := Segment.scan_escape_append q []
  rw [List.append_nil, Segment.scan_nil] at hq
  rw [CallsBetween, Segment.scan_escape_append, Segment.scan_joinWords_append hwords, hq,
    unescape_of_plain hn.chars]
  rfl

/-- nodes that are lines with one call of a variable, and `if` and `foreach` around such nodes.
What these depend on are variables, and `foreach` does not bind the variable that is called. -/
inductive Calling (n : Text) : List Node → Prop
  | nil : Calling n []
  | line {p q line : Text} {nodes : List Node} (hline : CallsBetween n p q line)
      (hrest : Calling n nodes) : Calling n (.text line :: nodes)
  | cond {head : Head} {rawBody c : Text} {rest : List Text} {body nodes : List Node}
      (hname : head.name = "if".toList) (hparams : head.params = c :: rest)
      (hc : startsReference c = false) (hbody : Calling n body) (hrest : Calling n nodes) :
      Calling n (.command head rawBody body :: nodes)
  | each {head : Head} {rawBody x source : Text} {rest : List Text} {body nodes : List Node}
      (hname : head.name = "foreach".toList) (hparams : head.params = x :: source :: rest)
      (hx : x ≠ n) (hsource : startsReference source = false) (hbody : Calling n body)
      (hrest : Calling n nodes) : Calling n (.command head rawBody body :: nodes)

def Value.items : Value → List Value
  | .list items => items
  | _ => []

def Scope.valueOf (scope : Scope) (name : Text) : Value := (scope.get? name).getD .null

mutual

/-- the lines that a node comes to in a scope, in the order of the output, and the scope it leaves:
the body of an `if` that holds, and that of `foreach` once for each item, in an order that is asked
for -/
inductive Unrolls (n : Text) : Node → Scope → List (Text × Text) → Scope → Prop
  | line {p q line : Text} {scope : Scope} (hline : CallsBetween n p q line) :
      Unrolls n (.text line) scope [(p, q)] scope
  | skip {head : Head} {rawBody c : Text} {rest : List Text} {body : List Node} {scope : Scope}
      (hname : head.name = "if".toList) (hparams : head.params = c :: rest)
      (hc : (scope.valueOf c).isTruthy = false) :
      Unrolls n (.command head rawBody body) scope [] scope
  | cond {head : Head} {rawBody c : Text} {rest : List Text} {body : List Node}
      {scope inner : Scope} {lines : List (Text × Text)} (hname : head.name = "if".toList)
      (hparams : head.params = c :: rest) (hc : (scope.valueOf c).isTruthy = true)
      (hbody : UnrollsAll n body scope lines inner) :
      Unrolls n (.command head rawBody body) scope lines
        (if "unscoped".toList ∈ rest then inner else scope)
  | each {head : Head} {rawBody x source : Text} {rest : List Text} {body : List Node}
      {scope inner : Scope} {ordered : List Value} {lines : List (Text × Text)}
      (hname : head.name = "foreach".toList) (hparams : head.params = x :: source :: rest)
      (horder : Order.Arranges (scope.valueOf source).items ordered (Order.asked rest).head?)
      (hbody : UnrollsEach n x body ordered scope lines inner) :
      Unrolls n (.command head rawBody body) scope lines
        (if "unscoped".toList ∈ rest then inner else scope)

/-- the lines that nodes come to, one after the other -/
inductive UnrollsAll (n : Text) : List Node → Scope → List (Text × Text) → Scope → Prop
  | nil {scope : Scope} : UnrollsAll n [] scope [] scope
  | cons {node : Node} {nodes : List Node} {scope left after : Scope}
      {lines more : List (Text × Text)} (hnode : Unrolls n node scope lines left)
      (hnodes : UnrollsAll n nodes left more after) :
      UnrollsAll n (node :: nodes) scope (lines ++ more) after

/-- the lines that a body comes to for some items, one after the other -/
inductive UnrollsEach (n : Text) :
    Text → List Node → List Value → Scope → List (Text × Text) → Scope → Prop
  | nil {x : Text} {body : List Node} {scope : Scope} : UnrollsEach n x body [] scope [] scope
  | cons {x : Text} {body : List Node} {v : Value} {vs : List Value} {scope left after : Scope}
      {lines more : List (Text × Text)} (hbody : UnrollsAll n body (scope.insert x v) lines left)
      (hrounds : UnrollsEach n x body vs left more after) :
      UnrollsEach n x body (v :: vs) scope (lines ++ more) after

end

/-! ## what is printed -/

section
variable {σ : Type} (host : Host σ) (f : Callable)

/-- pieces of output that are some lines with a call in each, every call made once between two
worlds and in the order of the lines -/
structure Printed (w : World σ) (lines : List (Text × Text)) (pieces : List Text) (w' : World σ) :
    Prop where
  joined : joinPieces pieces = joinPieces (host.answered f w.host lines)
  calls : w'.host = host.called f lines.length w.host

variable {host f} {w v w' : World σ} {lines more : List (Text × Text)} {pieces others : List Text}

theorem Printed.nil (h : w'.host = w.host) : Printed host f w [] [] w' := ⟨rfl, h⟩

theorem Printed.append (h : Printed host f w lines pieces v)
    (h' : Printed host f v more others w') :
    Printed host f w (lines ++ more) (pieces ++ others) w' where
  joined := by
    rw [Host.answered_append, joinPieces_append, joinPieces_append, h.joined, h'.joined, h.calls]
  calls := by rw [h'.calls, h.calls, List.length_append, Host.called_add]

/-- the pieces may be joined to one -/
theorem Printed.asBlock (h : Printed host f w lines pieces w') :
    Printed host f w lines (joinPieces pieces).toList w' :=
  ⟨(joinPieces_toList pieces).trans h.joined, h.calls⟩

theorem Printed.of_host (h : Printed host f v lines pieces w') (hv : v.host = w.host) :
    Printed host f w lines pieces w' := by
  obtain ⟨hjoined, hcalls⟩ := h
  rw [hv] at hjoined hcalls
  exact ⟨hjoined, hcalls⟩

end

/-! ## rendering -/

namespace Setting

variable {σ : Type} (set : Setting σ) {n : Text} {f : Callable}

theorem lookup_apply (name : Text) (scope : Scope) (w : World σ) :
    ∃ noted, lookup name scope w = ⟨scope.valueOf name, noted, w⟩ := by
  unfold lookup Scope.valueOf
  cases scope.get? name with
  | none => exact ⟨_, rfl⟩
  | some v => exact ⟨_, rfl⟩

theorem itemsOf_apply (source : Text) (v : Value) (w : World σ) :
    ∃ noted, itemsOf source v w = ⟨v.items, noted, w⟩ := by
  cases v <;> exact ⟨_, rfl⟩

/-- a line with a call: the function is called once -/
theorem substitute_call {p q line : Text} (hline : CallsBetween n p q line) {scope : Scope}
    (hf : scope.get? n = some (.callable f)) (ha : f.arity = 0) :
    set.substitute line scope = (do
      let v ← set.invoke f
      pure (p ++ (v.display ++ q))) := by
  have hcheck : Reference.signature.check (.reference n) [Modifier.call.display] =
      ⟨[], [.call], true, []⟩ := rfl
  have hcall : set.evaluate ⟨n, ["call".toList]⟩ scope = set.invoke f := by
    show set.evaluate ⟨n, [Modifier.call.display]⟩ scope = _
    rw [set.evaluate_modified hcheck rfl hf]
    exact if_pos ha
  rw [substitute, hline, renderSegments_foldr, renderSegments_cons, renderSegments_foldr]
  simp only [renderSegment, renderSegments, hcall, bind_assoc, pure_bind, List.append_nil]

/-! ### commands -/

section
variable (body : Body σ) (scope : Scope) (w : World σ) {head : Head} (rawBody : Text)

/-- what the arguments of `if` are taken for -/
theorem command_if {c : Text} {rest : List Text} (hname : head.name = "if".toList)
    (hparams : head.params = c :: rest) :
    set.command head rawBody body scope = (do
      .noteAll (CommandKind.cond.signature.check (.command head.name) head.params).problems
      set.runCond (decide ("unscoped".toList ∈ rest)) c body scope) := by
  have hkind : CommandKind.ofName? head.name = some .cond := by
    rw [hname]
    decide
  have hleast : CommandKind.cond.signature.least ≤ head.params.length := by
    rw [hparams]
    exact Nat.le_add_left 1 rest.length
  have hscope : (CommandKind.cond.signature.check (.command head.name) head.params).isUnscoped =
      decide ("unscoped".toList ∈ rest) := by
    rw [CommandKind.isUnscoped_check, hparams]
    rfl
  rw [set.command_of_params rawBody body scope hkind hleast, ← hscope, hparams]
  rfl

/-- a condition on a variable: the body is run once if it holds, and not at all if it does not -/
theorem command_condition {c : Text} {rest : List Text} (hname : head.name = "if".toList)
    (hparams : head.params = c :: rest) (hc : startsReference c = false) :
    let r := body scope w
    ∃ noted, set.command head rawBody body scope w =
      if (scope.valueOf c).isTruthy then
        ⟨⟨joinPieces r.value.1, none, if "unscoped".toList ∈ rest then r.value.2 else scope⟩, noted,
          r.world⟩
      else ⟨.skip scope, noted, w⟩ := by
  intro r
  obtain ⟨noted, hlookup⟩ := lookup_apply c scope w
  rw [set.command_if body scope rawBody hname hparams, Run.noteAll_bind_apply, runCond,
    set.resolve_name hc, Run.bind_apply, hlookup]
  by_cases ht : (scope.valueOf c).isTruthy = true
  · simp only [ht, if_true, Run.scoped, bind_assoc, pure_bind, Run.bind_pure_apply,
      decide_eq_true_eq]
    exact ⟨_, rfl⟩
  · simp only [ht]
    exact ⟨_, rfl⟩

/-- the items of `foreach` are those of its list, if it is one, in the order that is asked for -/
theorem command_items {x source : Text} {rest : List Text} (hname : head.name = "foreach".toList)
    (hparams : head.params = x :: source :: rest) (hsource : startsReference source = false) :
    ∃ (ordered : List Value) (start : World σ),
      Order.Arranges (scope.valueOf source).items ordered (Order.asked rest).head? ∧
      start.host = w.host ∧
      let r := eachRound x body ordered scope start
      ∃ noted, set.command head rawBody body scope w =
        ⟨⟨joinPieces r.value.1, none, if "unscoped".toList ∈ rest then r.value.2 else scope⟩, noted,
          r.world⟩ := by
  obtain ⟨noted, hlookup⟩ := lookup_apply source scope w
  obtain ⟨noted', hitems⟩ := itemsOf_apply source (scope.valueOf source) w
  obtain ⟨ordered, start, horder, harranges, hhost, -⟩ :=
    inOrder_arranges (Order.asked rest) (scope.valueOf source).items w
  refine ⟨ordered, start, harranges, hhost, ?_⟩
  rw [set.command_foreach body scope rawBody hname hparams, Run.noteAll_bind_apply, runEach,
    set.resolve_name hsource, Run.bind_apply, hlookup]
  simp only [Run.bind_apply, hitems, horder, Run.scoped, decide_eq_true_eq]
  exact ⟨_, rfl⟩

end

/-! ### bodies -/

/-- what a body does where a variable is a function: it comes to some lines, these are printed with
the answers of calls that follow each other, and the variable stays what it is -/
def Answers (n : Text) (f : Callable) (comesTo : Scope → List (Text × Text) → Scope → Prop)
    (body : Body σ) : Prop :=
  ∀ (scope : Scope) (w : World σ), scope.get? n = some (.callable f) →
    ∃ lines, comesTo scope lines (body scope w).value.2 ∧
      Printed set.host f w lines (body scope w).value.1 (body scope w).world ∧
      (body scope w).value.2.get? n = some (.callable f)

def alone (node : Node) : Body σ := fun scope => do
  let o ← set.renderNode node scope
  pure (o.output.toList, o.bound)

variable {set} {body : Body σ} {nodes : List Node}

theorem alone_of_eq {node : Node} {scope : Scope} {w w' : World σ} {o : Outcome}
    {noted : List Problem} (h : set.renderNode node scope w = ⟨o, noted, w'⟩) :
    set.alone node scope w = ⟨(o.output.toList, o.bound), noted, w'⟩ := by
  rw [alone, Run.bind_pure_apply, h]

theorem answers_nil : set.Answers n f (UnrollsAll n []) (set.renderNodes []) := by
  intro scope w hf
  rw [renderNodes]
  exact ⟨[], .nil, .nil rfl, hf⟩

theorem Answers.cons {node : Node} (hnode : set.Answers n f (Unrolls n node) (set.alone node))
    (hnodes : set.Answers n f (UnrollsAll n nodes) (set.renderNodes nodes)) :
    set.Answers n f (UnrollsAll n (node :: nodes)) (set.renderNodes (node :: nodes)) := by
  intro scope w hf
  obtain ⟨lines, hunrolls, hprinted, hleft⟩ := hnode scope w hf
  rw [alone_of_eq rfl] at hunrolls hprinted hleft
  obtain ⟨more, hrest, hbehind, hafter⟩ := hnodes _ (set.renderNode node scope w).world hleft
  rw [renderNodes_cons_eq]
  exact ⟨lines ++ more, .cons hunrolls hrest, hprinted.append hbehind, hafter⟩

theorem answers_line (ha : f.arity = 0) {p q line : Text} (hline : CallsBetween n p q line) :
    set.Answers n f (Unrolls n (.text line)) (set.alone (.text line)) := by
  intro scope w hf
  have hnode : set.renderNode (.text line) scope w =
      ⟨⟨some (p ++ ((set.host.invoke f.id w.host).1.display ++ q)), none, scope⟩, [],
        { w with host := (set.host.invoke f.id w.host).2 }⟩ := by
    rw [renderNode, set.substitute_call hline hf ha]
    rfl
  rw [alone_of_eq hnode]
  exact ⟨[(p, q)], .line hline, ⟨rfl, rfl⟩, hf⟩

/-- a command that runs a body on a copy of the scope, or on the scope itself, makes the calls of the
body: what came before it may have changed the generator, but not the host -/
theorem Answers.block {comesTo : Scope → List (Text × Text) → Scope → Prop}
    (hbody : set.Answers n f comesTo body) {node : Node} {scope : Scope} {w start : World σ}
    {unscoped : Prop} [Decidable unscoped] {noted : List Problem}
    (hf : scope.get? n = some (.callable f)) (hhost : start.host = w.host)
    (hrun : let r := body scope start
      set.renderNode node scope w =
        ⟨⟨joinPieces r.value.1, none, if unscoped then r.value.2 else scope⟩, noted, r.world⟩) :
    let ended := set.alone node scope w
    ∃ lines inner, comesTo scope lines inner ∧
      ended.value.2 = (if unscoped then inner else scope) ∧
      Printed set.host f w lines ended.value.1 ended.world ∧
      ended.value.2.get? n = some (.callable f) := by
  intro ended
  obtain ⟨lines, hcomes, hprinted, hinner⟩ := hbody scope start hf
  have hended : ended = _ := alone_of_eq hrun
  rw [hended]
  refine ⟨lines, _, hcomes, rfl, hprinted.asBlock.of_host hhost, ?_⟩
  show (if unscoped then _ else scope).get? n = _
  split
  · exact hinner
  · exact hf

theorem Answers.cond (hbody : set.Answers n f (UnrollsAll n nodes) (set.renderNodes nodes))
    {head : Head} (rawBody : Text) {c : Text} {rest : List Text} (hname : head.name = "if".toList)
    (hparams : head.params = c :: rest) (hc : startsReference c = false) :
    set.Answers n f (Unrolls n (.command head rawBody nodes))
      (set.alone (.command head rawBody nodes)) := by
  intro scope w hf
  obtain ⟨noted, hrun⟩ :=
    set.command_condition (set.renderNodes nodes) scope w rawBody hname hparams hc
  rw [← renderNode] at hrun
  by_cases ht : (scope.valueOf c).isTruthy = true
  · rw [if_pos ht] at hrun
    obtain ⟨lines, inner, hunrolls, hleft, hprinted, hafter⟩ := hbody.block hf rfl hrun
    refine ⟨lines, ?_, hprinted, hafter⟩
    rw [hleft]
    exact .cond hname hparams ht hunrolls
  · rw [if_neg ht] at hrun
    rw [alone_of_eq hrun]
    exact ⟨[], .skip hname hparams (Bool.not_eq_true _ ▸ ht), .nil rfl, hf⟩

theorem Answers.eachRound (hbody : set.Answers n f (UnrollsAll n nodes) body) {x : Text}
    (hx : x ≠ n) (items : List Value) :
    set.Answers n f (UnrollsEach n x nodes items) (eachRound x body items) := by
  induction items with
  | nil =>
    intro scope w hf
    exact ⟨[], .nil, .nil rfl, hf⟩
  | cons v vs ih =>
    intro scope w hf
    -- the loop binds another variable, and so the function is still there to be called
    have hstart : (scope.insert x v).get? n = some (.callable f) := by
      rw [Table.get?_insert, if_neg hx, hf]
    obtain ⟨lines, hunrolls, hprinted, hleft⟩ := hbody (scope.insert x v) w hstart
    let r := body (scope.insert x v) w
    obtain ⟨more, hrest, hbehind, hafter⟩ := ih r.value.2 r.world hleft
    let behind := Setting.eachRound x body vs r.value.2 r.world
    have hrun : Setting.eachRound x body (v :: vs) scope w =
        ⟨((joinPieces r.value.1).toList ++ behind.value.1, behind.value.2),
          r.problems ++ behind.problems, behind.world⟩ :=
      eachRound_cons x body ⟨v, scope, w⟩ vs
    rw [hrun]
    exact ⟨lines ++ more, .cons hunrolls hrest, hprinted.asBlock.append hbehind, hafter⟩

theorem Answers.each (hbody : set.Answers n f (UnrollsAll n nodes) (set.renderNodes nodes))
    {head : Head} (rawBody : Text) {x source : Text} {rest : List Text}
    (hname : head.name = "foreach".toList) (hparams : head.params = x :: source :: rest)
    (hx : x ≠ n) (hsource : startsReference source = false) :
    set.Answers n f (Unrolls n (.command head rawBody nodes))
      (set.alone (.command head rawBody nodes)) := by
  intro scope w hf
  obtain ⟨ordered, start, horder, hhost, noted, hrun⟩ :=
    set.command_items (set.renderNodes nodes) scope w rawBody hname hparams hsource
  rw [← renderNode] at hrun
  obtain ⟨lines, inner, hunrolls, hleft, hprinted, hafter⟩ :=
    (hbody.eachRound hx ordered).block hf hhost hrun
  refine ⟨lines, ?_, hprinted, hafter⟩
  rw [hleft]
  exact .each hname hparams horder hunrolls

/-- the calls of a tree are those of its lines, each made once, in the order of the output -/
theorem renderNodes_answers (ha : f.arity = 0) (h : Calling n nodes) :
    set.Answers n f (UnrollsAll n nodes) (set.renderNodes nodes) := by
  induction h with
  | nil => exact answers_nil
  | line hline _ ihrest => exact (answers_line ha hline).cons ihrest
  | cond hname hparams hc _ _ ihbody ihrest =>
    exact (ihbody.cond _ hname hparams hc).cons ihrest
  | each hname hparams hx hsource _ _ ihbody ihrest =>
    exact (ihbody.each _ hname hparams hx hsource).cons ihrest

/-- **A function that counts is called once for each line that is printed, in the order of the
output.**  Let nodes be made of lines with one call of a variable, and of `if` and `foreach`, and
let the variable be a function without parameters whose answers are the whole numbers from `N` on.
The nodes come to some lines, by their conditions, their items and the scopes of their bodies
alone.  What is rendered are these lines with `N`, `N + 1` and so on in them, none of the numbers
left out or used twice: in digits, as long as they are exact.  The host is as the calls of these
lines leave it, so that the next call is answered with the number behind them: a scope that is left
takes no call back. -/
theorem renderNodes_counted (set : Setting σ) (h : Calling n nodes) (ha : f.arity = 0)
    {scope : Scope} (hf : scope.get? n = some (.callable f)) (w : World σ) {N : Int}
    (hN : set.host.CountsFrom f w.host N) :
    let r := set.renderNodes nodes scope w
    let printed (shown : Int → Text) (lines : List (Text × Text)) :=
      lines.mapIdx fun k line => line.1 ++ (shown (N + k) ++ line.2)
    ∃ lines : List (Text × Text), UnrollsAll n nodes scope lines r.value.2 ∧
      joinPieces r.value.1 = joinPieces (printed (fun m => (Number.nearest m).display) lines) ∧
      ((∀ k < lines.length, (N + k).natAbs ≤ exactBound) →
        joinPieces r.value.1 = joinPieces (printed intDigits lines)) ∧
      r.world.host = set.host.called f lines.length w.host ∧
      (set.host.invoke f.id r.world.host).1 =
        .number (.nearest ((N + lines.length : Int) : Rat)) := by
  intro r printed
  have hanswers : set.Answers n f (UnrollsAll n nodes) (set.renderNodes nodes) :=
    renderNodes_answers ha h
  obtain ⟨lines, hunrolls, hprinted, -⟩ := hanswers scope w hf
  have hshown : set.host.answered f w.host lines =
      printed (fun m => (Number.nearest m).display) lines := by
    have hanswer (k : Nat) : (set.host.answer f w.host k).display =
        (Number.nearest ((N + k : Int) : Rat)).display := congrArg Value.display (hN k)
    simp only [Host.answered, printed, hanswer]
  have hjoined : joinPieces r.value.1 =
      joinPieces (printed (fun m => (Number.nearest m).display) lines) := by
    rw [← hshown]
    exact hprinted.joined
  refine ⟨lines, hunrolls, hjoined, fun hexact => ?_, hprinted.calls, ?_⟩
  · have hdigits : printed (fun m => (Number.nearest m).display) lines =
        printed intDigits lines := by
      refine List.mapIdx_eq_mapIdx_iff.mpr fun k hk => ?_
      have hk := hexact k hk
      show _ ++ ((Number.nearest ((N + k : Int) : Rat)).display ++ _) = _
      rw [Number.nearest_intCast hk, Number.display_ofInt hk]
    rw [hjoined, hdigits]
  · rw [hprinted.calls]
    exact hN lines.length

/-- a loop on the scope itself, and a condition on the item that it leaves behind -/
def Node.ticking : List Node :=
  [.text "<#tick call#>".toList,
    .command ⟨"foreach".toList, ["x".toList, "items".toList, "reversed".toList,
      "unscoped".toList], false, []⟩ []
      [.command ⟨"if".toList, ["x".toList], false, []⟩ [] [.text "a#tick call#".toList],
        .text "#tick call#b".toList],
    .command ⟨"if".toList, ["x".toList], false, []⟩ [] [.text "#tick call#".toList]]

theorem calling_ticking : Calling "tick".toList Node.ticking := by
  have hline := callsBetween_write (n := "tick".toList) (by decide)
  have hinner : Calling "tick".toList [.command ⟨"if".toList, ["x".toList], false, []⟩ []
      [.text "a#tick call#".toList], .text "#tick call#b".toList] :=
    .cond rfl rfl rfl (.line (hline "a".toList []) .nil) (.line (hline [] "b".toList) .nil)
  have hlast : Calling "tick".toList [.command ⟨"if".toList, ["x".toList], false, []⟩ []
      [.text "#tick call#".toList]] := .cond rfl rfl rfl (.line (hline [] []) .nil) .nil
  exact .line (hline "<".toList ">".toList) (.each rfl rfl (by decide) rfl hinner hlast)

theorem renderNodes_counted_ticking :
    let host := Host.ofFiles [] id
    let tick : Callable := ⟨0, 1⟩
    let callees : Callees := [.always .null, .counter 9]
    let scope : Scope := [("items".toList, .list [.bool true, .bool false]),
      ("tick".toList, .callable tick)]
    let r := (Setting.top {} host []).renderNodes Node.ticking scope ⟨callees, .congruence 0⟩
    host.CountsFrom tick callees 9 ∧
      joinPieces r.value.1 = some "<9>\n10b\na11\n12b\n13".toList ∧
      ∃ lines, UnrollsAll "tick".toList Node.ticking scope lines r.value.2 ∧
        r.world.host = host.called tick lines.length callees ∧
        (host.invoke tick.id r.world.host).1 =
          .number (.nearest ((9 + lines.length : Int) : Rat)) := by
  intro host tick callees scope r
  have hcounts : host.CountsFrom tick callees 9 := Host.countsFrom_of_counter rfl rfl
  have htick : scope.get? "tick".toList = some (.callable tick) := rfl
  obtain ⟨lines, hunrolls, -, -, hcalls, hnext⟩ :=
    (Setting.top {} host []).renderNodes_counted calling_ticking rfl htick
      ⟨callees, .congruence 0⟩ hcounts
  exact ⟨hcounts, by decide +kernel, lines, hunrolls, hcalls, hnext⟩

end Setting

end Stencil
