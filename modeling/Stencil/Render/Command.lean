import Stencil.Command.Node
import Stencil.Render.Loop
import Stencil.Render.Order

/-!
# Commands

A command gets its body as a function that renders it in a scope, so that what a command does is
said without the tree it stands in.

* `CommandKind`            the five commands, their names and signatures;
* `joinPieces`             the pieces of output of some nodes put together, if there are any;
* `Body`                   a body, as a function from a scope to its pieces and the scope after it;
* `Outcome`                the output of a command, the variable it defines, and the scope after it;
* `Run.scoped`             work on a copy of the scope, or on the scope itself;
* `Setting.command`        the outcome of a command.
-/

namespace Stencil

/-! ## kinds of commands -/

inductive CommandKind
  | cond
  | count
  | each
  | define
  | md
deriving DecidableEq, Repr

namespace CommandKind

def all : List CommandKind := [cond, count, each, define, md]

def name : CommandKind → Text
  | cond => "if".toList
  | count => "for".toList
  | each => "foreach".toList
  | define => "define".toList
  | md => "md".toList

def ofName? (t : Text) : Option CommandKind := all.find? (·.name = t)

def signature : CommandKind → Signature
  | cond => ⟨1, 1, ["unscoped".toList]⟩
  | count => ⟨5, 5, ["unscoped".toList]⟩
  | each => ⟨2, 2, "unscoped".toList :: Order.all.map Order.keyword⟩
  | define => ⟨1, 2, ["unscoped".toList, "trim".toList]⟩
  | md => ⟨0, 0, ["unscoped".toList, "pure".toList]⟩

end CommandKind

/-! ## bodies and outcomes -/

/-- the lines of output as one text; none if there are no lines -/
def joinPieces (pieces : List Text) : Option Text :=
  if pieces = [] then none else some (Text.joinLines pieces)

/-- a body: what it gives in a scope, and the scope after it -/
abbrev Body (σ : Type) := Scope → Run σ (List Text × Scope)

/-- what a command gives: its output, the variable it defines, and the scope it leaves -/
structure Outcome where
  output : Option Text
  binding : Option (Text × Value)
  scope : Scope

namespace Outcome

/-- a command that does nothing -/
def skip (scope : Scope) : Outcome := ⟨none, none, scope⟩

/-- the scope with the variable that a command defines -/
def bound (o : Outcome) : Scope :=
  match o.binding with
  | some (name, v) => o.scope.insert name v
  | none => o.scope

end Outcome

/-- work on a copy of the scope, or, if `unscoped`, on the scope itself -/
def Run.scoped {σ α : Type} (unscoped : Bool) (scope : Scope) (f : Scope → Run σ (α × Scope)) :
    Run σ (α × Scope) := do
  let r ← f scope
  pure (r.1, if unscoped then r.2 else scope)

namespace Setting

variable {σ : Type}

/-! ## the five commands -/

def runCond (set : Setting σ) (unscoped : Bool) (condition : Text) (body : Body σ)
    (scope : Scope) : Run σ Outcome := do
  if (← set.resolve condition scope).isTruthy then
    let r ← Run.scoped unscoped scope body
    pure ⟨joinPieces r.1, none, r.2⟩
  else pure (.skip scope)

/-- one round of `for`: the body, and then the increments -/
def countRound (set : Setting σ) (increments : List Increment) (body : Body σ) (scope : Scope) :
    Run σ (Option Text × Scope) := do
  let r ← body scope
  let after ← set.incrementAll increments r.2
  pure (joinPieces r.1, after)

/-- `for`: the body again and again, as long as the condition holds -/
def runCount (set : Setting σ) (unscoped : Bool) (init name op bound step : Text) (body : Body σ)
    (scope : Scope) : Run σ Outcome :=
  match Comparison.ofText? op with
  | none => do
    .note (.unknownComparison op)
    pure (.skip scope)
  | some c => do
    .noteAll (incrementProblems step)
    let r ← Run.scoped unscoped scope fun inner => do
      let started ← set.startAll (entriesOf init) inner
      Run.loop (set.conditionHolds name c bound) (set.countRound (incrementsOf step) body)
        (.loopStopped name set.options.maxRounds) set.options.maxRounds started
    pure ⟨joinPieces r.1, none, r.2⟩

/-- the rounds of `foreach`: the body once for each item -/
def eachRound (name : Text) (body : Body σ) : List Value → Scope → Run σ (List Text × Scope)
  | [], scope => pure ([], scope)
  | v :: vs, scope => do
    let r ← body (scope.insert name v)
    let rest ← eachRound name body vs r.2
    pure ((joinPieces r.1).toList ++ rest.1, rest.2)

/-- the items that `foreach` goes through, before they are put in order -/
def itemsOf (source : Text) (v : Value) : Run σ (List Value) :=
  match v with
  | .list items => pure items
  | v => do
    .note (.listExpected source v.typeName)
    pure []

/-- the items in the first of the orders that were asked for -/
def inOrder (orders : List Order) (items : List Value) : Run σ (List Value) :=
  match orders with
  | [] => pure items
  | o :: rest => do
    if rest ≠ [] then .note (.severalOrders o)
    o.rearrange items

/-- `foreach`: the body once for each item of a list -/
def runEach (set : Setting σ) (unscoped : Bool) (orders : List Order) (name source : Text)
    (body : Body σ) (scope : Scope) : Run σ Outcome := do
  let items ← itemsOf source (← set.resolve source scope)
  let ordered ← inOrder orders items
  let r ← Run.scoped unscoped scope (eachRound name body ordered)
  pure ⟨joinPieces r.1, none, r.2⟩

def definedValue (trim : Bool) (name kind text : Text) : Run σ Value :=
  if kind = "number".toList then
    match Number.read? text.trim with
    | some n => pure (.number n)
    | none => do
      .note (.bodyNotNumber name text)
      pure (.number .zero)
  else do
    if kind ≠ "string".toList then .note (.unknownKind kind name)
    pure (.string (if trim then text.trim else text))

def runDefine (set : Setting σ) (unscoped trim : Bool) (nameText : Text) (kind : Option Text)
    (body : Body σ) (scope : Scope) : Run σ Outcome := do
  let name := (← set.substitute nameText scope).trim
  if name = [] then
    .note .emptyName
    pure (.skip scope)
  else
    let r ← Run.scoped unscoped scope body
    let v ← definedValue trim name (kind.getD "string".toList) (Text.joinLines r.1)
    pure ⟨none, some (name, v), r.2⟩

/-- `md`: the body as Markdown, or with `pure` the lines of the body as they are -/
def runMd (set : Setting σ) (unscoped verbatim : Bool) (rawBody : Text) (body : Body σ)
    (scope : Scope) : Run σ Outcome :=
  if verbatim then pure ⟨some (set.host.markdown rawBody), none, scope⟩
  else do
    let r ← Run.scoped unscoped scope body
    pure ⟨some (set.host.markdown (Text.joinLines r.1)), none, r.2⟩

/-! ## any command -/

def runKind (set : Setting σ) (kind : CommandKind) (args : Checked) (rawBody : Text)
    (body : Body σ) (scope : Scope) : Run σ Outcome :=
  match kind, args.params with
  | .cond, condition :: _ => set.runCond args.isUnscoped condition body scope
  | .count, init :: name :: op :: bound :: step :: _ =>
    set.runCount args.isUnscoped init name op bound step body scope
  | .each, name :: source :: _ =>
    set.runEach args.isUnscoped (Order.requested args.modifiers) name source body scope
  | .define, name :: rest =>
    set.runDefine args.isUnscoped (args.has .trim) name rest.head? body scope
  | .md, _ => set.runMd args.isUnscoped (args.has .pure) rawBody body scope
  | _, _ => pure (.skip scope)

/-- the outcome of a command: one that is unknown or lacks parameters does nothing -/
def command (set : Setting σ) (head : Head) (rawBody : Text) (body : Body σ) (scope : Scope) :
    Run σ Outcome :=
  match CommandKind.ofName? head.name with
  | none => do
    .note (.unknownCommand head.name)
    pure (.skip scope)
  | some kind => do
    let args := kind.signature.check (.command head.name) head.params
    .noteAll args.problems
    if args.isValid then set.runKind kind args rawBody body scope
    else pure (.skip scope)

/-! ### equations -/

section
variable (set : Setting σ) {head : Head} {kind : CommandKind} (rawBody : Text) (body : Body σ)
  (scope : Scope)

theorem command_of_unknown (h : CommandKind.ofName? head.name = none) :
    set.command head rawBody body scope = (do
      .note (.unknownCommand head.name)
      pure (.skip scope)) := by
  unfold command
  rw [h]

theorem command_of_invalid (h : CommandKind.ofName? head.name = some kind)
    (hv : (kind.signature.check (.command head.name) head.params).isValid = false) :
    set.command head rawBody body scope = (do
      .noteAll (kind.signature.check (.command head.name) head.params).problems
      pure (.skip scope)) := by
  unfold command
  rw [h]
  simp only [hv]
  rfl

theorem command_of_valid (h : CommandKind.ofName? head.name = some kind)
    (hv : (kind.signature.check (.command head.name) head.params).isValid = true) :
    set.command head rawBody body scope = (do
      .noteAll (kind.signature.check (.command head.name) head.params).problems
      set.runKind kind (kind.signature.check (.command head.name) head.params) rawBody body
        scope) := by
  unfold command
  rw [h]
  simp only [hv]
  rfl

theorem runKind_md (args : Checked) : set.runKind .md args rawBody body scope =
    set.runMd args.isUnscoped (args.has .pure) rawBody body scope := by
  unfold runKind
  rfl

theorem runMd_verbatim (unscoped : Bool) : set.runMd unscoped true rawBody body scope =
    pure ⟨some (set.host.markdown rawBody), none, scope⟩ := rfl

end

end Setting

end Stencil
