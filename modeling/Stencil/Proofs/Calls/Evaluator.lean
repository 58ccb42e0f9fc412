import Stencil.Proofs.Calls.Code

/-!
# The evaluator as calls

What each task does, as code: it reads like the evaluator, but a body, a round, an index, a text to
be interpreted and a template inside the template are calls.  The depth is counted upwards and
compared with its bound where a template is entered, the rounds of a loop where a round is begun.

* `Code.reference`, `Code.substitute`   references, and lines with references;
* `Code.interpret`, `Code.load`, `Code.template`   texts, and templates inside the template;
* `Code.rounds`, `Code.round`    a counting loop;
* `Code.command`, `Code.nodes`   commands, and rows of nodes;
* `Task.code`, `Call.code`       any task, any call.
-/

namespace Stencil

namespace Code

variable {σ : Type}

/-! ### references -/

def resolve (text : Text) (scope : Scope) : Code σ Value :=
  if startsReference text then
    match Reference.read? text with
    | some r => ask .here (.reference r scope)
    | none => lift do
      .note (.malformedReference text)
      pure .null
  else lift (Setting.lookup text scope)

def index (expr : Text) (scope : Scope) : Code σ Value :=
  if startsReference expr.trim then resolve expr.trim scope
  else pure (literalIndex expr.trim)

def applyToText (s : Subject) (m : Modifier) (t : Text) (scope : Scope) : Code σ Value :=
  match m with
  | .uppercase => pure (.string t.toUpper)
  | .lowercase => pure (.string t.toLower)
  | .capitalize => pure (.string t.capitalizeWords)
  | .capitalizeFirst => pure (.string t.capitalizeFirst)
  | .trim => pure (.string t.trim)
  | .parse f => ask .here (.interpret t f scope)
  | .load f => ask .here (.load t f scope)
  | m => lift (Setting.leave s m (.string t))

def apply (host : Host σ) (s : Subject) (m : Modifier) (v : Value) (scope : Scope) :
    Code σ Value :=
  match v, m with
  | .string t, m => applyToText s m t scope
  | .list items, .index expr => do
    let i ← index expr scope
    lift (Setting.pickItem s items expr i)
  | .map entries, .index expr => do
    let i ← index expr scope
    lift (Setting.pickEntry s entries i)
  | .callable f, .call =>
    if f.arity = 0 then lift (.onHost (host.invoke f.id))
    else lift do
      .note (.callableWithParameters s f.arity)
      pure .null
  | v, m => lift (Setting.leave s m v)

def applyAll (host : Host σ) (s : Subject) : List Modifier → Value → Scope → Code σ Value
  | [], v, _ => pure v
  | m :: ms, v, scope =>
    if v.isNull then lift do
      .note (.nullBefore s m)
      pure v
    else do
      let w ← apply host s m v scope
      applyAll host s ms w scope

def reference (host : Host σ) (r : Reference) (scope : Scope) : Code σ Value := do
  let args := Reference.signature.check (.reference r.name) r.specifiers
  lift (.noteAll args.problems)
  let v ← lift (Setting.baseValue r.name args.params.head? scope)
  applyAll host (.reference r.name) args.modifiers v scope

def segment (scope : Scope) : Segment → Code σ Text
  | .literal t => pure t
  | .reference r => do
    let v ← ask .here (.reference r scope)
    pure v.display
  | .empty => lift do
    .note .emptyReference
    pure []
  | .unclosed rest => lift do
    .note (.unclosedReference rest)
    pure []

def segments (scope : Scope) : List Segment → Code σ Text
  | [] => pure []
  | s :: ss => do
    let t ← segment scope s
    let u ← segments scope ss
    pure (t ++ u)

def substitute (line : Text) (scope : Scope) : Code σ Text := segments scope (Segment.scan line)

/-! ### texts and templates -/

def interpret (host : Host σ) (text : Text) (f : Format) (scope : Scope) : Code σ Value :=
  match f with
  | .template => do
    match ← ask .here (.template text scope) with
    | some output => pure (.string output)
    | none => pure .null
  | .markdownTemplate => do
    match ← ask .here (.template text scope) with
    | some output => pure (.string (host.markdown output))
    | none => pure .null
  | .markdown => pure (.string (host.markdown text))
  | .json =>
    match Value.decode? text with
    | .ok v => pure v
    | .error e => lift do
      .note (.undecodable e)
      pure .null
  | .text => pure (.string text)

def load (host : Host σ) (frame : Frame) (path : Text) (f : Format) (scope : Scope) :
    Code σ Value :=
  if frame.loading.any (· = path) then lift do
    .note (.loadCycle path)
    pure .null
  else do
    match ← lift (.onHost (host.fetch path)) with
    | .error e => lift do
      .note (.unloadable path e)
      pure .null
    | .ok contents => ask (.inLoad path) (.interpret contents f scope)

/-- a template that is inside as many others as there may be is refused -/
def template (o : Options) (frame : Frame) (source : Text) (scope : Scope) :
    Code σ (Option Text) :=
  if o.maxDepth ≤ frame.depth then lift do
    .note (.depthExceeded o.maxDepth)
    pure none
  else do
    lift (.noteAll (Template.read source).problems)
    let r ← ask .inTemplate (.nodes (Template.read source).nodes scope)
    pure (some (Text.joinLines r.1))

/-! ### counting loops -/

def operand (arg : Text) (scope : Scope) : Code σ Value :=
  if startsReference arg.trim then resolve arg.trim scope
  else
    match Number.read? arg.trim with
    | some n => pure (.number n)
    | none => lift do
      .note (.numberExpected arg.trim)
      pure .null

def startValue (raw : Text) (scope : Scope) : Code σ Value :=
  if startsReference raw then resolve raw scope else pure (.string raw)

def start (entry : Text) (scope : Scope) : Code σ Scope :=
  match Text.cutAt '=' entry with
  | none => pure (scope.insert entry.trim (.number .zero))
  | some (name, raw) => do
    let v ← startValue raw.trim scope
    match v.toNumber? with
    | some n => pure (scope.insert name.trim (.number n))
    | none => lift do
      .note (.startNotNumber name.trim raw.trim)
      pure (scope.insert name.trim (.number .zero))

def startAll : List Text → Scope → Code σ Scope
  | [], scope => pure scope
  | e :: es, scope => do
    let started ← start e scope
    startAll es started

def increment (i : Increment) (scope : Scope) : Code σ Scope := do
  let v ← operand i.delta scope
  match v.toNumber? with
  | none => lift do
    .note (.incrementNotNumber i.name)
    pure scope
  | some d =>
    match (scope.get? i.name).bind Value.toNumber? with
    | some n => pure (scope.insert i.name (.number (n.add d)))
    | none => lift do
      .note (.loopVariableNotNumber i.name)
      pure scope

def incrementAll : List Increment → Scope → Code σ Scope
  | [], scope => pure scope
  | i :: is, scope => do
    let after ← increment i scope
    incrementAll is after

/-- the condition is checked before each round -/
def rounds (c : Counting) (taken : Nat) (scope : Scope) : Code σ (List Text × Scope) := do
  let l ← lift (Setting.lookup c.name scope)
  let r ← operand c.bound scope
  if c.comparison.holds l r then ask .here (.round c taken scope) else pure ([], scope)

/-- the loop is left if as many rounds were taken as may be -/
def round (o : Options) (c : Counting) (taken : Nat) (scope : Scope) :
    Code σ (List Text × Scope) :=
  if o.maxRounds ≤ taken then lift do
    .note (.loopStopped c.name o.maxRounds)
    pure ([], scope)
  else do
    let r ← ask .here (.nodes c.body scope)
    let after ← incrementAll c.increments r.2
    let rest ← ask .here (.rounds c (taken + 1) after)
    pure ((joinPieces r.1).toList ++ rest.1, rest.2)

/-! ### commands -/

def body (body : List Node) (scope : Scope) : Code σ (List Text × Scope) :=
  ask .here (.nodes body scope)

def inScope {α : Type} (unscoped : Bool) (scope : Scope) (f : Scope → Code σ (α × Scope)) :
    Code σ (α × Scope) := do
  let r ← f scope
  pure (r.1, if unscoped then r.2 else scope)

def cond (unscoped : Bool) (condition : Text) (nodes : List Node) (scope : Scope) :
    Code σ Outcome := do
  let v ← resolve condition scope
  if v.isTruthy then
    let r ← inScope unscoped scope (body nodes)
    pure ⟨joinPieces r.1, none, r.2⟩
  else pure (.skip scope)

def count (unscoped : Bool) (init name op bound step : Text) (nodes : List Node) (scope : Scope) :
    Code σ Outcome :=
  match Comparison.ofText? op with
  | none => lift do
    .note (.unknownComparison op)
    pure (.skip scope)
  | some c => do
    lift (.noteAll (incrementProblems step))
    let r ← inScope unscoped scope fun inner => do
      let started ← startAll (entriesOf init) inner
      ask .here (.rounds ⟨name, c, bound, incrementsOf step, nodes⟩ 0 started)
    pure ⟨joinPieces r.1, none, r.2⟩

def eachRound (name : Text) (nodes : List Node) : List Value → Scope → Code σ (List Text × Scope)
  | [], scope => pure ([], scope)
  | v :: vs, scope => do
    let r ← body nodes (scope.insert name v)
    let rest ← eachRound name nodes vs r.2
    pure ((joinPieces r.1).toList ++ rest.1, rest.2)

def each (unscoped : Bool) (orders : List Order) (name source : Text) (nodes : List Node)
    (scope : Scope) : Code σ Outcome := do
  let v ← resolve source scope
  let items ← lift (Setting.itemsOf source v)
  let ordered ← lift (Setting.inOrder orders items)
  let r ← inScope unscoped scope (eachRound name nodes ordered)
  pure ⟨joinPieces r.1, none, r.2⟩

def define (unscoped trim : Bool) (nameText : Text) (kind : Option Text) (nodes : List Node)
    (scope : Scope) : Code σ Outcome := do
  let t ← substitute nameText scope
  if t.trim = [] then lift do
    .note .emptyName
    pure (.skip scope)
  else do
    let r ← inScope unscoped scope (body nodes)
    let v ← lift (Setting.definedValue trim t.trim (kind.getD "string".toList)
      (Text.joinLines r.1))
    pure ⟨none, some (t.trim, v), r.2⟩

def md (host : Host σ) (unscoped verbatim : Bool) (rawBody : Text) (nodes : List Node)
    (scope : Scope) : Code σ Outcome :=
  if verbatim then pure ⟨some (host.markdown rawBody), none, scope⟩
  else do
    let r ← inScope unscoped scope (body nodes)
    pure ⟨some (host.markdown (Text.joinLines r.1)), none, r.2⟩

def kind (host : Host σ) (kind : CommandKind) (args : Checked) (rawBody : Text)
    (nodes : List Node) (scope : Scope) : Code σ Outcome :=
  match kind, args.params with
  | .cond, condition :: _ => cond args.isUnscoped condition nodes scope
  | .count, init :: name :: op :: bound :: step :: _ =>
    count args.isUnscoped init name op bound step nodes scope
  | .each, name :: source :: _ =>
    each args.isUnscoped (Order.requested args.modifiers) name source nodes scope
  | .define, name :: rest =>
    define args.isUnscoped (args.has .trim) name rest.head? nodes scope
  | .md, _ => md host args.isUnscoped (args.has .pure) rawBody nodes scope
  | _, _ => pure (.skip scope)

def command (host : Host σ) (head : Head) (rawBody : Text) (nodes : List Node) (scope : Scope) :
    Code σ Outcome :=
  match CommandKind.ofName? head.name with
  | none => lift do
    .note (.unknownCommand head.name)
    pure (.skip scope)
  | some k => do
    let args := k.signature.check (.command head.name) head.params
    lift (.noteAll args.problems)
    if args.isValid then kind host k args rawBody nodes scope else pure (.skip scope)

def node (host : Host σ) (node : Node) (scope : Scope) : Code σ Outcome :=
  match node with
  | .text line => do
    let t ← substitute line scope
    pure ⟨some t, none, scope⟩
  | .command head rawBody nodes => command host head rawBody nodes scope

def nodes (host : Host σ) : List Node → Scope → Code σ (List Text × Scope)
  | [], scope => pure ([], scope)
  | n :: ns, scope => do
    let o ← node host n scope
    let rest ← nodes host ns o.bound
    pure (o.output.toList ++ rest.1, rest.2)

end Code

namespace Task

variable {σ α : Type}

/-- what a task in a frame does, up to the calls it makes -/
def code (o : Options) (host : Host σ) (f : Frame) : Task α → Code σ α
  | reference r scope => .reference host r scope
  | interpret text fmt scope => .interpret host text fmt scope
  | load path fmt scope => .load host f path fmt scope
  | template source scope => .template o f source scope
  | nodes ns scope => .nodes host ns scope
  | rounds c taken scope => .rounds c taken scope
  | round c taken scope => .round o c taken scope

end Task

def Call.code {σ : Type} (o : Options) (host : Host σ) (c : Call) : Code σ c.α :=
  c.task.code o host c.frame

end Stencil
