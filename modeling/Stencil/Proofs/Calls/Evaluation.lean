import Stencil.Proofs.Calls.Evaluator

/-!
# What the evaluator does for a call

The evaluator does what the code of a call does if each call in the code is what the evaluator does
for it.  The bounds are the one thing that is said in another way: the evaluator is handed how many
templates and rounds are left, the code counts how many there were.

* `Task.eval`              what the evaluator does for a task;
* `Run.enter`, `Run.loop_eq`   a loop checks its condition, and then it is entered or left;
* `Code.denote_reference`, `Code.denote_nodes` and others   the code of each kind of task;
* `Frame.setting`          the setting of a frame;
* `Task.eval_eq`           code and evaluator agree.
-/

namespace Stencil

/-! ## the evaluator -/

namespace Run

variable {σ α β : Type} (check : α → Run σ Bool) (round : α → Run σ (Option β × α))
  (stopped : Problem)

def enter : Nat → α → Run σ (List β × α)
  | 0, s => do
    note stopped
    pure ([], s)
  | n + 1, s => do
    let first ← round s
    let rest ← loop check round stopped n first.2
    pure (first.1.toList ++ rest.1, rest.2)

theorem loop_eq (n : Nat) (s : α) : loop check round stopped n s = (do
    let more ← check s
    if more then enter check round stopped n s else pure ([], s)) := by
  cases n with
  | zero => rw [loop_zero, enter]
  | succ n => rw [loop_succ, enter]

end Run

namespace Task

variable {σ α : Type}

def eval (set : Setting σ) : Task α → Run σ α
  | reference r scope => set.evaluate r scope
  | interpret text f scope => set.interpret text f scope
  | load path f scope => set.load path f scope
  | template source scope => set.nested set.loading source scope
  | nodes ns scope => set.renderNodes ns scope
  | rounds c taken scope =>
    .loop (set.conditionHolds c.name c.comparison c.bound)
      (set.countRound c.increments (set.renderNodes c.body))
      (.loopStopped c.name set.options.maxRounds) (set.options.maxRounds - taken) scope
  | round c taken scope =>
    .enter (set.conditionHolds c.name c.comparison c.bound)
      (set.countRound c.increments (set.renderNodes c.body))
      (.loopStopped c.name set.options.maxRounds) (set.options.maxRounds - taken) scope

end Task

/-! ## the code of each task -/

namespace Code

variable {σ : Type} {set : Setting σ} {run : {β : Type} → Shift → Task β → Run σ β}
  (h : ∀ {β : Type} (t : Task β), run .here t = t.eval set)
include h

theorem denote_resolve (text : Text) (scope : Scope) :
    (resolve text scope).denote run = set.resolve text scope := by
  unfold resolve
  rw [Setting.resolve]
  by_cases hs : startsReference text = true
  · rw [if_pos hs, if_pos hs]
    split
    · rename_i r hr
      rw [denote_ask, h]
      split
      · rename_i r' hr'
        rw [hr] at hr'
        cases hr'
        rfl
      · rename_i hr'
        rw [hr] at hr'
        cases hr'
    · rename_i hr
      rw [denote_lift]
      split
      · rename_i r' hr'
        rw [hr] at hr'
        cases hr'
      · rfl
  · rw [if_neg hs, if_neg hs, denote_lift]

theorem denote_index (expr : Text) (scope : Scope) :
    (index expr scope).denote run = set.indexOf (.index expr) scope := by
  rw [Setting.indexOf, Setting.evaluateIndex]
  unfold index
  split
  · exact denote_resolve h _ scope
  · rfl

theorem denote_applyToText (s : Subject) (m : Modifier) (t : Text) (scope : Scope) :
    (applyToText s m t scope).denote run = set.applyToText s m t scope := by
  cases m with
  | parse f => exact (denote_ask run _ _).trans (h _)
  | load f => exact (denote_ask run _ _).trans (h _)
  | _ => rfl

theorem denote_apply (s : Subject) (m : Modifier) (v : Value) (scope : Scope) :
    (apply set.host s m v scope).denote run = set.apply s m (set.indexOf m scope) v scope := by
  cases v with
  | string t => exact denote_applyToText h s m t scope
  | list items =>
    cases m with
    | index expr =>
      show (index expr scope >>= fun i => lift (Setting.pickItem s items expr i)).denote run =
        set.indexOf (.index expr) scope >>= Setting.pickItem s items expr
      rw [denote_bind, denote_index h]
      exact congrArg _ (funext fun i => denote_lift run _)
    | _ => exact denote_lift run _
  | map entries =>
    cases m with
    | index expr =>
      show (index expr scope >>= fun i => lift (Setting.pickEntry s entries i)).denote run =
        set.indexOf (.index expr) scope >>= Setting.pickEntry s entries
      rw [denote_bind, denote_index h]
      exact congrArg _ (funext fun i => denote_lift run _)
    | _ => exact denote_lift run _
  | callable f =>
    cases m with
    | call =>
      show (if f.arity = 0 then _ else _ : Code σ Value).denote run = if f.arity = 0 then _ else _
      split
      · exact denote_lift run _
      · exact denote_lift run _
    | _ => exact denote_lift run _
  | _ => exact denote_lift run _

theorem denote_applyAll (s : Subject) (ms : List Modifier) (v : Value) (scope : Scope) :
    (applyAll set.host s ms v scope).denote run = set.applyAll s ms v scope := by
  induction ms generalizing v with
  | nil => rw [Setting.applyAll]; rfl
  | cons m ms ih =>
    rw [Setting.applyAll, applyAll]
    split
    · exact denote_lift run _
    · rw [denote_bind, denote_apply h]
      exact congrArg _ (funext ih)

theorem denote_reference (r : Reference) (scope : Scope) :
    (reference set.host r scope).denote run = set.evaluate r scope := by
  rw [Setting.evaluate, reference]
  simp only [denote_bind, denote_lift, denote_applyAll h]

theorem denote_segment (scope : Scope) (s : Segment) :
    (segment scope s).denote run = set.renderSegment scope s := by
  cases s with
  | literal t => rfl
  | reference r =>
    rw [segment, denote_bind, denote_ask, h]
    rfl
  | empty => exact denote_lift run _
  | unclosed rest => exact denote_lift run _

theorem denote_segments (scope : Scope) (ss : List Segment) :
    (segments scope ss).denote run = set.renderSegments scope ss := by
  induction ss with
  | nil => rfl
  | cons s ss ih =>
    rw [segments, Setting.renderSegments]
    simp only [denote_bind, denote_segment h, ih, denote_pure]

theorem denote_substitute (line : Text) (scope : Scope) :
    (substitute line scope).denote run = set.substitute line scope :=
  denote_segments h scope _

theorem denote_interpret (text : Text) (f : Format) (scope : Scope) :
    (interpret set.host text f scope).denote run = set.interpret text f scope := by
  cases f with
  | template =>
    rw [interpret, denote_bind, denote_ask, h, Setting.interpret]
    refine congrArg _ (funext fun r => ?_)
    cases r <;> rfl
  | markdownTemplate =>
    rw [interpret, denote_bind, denote_ask, h, Setting.interpret]
    refine congrArg _ (funext fun r => ?_)
    cases r <;> rfl
  | markdown => rfl
  | json =>
    rw [interpret, Setting.interpret]
    cases Value.decode? text with
    | ok v => rfl
    | error e => exact denote_lift run _
  | text => rfl

/-! ### counting loops -/

theorem denote_operand (arg : Text) (scope : Scope) :
    (operand arg scope).denote run = set.operand arg scope := by
  unfold operand Setting.operand
  split
  · exact denote_resolve h _ scope
  · cases Number.read? arg.trim with
    | some n => rfl
    | none => exact denote_lift run _

theorem denote_startValue (raw : Text) (scope : Scope) :
    (startValue raw scope).denote run = set.startValue raw scope := by
  unfold startValue Setting.startValue
  split
  · exact denote_resolve h _ scope
  · rfl

theorem denote_start (entry : Text) (scope : Scope) :
    (start entry scope).denote run = set.start entry scope := by
  unfold start Setting.start
  cases Text.cutAt '=' entry with
  | none => rfl
  | some e =>
    show (startValue e.2.trim scope >>= _).denote run = set.startValue e.2.trim scope >>= _
    rw [denote_bind, denote_startValue h]
    refine congrArg _ (funext fun v => ?_)
    cases v.toNumber? with
    | some n => rfl
    | none => exact denote_lift run _

theorem denote_startAll (es : List Text) (scope : Scope) :
    (startAll es scope).denote run = set.startAll es scope := by
  induction es generalizing scope with
  | nil => rfl
  | cons e es ih =>
    rw [startAll, Setting.startAll, denote_bind, denote_start h]
    exact congrArg _ (funext ih)

theorem denote_increment (i : Increment) (scope : Scope) :
    (increment i scope).denote run = set.increment i scope := by
  unfold increment Setting.increment
  rw [denote_bind, denote_operand h]
  refine congrArg _ (funext fun v => ?_)
  cases v.toNumber? with
  | none => exact denote_lift run _
  | some d =>
    cases (scope.get? i.name).bind Value.toNumber? with
    | some n => rfl
    | none => exact denote_lift run _

theorem denote_incrementAll (is : List Increment) (scope : Scope) :
    (incrementAll is scope).denote run = set.incrementAll is scope := by
  induction is generalizing scope with
  | nil => rfl
  | cons i is ih =>
    rw [incrementAll, Setting.incrementAll, denote_bind, denote_increment h]
    exact congrArg _ (funext ih)

theorem denote_rounds (c : Counting) (taken : Nat) (scope : Scope) :
    (rounds c taken scope).denote run = (Task.rounds c taken scope).eval set := by
  rw [Task.eval, Run.loop_eq, Setting.conditionHolds]
  simp only [bind_assoc, pure_bind]
  rw [rounds, denote_bind, denote_lift]
  refine congrArg _ (funext fun l => ?_)
  rw [denote_bind, denote_operand h]
  refine congrArg _ (funext fun r => ?_)
  split
  · rw [denote_ask, h]
    rfl
  · rfl

theorem denote_round (c : Counting) (taken : Nat) (scope : Scope) :
    (round set.options c taken scope).denote run = (Task.round c taken scope).eval set := by
  rw [round, Task.eval]
  split
  · rename_i hle
    rw [Nat.sub_eq_zero_of_le hle, Run.enter]
    exact denote_lift run _
  · rename_i hlt
    have hleft : set.options.maxRounds - taken = set.options.maxRounds - (taken + 1) + 1 := by omega
    rw [hleft, Run.enter, Setting.countRound]
    simp only [denote_bind, denote_ask, denote_incrementAll h, h, denote_pure, bind_assoc,
      pure_bind]
    rfl

/-! ### commands -/

theorem denote_body (ns : List Node) (scope : Scope) :
    (body ns scope).denote run = set.renderNodes ns scope := (denote_ask run _ _).trans (h _)

omit h in
theorem denote_inScope {α : Type} (unscoped : Bool) (scope : Scope)
    {f : Scope → Code σ (α × Scope)} {g : Scope → Run σ (α × Scope)}
    (hf : ∀ s, (f s).denote run = g s) :
    (inScope unscoped scope f).denote run = Run.scoped unscoped scope g := by
  unfold inScope Run.scoped
  simp only [denote_bind, hf, denote_pure]

theorem denote_cond (unscoped : Bool) (condition : Text) (ns : List Node) (scope : Scope) :
    (cond unscoped condition ns scope).denote run =
      set.runCond unscoped condition (set.renderNodes ns) scope := by
  unfold cond Setting.runCond
  rw [denote_bind, denote_resolve h]
  refine congrArg _ (funext fun v => ?_)
  split
  · rw [denote_bind, denote_inScope unscoped scope (denote_body h ns)]
    rfl
  · rfl

theorem denote_count (unscoped : Bool) (init name op bound step : Text) (ns : List Node)
    (scope : Scope) : (count unscoped init name op bound step ns scope).denote run =
      set.runCount unscoped init name op bound step (set.renderNodes ns) scope := by
  unfold count Setting.runCount
  cases Comparison.ofText? op with
  | none => exact denote_lift run _
  | some c =>
    simp only
    rw [denote_bind, denote_lift]
    refine congrArg _ (funext fun _ => ?_)
    rw [denote_bind, denote_inScope unscoped scope (g := fun inner => do
      let started ← set.startAll (entriesOf init) inner
      Run.loop (set.conditionHolds name c bound)
        (set.countRound (incrementsOf step) (set.renderNodes ns))
        (.loopStopped name set.options.maxRounds) set.options.maxRounds started)]
    · rfl
    · intro inner
      rw [denote_bind, denote_startAll h]
      refine congrArg _ (funext fun started => ?_)
      rw [denote_ask, h]
      rfl

theorem denote_eachRound (name : Text) (ns : List Node) (vs : List Value) (scope : Scope) :
    (eachRound name ns vs scope).denote run =
      Setting.eachRound name (set.renderNodes ns) vs scope := by
  induction vs generalizing scope with
  | nil => rfl
  | cons v vs ih =>
    rw [eachRound, Setting.eachRound]
    simp only [denote_bind, denote_body h, ih, denote_pure]

theorem denote_each (unscoped : Bool) (orders : List Order) (name source : Text) (ns : List Node)
    (scope : Scope) : (each unscoped orders name source ns scope).denote run =
      set.runEach unscoped orders name source (set.renderNodes ns) scope := by
  unfold each Setting.runEach
  simp only [denote_bind, denote_resolve h, denote_lift, denote_pure,
    denote_inScope unscoped scope (denote_eachRound h name ns _)]

theorem denote_define (unscoped trim : Bool) (nameText : Text) (kind : Option Text)
    (ns : List Node) (scope : Scope) :
    (define unscoped trim nameText kind ns scope).denote run =
      set.runDefine unscoped trim nameText kind (set.renderNodes ns) scope := by
  unfold define Setting.runDefine
  rw [denote_bind, denote_substitute h]
  refine congrArg _ (funext fun t => ?_)
  show (if t.trim = [] then _ else _ : Code σ Outcome).denote run = if t.trim = [] then _ else _
  split
  · exact denote_lift run _
  · simp only [denote_bind, denote_lift, denote_pure,
      denote_inScope unscoped scope (denote_body h ns)]

theorem denote_md (unscoped verbatim : Bool) (rawBody : Text) (ns : List Node) (scope : Scope) :
    (md set.host unscoped verbatim rawBody ns scope).denote run =
      set.runMd unscoped verbatim rawBody (set.renderNodes ns) scope := by
  unfold md Setting.runMd
  split
  · rfl
  · simp only [denote_bind, denote_pure, denote_inScope unscoped scope (denote_body h ns)]

theorem denote_kind (k : CommandKind) (args : Checked) (rawBody : Text) (ns : List Node)
    (scope : Scope) : (kind set.host k args rawBody ns scope).denote run =
      set.runKind k args rawBody (set.renderNodes ns) scope := by
  unfold kind Setting.runKind
  generalize args.params = ps
  cases k with
  | cond =>
    match ps with
    | [] => rfl
    | condition :: _ => exact denote_cond h _ condition ns scope
  | count =>
    match ps with
    | [] | [_] | [_, _] | [_, _, _] | [_, _, _, _] => rfl
    | init :: name :: op :: bound :: step :: _ =>
      exact denote_count h _ init name op bound step ns scope
  | each =>
    match ps with
    | [] | [_] => rfl
    | name :: source :: _ => exact denote_each h _ _ name source ns scope
  | define =>
    match ps with
    | [] => rfl
    | name :: rest => exact denote_define h _ _ name rest.head? ns scope
  | md => exact denote_md h _ _ rawBody ns scope

theorem denote_command (head : Head) (rawBody : Text) (ns : List Node) (scope : Scope) :
    (command set.host head rawBody ns scope).denote run =
      set.command head rawBody (set.renderNodes ns) scope := by
  unfold command Setting.command
  cases CommandKind.ofName? head.name with
  | none => exact denote_lift run _
  | some k =>
    simp only
    rw [denote_bind, denote_lift]
    refine congrArg _ (funext fun _ => ?_)
    split
    · exact denote_kind h k _ rawBody ns scope
    · rfl

theorem denote_nodes (ns : List Node) (scope : Scope) :
    (nodes set.host ns scope).denote run = set.renderNodes ns scope := by
  induction ns generalizing scope with
  | nil => rw [Setting.renderNodes]; rfl
  | cons n ns ih =>
    have hnode : (node set.host n scope).denote run = set.renderNode n scope := by
      cases n with
      | text line =>
        rw [node, Setting.renderNode, denote_bind, denote_substitute h]
        rfl
      | command head rawBody body =>
        rw [Setting.renderNode]
        exact denote_command h head rawBody body scope
    rw [nodes, Setting.renderNodes]
    simp only [denote_bind, hnode, ih, denote_pure]

end Code

def Frame.setting {σ : Type} (o : Options) (host : Host σ) (f : Frame) : Setting σ :=
  ⟨o, host, f.loading, Setting.nestedAt o host (o.maxDepth - f.depth)⟩

/-- the evaluator does what the code does when each call in it does what the evaluator does -/
theorem Task.eval_eq {σ α : Type} (o : Options) (host : Host σ) (f : Frame) (t : Task α) :
    t.eval (f.setting o host) =
      (t.code o host f).denote fun s t => t.eval ((f.shift s).setting o host) := by
  have h : ∀ {β : Type} (t : Task β), t.eval ((f.shift .here).setting o host) =
      t.eval (f.setting o host) := fun _ => rfl
  cases t with
  | reference r scope => exact (Code.denote_reference h r scope).symm
  | interpret text fmt scope => exact (Code.denote_interpret h text fmt scope).symm
  | load path fmt scope =>
    show Setting.load _ path fmt scope = (Code.load host f path fmt scope).denote _
    unfold Setting.load Code.load
    show (if f.loading.any (· = path) then _ else _) = _
    split
    · exact (Code.denote_lift _ _).symm
    · rw [Code.denote_bind, Code.denote_lift]
      refine congrArg _ (funext fun r => ?_)
      cases r with
      | error e => exact (Code.denote_lift _ _).symm
      | ok contents =>
        exact (Code.denote_ask (fun s t => t.eval ((f.shift s).setting o host)) (.inLoad path)
          (.interpret contents fmt scope)).symm
  | template source scope =>
    show Setting.nestedAt o host (o.maxDepth - f.depth) f.loading source scope =
      (Code.template o f source scope).denote _
    unfold Code.template
    split
    · rename_i hle
      rw [Nat.sub_eq_zero_of_le hle, Setting.nestedAt]
      exact (Code.denote_lift _ _).symm
    · rename_i hlt
      have hleft : o.maxDepth - f.depth = o.maxDepth - (f.depth + 1) + 1 := by omega
      rw [hleft, Setting.nestedAt, Setting.renderSource]
      simp only [Code.denote_bind, Code.denote_lift, Code.denote_ask, Code.denote_pure,
        bind_assoc, pure_bind]
      rfl
  | nodes ns scope => exact (Code.denote_nodes h ns scope).symm
  | rounds c taken scope => exact (Code.denote_rounds h c taken scope).symm
  | round c taken scope => exact (Code.denote_round h c taken scope).symm

end Stencil
