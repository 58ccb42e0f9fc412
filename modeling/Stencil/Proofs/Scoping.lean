import Stencil.Proofs.Effects
import Stencil.Render.Template

/-!
# What a row of nodes does to the scope

A command without an accepted `unscoped` works on a copy of the scope, so that all it can change is
the one variable that it returns as its binding, and only `define` returns one.

* `Head.isUnscoped`, `Node.isUnscoped`   whether a command carries an accepted `unscoped`;
* `Head.isDefine`, `Node.isDefine`       whether a command is a `define`;
* `Scope.bindAll`                        a scope with some bindings, one after the other;
* `Setting.bindings`                     the bindings that the definitions of a row return;
* `Setting.command_ensures`              what any command without `unscoped` leaves behind;
* `Setting.renderNodes_scope`            a row of nodes leaves the scope with its bindings.
-/

namespace Stencil

/-! ## what a node is -/

/-- whether a command carries an `unscoped` that its signature accepts -/
def Head.isUnscoped (h : Head) : Bool :=
  match CommandKind.ofName? h.name with
  | none => false
  | some kind => (kind.signature.check (.command h.name) h.params).isUnscoped

def Head.isDefine (h : Head) : Bool := CommandKind.ofName? h.name = some .define

namespace Node

def isUnscoped : Node → Bool
  | text _ => false
  | command head _ _ => head.isUnscoped

def isDefine : Node → Bool
  | text _ => false
  | command head _ _ => head.isDefine

end Node

/-! ## bindings -/

def Scope.bindAll (scope : Scope) (bs : List (Text × Value)) : Scope :=
  bs.foldl (fun s b => s.insert b.1 b.2) scope

theorem Scope.bindAll_append (scope : Scope) (bs cs : List (Text × Value)) :
    scope.bindAll (bs ++ cs) = (scope.bindAll bs).bindAll cs :=
  List.foldl_append

theorem Outcome.bound_eq (o : Outcome) : o.bound = o.scope.bindAll o.binding.toList := by
  unfold Outcome.bound
  cases o.binding with
  | none => rfl
  | some b => rfl

/-- an outcome that leaves a scope as it is -/
def Outcome.Leaves (scope : Scope) (o : Outcome) : Prop := o.scope = scope ∧ o.binding = none

/-- the bindings that the definitions of a row of nodes return, in order; each node is rendered in
the scope which the bindings before it make -/
def Setting.bindings {σ : Type} (set : Setting σ) : List Node → Scope → World σ → List (Text × Value)
  | [], _, _ => []
  | node :: nodes, scope, w =>
    let r := set.renderNode node scope w
    let own := if node.isDefine then r.value.binding.toList else []
    own ++ bindings set nodes (scope.bindAll own) r.world

/-! ## one command -/

theorem Run.scoped_false {σ α : Type} (scope : Scope) (f : Scope → Run σ (α × Scope)) :
    (Run.scoped false scope f).Ensures fun r => r.2 = scope :=
  .after fun _ => .pure rfl

namespace Setting

variable {σ : Type} (set : Setting σ)

theorem runCond_leaves (condition : Text) (body : Body σ) (scope : Scope) :
    (set.runCond false condition body scope).Ensures (Outcome.Leaves scope) := by
  unfold runCond
  refine .after fun v => ?_
  split
  · exact (Run.scoped_false scope body).bind fun r hr => .pure ⟨hr, rfl⟩
  · exact .pure ⟨rfl, rfl⟩

theorem runCount_leaves (init name op bound step : Text) (body : Body σ) (scope : Scope) :
    (set.runCount false init name op bound step body scope).Ensures (Outcome.Leaves scope) := by
  unfold runCount
  split
  · exact .after fun _ => .pure ⟨rfl, rfl⟩
  · refine .after fun _ => ?_
    exact (Run.scoped_false scope _).bind fun r hr => .pure ⟨hr, rfl⟩

theorem runEach_leaves (orders : List Order) (name source : Text) (body : Body σ) (scope : Scope) :
    (set.runEach false orders name source body scope).Ensures (Outcome.Leaves scope) := by
  unfold runEach
  refine .after fun v => .after fun items => .after fun ordered => ?_
  exact (Run.scoped_false scope _).bind fun r hr => .pure ⟨hr, rfl⟩

theorem runMd_leaves (verbatim : Bool) (rawBody : Text) (body : Body σ) (scope : Scope) :
    (set.runMd false verbatim rawBody body scope).Ensures (Outcome.Leaves scope) := by
  unfold runMd
  split
  · exact .pure ⟨rfl, rfl⟩
  · exact (Run.scoped_false scope body).bind fun r hr => .pure ⟨hr, rfl⟩

/-- `define` may return a binding, but leaves the scope it was given -/
theorem runDefine_scope (trim : Bool) (nameText : Text) (kind : Option Text) (body : Body σ)
    (scope : Scope) :
    (set.runDefine false trim nameText kind body scope).Ensures fun o => o.scope = scope := by
  unfold runDefine
  refine .after fun name => ?_
  show Run.Ensures _ (if name.trim = [] then _ else _)
  split
  · exact .after fun _ => .pure rfl
  · refine (Run.scoped_false scope body).bind fun r hr => ?_
    exact .after fun v => .pure hr

theorem runKind_ensures (kind : CommandKind) {args : Checked} (hu : args.isUnscoped = false)
    (rawBody : Text) (body : Body σ) (scope : Scope) :
    (set.runKind kind args rawBody body scope).Ensures fun o =>
      o.scope = scope ∧ (kind ≠ .define → o.binding = none) := by
  have weaken : ∀ {o : Outcome}, o.Leaves scope →
      o.scope = scope ∧ (kind ≠ .define → o.binding = none) := fun ho => ⟨ho.1, fun _ => ho.2⟩
  unfold runKind
  rw [hu]
  split
  · exact fun w => weaken (set.runCond_leaves _ body scope w)
  · exact fun w => weaken (set.runCount_leaves _ _ _ _ _ body scope w)
  · exact fun w => weaken (set.runEach_leaves _ _ _ body scope w)
  · exact fun w => ⟨set.runDefine_scope _ _ _ body scope w, fun hd => absurd rfl hd⟩
  · exact fun w => weaken (set.runMd_leaves _ _ body scope w)
  · exact .pure ⟨rfl, fun _ => rfl⟩

/-- what a command leaves behind that works on a copy of the scope -/
theorem command_ensures (head : Head) (rawBody : Text) (body : Body σ) (scope : Scope)
    (h : head.isUnscoped = false) :
    (set.command head rawBody body scope).Ensures fun o =>
      o.scope = scope ∧ (head.isDefine = false → o.binding = none) := by
  cases hk : CommandKind.ofName? head.name with
  | none =>
    rw [set.command_of_unknown rawBody body scope hk]
    exact .after fun _ => .pure ⟨rfl, fun _ => rfl⟩
  | some kind =>
    cases hv : (kind.signature.check (.command head.name) head.params).isValid with
    | false =>
      rw [set.command_of_invalid rawBody body scope hk hv]
      exact .after fun _ => .pure ⟨rfl, fun _ => rfl⟩
    | true =>
      have hu : (kind.signature.check (.command head.name) head.params).isUnscoped = false := by
        unfold Head.isUnscoped at h
        rw [hk] at h
        exact h
      rw [set.command_of_valid rawBody body scope hk hv]
      refine .after fun _ w => ?_
      obtain ⟨hs, hb⟩ := set.runKind_ensures kind hu rawBody body scope w
      refine ⟨hs, fun hd => hb ?_⟩
      rintro rfl
      simp [Head.isDefine, hk] at hd

/-! ## a row of nodes -/

theorem renderNode_bound (node : Node) (scope : Scope) (w : World σ) (h : node.isUnscoped = false) :
    (set.renderNode node scope w).value.bound = scope.bindAll
      (if node.isDefine then (set.renderNode node scope w).value.binding.toList else []) := by
  rw [Outcome.bound_eq]
  cases node with
  | text line => rw [renderNode]; rfl
  | command head rawBody body =>
    rw [renderNode]
    obtain ⟨hs, hb⟩ := set.command_ensures head rawBody (renderNodes set body) scope h w
    rw [hs]
    show _ = scope.bindAll (if head.isDefine then _ else _)
    split
    · rfl
    · rename_i hd
      rw [hb (Bool.not_eq_true _ ▸ hd)]
      rfl

theorem renderNodes_cons_apply (node : Node) (nodes : List Node) (scope : Scope) (w : World σ) :
    (set.renderNodes (node :: nodes) scope w).value.2 =
      (set.renderNodes nodes (set.renderNode node scope w).value.bound
        (set.renderNode node scope w).world).value.2 := by
  rw [renderNodes]
  rfl

theorem bindings_of_noDefine (nodes : List Node) (scope : Scope) (w : World σ)
    (h : ∀ node ∈ nodes, node.isDefine = false) : set.bindings nodes scope w = [] := by
  induction nodes generalizing scope w with
  | nil => rfl
  | cons node nodes ih =>
    rw [bindings, h node List.mem_cons_self]
    exact ih _ _ fun n hn => h n (List.mem_cons_of_mem _ hn)

theorem renderNodes_scope_eq (nodes : List Node) (scope : Scope) (w : World σ)
    (h : ∀ node ∈ nodes, node.isUnscoped = false) :
    (set.renderNodes nodes scope w).value.2 = scope.bindAll (set.bindings nodes scope w) := by
  induction nodes generalizing scope w with
  | nil => rw [renderNodes]; rfl
  | cons node nodes ih =>
    rw [renderNodes_cons_apply, set.renderNode_bound node scope w (h node List.mem_cons_self),
      ih _ _ fun n hn => h n (List.mem_cons_of_mem _ hn), bindings, Scope.bindAll_append]

/-- **A row of nodes none of which carries `unscoped` changes the scope by the bindings of its own
definitions only**, whatever the bodies of its commands do; a row without a definition leaves the
scope as it was. -/
theorem renderNodes_scope (set : Setting σ) (nodes : List Node) (scope : Scope) (w : World σ)
    (h : ∀ node ∈ nodes, node.isUnscoped = false) :
    (set.renderNodes nodes scope w).value.2 = scope.bindAll (set.bindings nodes scope w) ∧
      ((∀ node ∈ nodes, node.isDefine = false) →
        (set.renderNodes nodes scope w).value.2 = scope) := by
  have heq := set.renderNodes_scope_eq nodes scope w h
  refine ⟨heq, fun hd => ?_⟩
  rw [heq, set.bindings_of_noDefine nodes scope w hd]
  rfl

end Setting

/-- a condition in the body of which variables are defined and a loop runs, all of them `unscoped` -/
def Node.sharing : List Node :=
  [.command ⟨"if".toList, ["a".toList], false, []⟩ []
    [.command ⟨"define".toList, ["b".toList, "unscoped".toList], false, []⟩ []
      [.command ⟨"define".toList, ["a".toList], false, []⟩ [] [.text "0".toList]],
    .command ⟨"for".toList, ["i=0".toList, "i".toList, "<".toList, "3".toList, "i+=1".toList,
      "unscoped".toList], false, []⟩ [] []]]

theorem Setting.renderNodes_scope_sharing :
    (∀ node ∈ Node.sharing, node.isUnscoped = false) ∧
      ((Setting.top {} Host.bare []).renderNodes Node.sharing [("a".toList, .bool true)]
        ⟨(), .congruence 0⟩).value.2 = [("a".toList, .bool true)] :=
  ⟨by decide, (Setting.renderNodes_scope _ _ _ _ (by decide)).2 (by decide)⟩

end Stencil
