import Mathlib.Data.List.Infix
import Stencil.Engine
import Stencil.Proofs.Agreement

/-!
# Names that a template does not mention

The value of a variable has no part in rendering a template in which the name of the variable does
not stand.  The template has to be without `parse(` and `load(`, as the text of such a modifier is
another template.  A definition may still make the name and assign the variable, but then it does so
whatever the value was.

* `Scope.AgreeAfter x`             the same was computed, and the scopes agree off `x`;
* `Outcome.AgreeOff x`             the same output and binding, and the scopes agree off `x`;
* `Scope.Keeps x f`                `f` does the same in scopes that agree off `x`, and keeps them so;
* `Setting.command_inStep`         a command whose body keeps agreement keeps agreement;
* `Setting.renderNodes_inStep`     a row of nodes that does not read `x` keeps agreement;
* `Engine.render_noninterference`  so does a template in which `x` does not stand.
-/

namespace Stencil

/-- the same value, and scopes that agree off a name -/
def Scope.AgreeAfter {α : Type} (x : Text) (r r' : α × Scope) : Prop :=
  r.1 = r'.1 ∧ r.2.AgreeOff x r'.2

/-- the same output and the same binding, and scopes that agree off a name -/
def Outcome.AgreeOff (x : Text) (o o' : Outcome) : Prop :=
  o.output = o'.output ∧ o.binding = o'.binding ∧ o.scope.AgreeOff x o'.scope

/-- in scopes that agree off a name the same is done, and they are left in agreement -/
def Scope.Keeps {σ α : Type} (x : Text) (f : Scope → Run σ (α × Scope)) : Prop :=
  ∀ ⦃s t : Scope⦄, s.AgreeOff x t → Run.InStep (Scope.AgreeAfter x) (f s) (f t)

theorem Outcome.AgreeOff.bound {x : Text} {o o' : Outcome} (h : o.AgreeOff x o') :
    o.bound.AgreeOff x o'.bound := by
  obtain ⟨-, hb, hs⟩ := h
  unfold Outcome.bound
  rw [← hb]
  split
  · exact hs.insert _ _
  · exact hs

theorem Run.scoped_inStep {σ α : Type} {x : Text} {f : Scope → Run σ (α × Scope)}
    (hf : Scope.Keeps x f) (unscoped : Bool) {s t : Scope} (h : s.AgreeOff x t) :
    Run.InStep (Scope.AgreeAfter x) (Run.scoped unscoped s f) (Run.scoped unscoped t f) := by
  refine (hf h).bind fun r r' hr => .pure ⟨hr.1, ?_⟩
  cases unscoped
  · exact h
  · exact hr.2

namespace Setting

variable {σ : Type} (set : Setting σ) {x : Text} {body : Body σ}

/-! ## the five commands -/

theorem countRound_inStep (hb : Scope.Keeps x body) {step : Text} (hstep : x.Unread step) :
    Scope.Keeps x (set.countRound (incrementsOf step) body) := by
  intro s t h
  refine (hb h).bind fun r r' hr => ?_
  refine (set.incrementAll_inStep (fun _ hi => unread_of_mem_incrementsOf hstep hi) hr.2).bind ?_
  intro after after' ha
  exact .pure ⟨congrArg joinPieces hr.1, ha⟩

theorem eachRound_inStep (hb : Scope.Keeps x body) (name : Text) (vs : List Value) :
    Scope.Keeps x (eachRound name body vs) := by
  induction vs with
  | nil => exact fun s t h => .pure ⟨rfl, h⟩
  | cons v vs ih =>
    intro s t h
    refine (hb (h.insert name v)).bind fun r r' hr => ?_
    refine (ih hr.2).bind fun rest rest' hrest => .pure ⟨?_, hrest.2⟩
    show (joinPieces r.1).toList ++ rest.1 = (joinPieces r'.1).toList ++ rest'.1
    rw [hr.1, hrest.1]

section
variable (hb : Scope.Keeps x body) {s t : Scope} (h : s.AgreeOff x t) (unscoped : Bool)
include hb h

theorem runCond_inStep {condition : Text} (hc : x.Unread condition) :
    Run.InStep (Outcome.AgreeOff x) (set.runCond unscoped condition body s)
      (set.runCond unscoped condition body t) := by
  unfold runCond
  rw [set.resolve_agree h hc]
  refine .bind_same _ fun v => ?_
  split
  · refine (Run.scoped_inStep hb unscoped h).bind fun r r' hr => ?_
    exact .pure ⟨congrArg joinPieces hr.1, rfl, hr.2⟩
  · exact .pure ⟨rfl, rfl, h⟩

theorem runCount_inStep {init name op bound step : Text} (hinit : x.Unread init)
    (hn : x.Unread name) (hbound : x.Unread bound) (hstep : x.Unread step) :
    Run.InStep (Outcome.AgreeOff x) (set.runCount unscoped init name op bound step body s)
      (set.runCount unscoped init name op bound step body t) := by
  unfold runCount
  split
  · exact .bind_same _ fun _ => .pure ⟨rfl, rfl, h⟩
  rename_i c _
  have hloop : Scope.Keeps x fun inner => (do
      let started ← set.startAll (entriesOf init) inner
      Run.loop (set.conditionHolds name c bound) (set.countRound (incrementsOf step) body)
        (.loopStopped name set.options.maxRounds) set.options.maxRounds started) := by
    intro s t h
    refine (set.startAll_inStep (fun _ he => unread_of_mem_entriesOf hinit he) h).bind ?_
    intro started started' hs
    exact Run.InStep.loop (R := Scope.AgreeOff x) (fun s t h => set.conditionHolds_agree h hn hbound c)
      (fun s t h => set.countRound_inStep hb hstep h) _ _ hs
  refine .bind_same _ fun _ => (Run.scoped_inStep hloop unscoped h).bind fun r r' hr => ?_
  exact .pure ⟨congrArg joinPieces hr.1, rfl, hr.2⟩

theorem runEach_inStep (orders : List Order) (name : Text) {source : Text}
    (hsource : x.Unread source) :
    Run.InStep (Outcome.AgreeOff x) (set.runEach unscoped orders name source body s)
      (set.runEach unscoped orders name source body t) := by
  unfold runEach
  rw [set.resolve_agree h hsource]
  refine .bind_same _ fun v => .bind_same _ fun items => .bind_same _ fun ordered => ?_
  refine (Run.scoped_inStep (eachRound_inStep hb name ordered) unscoped h).bind fun r r' hr => ?_
  exact .pure ⟨congrArg joinPieces hr.1, rfl, hr.2⟩

theorem runDefine_inStep (trim : Bool) {nameText : Text} (hn : x.Unread nameText)
    (kind : Option Text) :
    Run.InStep (Outcome.AgreeOff x) (set.runDefine unscoped trim nameText kind body s)
      (set.runDefine unscoped trim nameText kind body t) := by
  unfold runDefine
  rw [set.substitute_agree h hn]
  refine .bind_same _ fun name => ?_
  show Run.InStep _ (if name.trim = [] then _ else _) (if name.trim = [] then _ else _)
  split
  · exact .bind_same _ fun _ => .pure ⟨rfl, rfl, h⟩
  · refine (Run.scoped_inStep hb unscoped h).bind fun r r' hr => ?_
    rw [hr.1]
    exact .bind_same _ fun v => .pure ⟨rfl, rfl, hr.2⟩

theorem runMd_inStep (verbatim : Bool) (rawBody : Text) :
    Run.InStep (Outcome.AgreeOff x) (set.runMd unscoped verbatim rawBody body s)
      (set.runMd unscoped verbatim rawBody body t) := by
  unfold runMd
  split
  · exact .pure ⟨rfl, rfl, h⟩
  · refine (Run.scoped_inStep hb unscoped h).bind fun r r' hr => ?_
    rw [hr.1]
    exact .pure ⟨rfl, rfl, hr.2⟩

end

/-! ## any command -/

section
variable (hb : Scope.Keeps x body) {s t : Scope} (h : s.AgreeOff x t)
include hb h

theorem runKind_inStep (kind : CommandKind) {args : Checked} (hp : ∀ p ∈ args.params, x.Unread p)
    (rawBody : Text) :
    Run.InStep (Outcome.AgreeOff x) (set.runKind kind args rawBody body s)
      (set.runKind kind args rawBody body t) := by
  unfold runKind
  split
  · rename_i condition rest hps
    exact set.runCond_inStep hb h _ (hp _ (by simp [hps]))
  · rename_i init name op bound step rest hps
    exact set.runCount_inStep hb h _ (hp _ (by simp [hps])) (hp _ (by simp [hps]))
      (hp _ (by simp [hps])) (hp _ (by simp [hps]))
  · rename_i name source rest hps
    exact set.runEach_inStep hb h _ _ name (hp _ (by simp [hps]))
  · rename_i name rest hps
    exact set.runDefine_inStep hb h _ _ (hp _ (by simp [hps])) _
  · exact set.runMd_inStep hb h _ _ rawBody
  · exact .pure ⟨rfl, rfl, h⟩

/-- a command that does not read a name, around a body that keeps agreement off it -/
theorem command_inStep {head : Head} (hp : ∀ p ∈ head.params, x.Unread p) (rawBody : Text) :
    Run.InStep (Outcome.AgreeOff x) (set.command head rawBody body s)
      (set.command head rawBody body t) := by
  cases hk : CommandKind.ofName? head.name with
  | none =>
    rw [set.command_of_unknown rawBody body _ hk, set.command_of_unknown rawBody body _ hk]
    exact .bind_same _ fun _ => .pure ⟨rfl, rfl, h⟩
  | some kind =>
    cases hv : (kind.signature.check (.command head.name) head.params).isValid with
    | false =>
      rw [set.command_of_invalid rawBody body _ hk hv, set.command_of_invalid rawBody body _ hk hv]
      exact .bind_same _ fun _ => .pure ⟨rfl, rfl, h⟩
    | true =>
      have hparams := (kind.signature.unread_check (.command head.name) hp).1
      rw [set.command_of_valid rawBody body _ hk hv, set.command_of_valid rawBody body _ hk hv]
      exact .bind_same _ fun _ => set.runKind_inStep hb h kind hparams rawBody

end

/-! ## rows of nodes -/

theorem renderNodes_cons_inStep {node : Node} {nodes : List Node} {s t : Scope}
    (ho : Run.InStep (Outcome.AgreeOff x) (set.renderNode node s) (set.renderNode node t))
    (hr : Scope.Keeps x (set.renderNodes nodes)) :
    Run.InStep (Scope.AgreeAfter x) (set.renderNodes (node :: nodes) s)
      (set.renderNodes (node :: nodes) t) := by
  rw [renderNodes, renderNodes]
  refine ho.bind fun o o' h => (hr h.bound).bind fun rest rest' hrest => .pure ⟨?_, hrest.2⟩
  show o.output.toList ++ rest.1 = o'.output.toList ++ rest'.1
  rw [h.1, hrest.1]

/-- a row of nodes that does not read a name, at any depth, keeps agreement off it; by induction on
the tree -/
theorem renderNodes_inStep (nodes : List Node) (hu : ∀ u ∈ Node.texts nodes, x.Unread u) :
    Scope.Keeps x (set.renderNodes nodes) := by
  intro s t h
  match nodes with
  | [] =>
    rw [renderNodes, renderNodes]
    exact .pure ⟨rfl, h⟩
  | .text line :: nodes =>
    rw [Node.texts_cons_text] at hu
    refine set.renderNodes_cons_inStep ?_
      (renderNodes_inStep nodes fun u hm => hu u (List.mem_cons_of_mem _ hm))
    rw [renderNode, renderNode, set.substitute_agree h (hu line List.mem_cons_self)]
    exact .bind_same _ fun _ => .pure ⟨rfl, rfl, h⟩
  | .command head rawBody body :: nodes =>
    rw [Node.texts_cons_command] at hu
    have hparams : ∀ p ∈ head.params, x.Unread p :=
      fun p hp => hu p (List.mem_append_left _ (List.mem_append_left _ hp))
    have hbody : Scope.Keeps x (set.renderNodes body) := renderNodes_inStep body
      fun u hm => hu u (List.mem_append_left _ (List.mem_append_right _ hm))
    refine set.renderNodes_cons_inStep ?_
      (renderNodes_inStep nodes fun u hm => hu u (List.mem_append_right _ hm))
    rw [renderNode, renderNode]
    exact set.command_inStep hbody h hparams rawBody

theorem renderSource_inStep {source : Text} (hx : x.Unread source) :
    Scope.Keeps x (set.renderSource source) := by
  have hu : ∀ u ∈ Node.texts (Template.read source).nodes, x.Unread u :=
    fun u hu => hx.mono (infix_of_mem_texts hu)
  intro s t h
  refine .bind_same _ fun _ => ?_
  refine (set.renderNodes_inStep _ hu h).bind fun r r' hr => ?_
  exact .pure ⟨congrArg Text.joinLines hr.1, hr.2⟩

end Setting

/-- **A variable whose name a template does not mention has no part in rendering it**: from scopes
that agree on all other names the output is the same, the engine is left the same, with the same
problems noted, and the scopes after it agree on all other names. -/
theorem Engine.render_noninterference {σ : Type} (e : Engine σ) {x source : Text}
    (hx : x.Unread source) {s t : Scope} (h : s.AgreeOff x t) :
    (e.render source s).1.1 = (e.render source t).1.1 ∧
      (e.render source s).2 = (e.render source t).2 ∧
      (e.render source s).1.2.AgreeOff x (e.render source t).1.2 := by
  obtain ⟨⟨hv, hs⟩, hp, hw⟩ := e.setting.renderSource_inStep hx h e.world
  refine ⟨hv, ?_, hs⟩
  exact congrArg₂ (fun ps w => ({ e with world := w, log := e.log.add ps } : Engine σ)) hp hw

/-- a template that assigns `secret` without a mention of it, `a` being `sec` -/
def Template.assigning : Text := "$define #a#ret$\n#a trim#\n$end$\n#a at(0)# #b#".toList

theorem render_noninterference_assigning :
    Text.Unread "secret".toList Template.assigning ∧
      ((Engine.new {} Host.bare () .congruence).render Template.assigning
          (Table.insert [("a".toList, .string "sec".toList)] "secret".toList .null)).2 =
        ((Engine.new {} Host.bare () .congruence).render Template.assigning
          [("a".toList, .string "sec".toList)]).2 := by
  have hx : Text.Unread "secret".toList Template.assigning :=
    ⟨by decide, by decide, by decide, by decide, by decide⟩
  obtain ⟨-, he, -⟩ := (Engine.new {} Host.bare () .congruence).render_noninterference hx
    (Scope.AgreeOff.of_insert [("a".toList, .string "sec".toList)] "secret".toList .null)
  exact ⟨hx, he⟩

end Stencil
