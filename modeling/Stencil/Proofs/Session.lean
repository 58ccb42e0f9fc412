import Mathlib.Logic.Relation
import Stencil.Proofs.Calls.Fields
import Stencil.Proofs.Unshuffled

/-!
# Engines that were used before

An engine keeps how many templates it is inside of, and which paths are being loaded, in two fields
that last from one request to the next.  A request that left them changed would be felt by all later
ones; none does.  What earlier requests do leave behind, a log that is not empty, another state of
the host and another state of the generator, is not felt either by a template that asks neither of
the two.

* `Request`, `Request.routine`   what an engine can be asked, and what it does for it on its fields;
* `Request.routine_ends`    the fields end as they were;
* `Engine.answer_eq`        what it answers when where it stands is handed from call to call;
* `Session`, `Session.Serves`   an engine with its two fields, and how it serves a request;
* `Session.serves_iff`      the answer is the same, and the fields are left as they were;
* `Session.Step`, `Session.same_of_steps`   so they are after any number of requests;
* `Session.render_after`    rendering does not depend on what was requested before.
-/

namespace Stencil

variable {σ α β : Type}

/-! ## requests -/

/-- what can be asked of an engine, and the type of the answer; its problems can also be taken -/
inductive Request : Type → Type
  | parse (source : Text) : Request (List Node)
  | render (source : Text) (scope : Scope) : Request (Text × Scope)
  | fetch (path : Text) : Request (Except Failure Text)
  | renderFile (path : Text) (scope : Scope) : Request (Except Failure (Text × Scope))
  | substitute (line : Text) (scope : Scope) : Request Text
  | evaluate (r : Reference) (scope : Scope) : Request Value
  | insertText (destination text : Text) (sink : Sink) : Request Sink
  | insertFile (path destination : Text) (sink : Sink) : Request (Except Failure Sink)
  | insertRenderedFile (path destination : Text) (scope : Scope) (sink : Sink) :
      Request (Except Failure (Sink × Scope))

def Request.routine (host : Host σ) : Request α → Routine σ α
  | parse source => .lift do
    .noteAll (Template.read source).problems
    pure (Template.read source).nodes
  | render source scope => .renderSource source scope
  | fetch path => .fetch host path
  | renderFile path scope => .renderFile host path scope
  | substitute line scope => .ofCode (.substitute line scope)
  | evaluate r scope => .ofCode (.reference host r scope)
  | insertText destination text sink => pure (Engine.insertText destination text sink)
  | insertFile path destination sink => do
    match ← .fetch host path with
    | .error f => pure (.error f)
    | .ok text => pure (.ok (Engine.insertText destination text sink))
  | insertRenderedFile path destination scope sink => do
    match ← .renderFile host path scope with
    | .error f => pure (.error f)
    | .ok r => pure (.ok (Engine.insertText destination r.1 sink, r.2))

/-- the answer to a request, and the engine after it -/
def Engine.answer (e : Engine σ) : Request α → α × Engine σ
  | .parse source => e.parse source
  | .render source scope => e.render source scope
  | .fetch path => e.fetch path
  | .renderFile path scope => e.renderFile path scope
  | .substitute line scope => e.substitute line scope
  | .evaluate r scope => e.evaluate r scope
  | .insertText destination text sink => (insertText destination text sink, e)
  | .insertFile path destination sink => e.insertFile path destination sink
  | .insertRenderedFile path destination scope sink =>
    e.insertRenderedFile path destination scope sink

namespace Engine

theorem run_bind (e : Engine σ) (x : Run σ α) (f : α → Run σ β) :
    e.run (x >>= f) = (e.run x).2.run (f (e.run x).1) := by
  simp only [run, Run.bind_apply, Log.add, List.append_assoc]

theorem run_pure (e : Engine σ) (a : α) : e.run (pure a : Run σ α) = (a, e) := by
  simp only [run, Run.pure_apply, Log.add_nil]

theorem run_bind_pure (e : Engine σ) (x : Run σ α) (f : α → β) :
    e.run (x >>= fun a => pure (f a)) = (f (e.run x).1, (e.run x).2) := by
  rw [run_bind, run_pure]

end Engine

/-! ## what is done for a request -/

/-- where an engine stands between two requests -/
def Frame.top : Frame := ⟨0, []⟩

section
variable {f : Frame}

theorem Code.within_here_reference (host : Host σ) (r : Reference) (scope : Scope) :
    (reference host r scope).MakesOnly f fun d => d.frame = f ∧ True :=
  (within_reference Text.hereditary_true {} host ⟨trivial, fun _ _ => trivial⟩ scope).mono
    (fun _ hd => ⟨hd.frame_eq id, trivial⟩) fun _ => id

theorem Code.within_here_substitute (line : Text) (scope : Scope) :
    (substitute line scope : Code σ Text).MakesOnly f fun d => d.frame = f ∧ True :=
  within_substitute Text.hereditary_true trivial fun _ _ => ⟨rfl, trivial⟩

/-- **whatever is requested, the fields end as they were** -/
theorem Request.routine_ends (host : Host σ) (q : Request α) :
    (q.routine host).Ends (fun _ => True) f f := by
  cases q with
  | parse source => exact Routine.ends_lift _
  | render source scope => exact Routine.renderSource_ends trivial
  | fetch path => exact Routine.fetch_ends host path
  | renderFile path scope => exact Routine.renderFile_ends host fun _ => trivial
  | substitute line scope => exact Routine.ofCode_ends (Code.within_here_substitute line scope)
  | evaluate r scope => exact Routine.ofCode_ends (Code.within_here_reference host r scope)
  | insertText destination text sink => exact Routine.ends_pure _
  | insertFile path destination sink =>
    refine (Routine.fetch_ends host path).bind fun r => ?_
    cases r <;> exact Routine.ends_pure _
  | insertRenderedFile path destination scope sink =>
    refine (Routine.renderFile_ends host fun _ => trivial).bind fun r => ?_
    cases r <;> exact Routine.ends_pure _

end

namespace Engine

variable (e : Engine σ)

/-- what an engine does for a routine at the top, if the calls in it do what the evaluator does -/
def perform (x : Routine σ α) : α × Engine σ := e.run (x.eval e.options e.host .top)

theorem perform_bind {P : Call → Prop} {x : Routine σ α} (hx : x.Ends P .top .top)
    (next : α → Routine σ β) :
    e.perform (x >>= next) =
      (e.perform x).2.run ((next (e.perform x).1).eval e.options e.host .top) := by
  rw [perform, Routine.eval_bind hx, run_bind]
  rfl

theorem run_eq_perform_ofCode {x : Code σ α} {y : Run σ α}
    (hx : x.MakesOnly .top fun d => d.frame = .top ∧ True)
    (hy : y = x.denote fun s t => (⟨Frame.top.shift s, t⟩ : Call).eval e.options e.host) :
    e.run y = e.perform (.ofCode x) := by
  rw [perform, Routine.eval_ofCode hx, hy]

theorem fetch_eq (path : Text) : e.fetch path = e.perform (.fetch e.host path) :=
  congrArg e.run (Routine.eval_lift _).symm

theorem same_of_fetch {path : Text} {r : Except Failure Text} {e' : Engine σ}
    (h : e.fetch path = (r, e')) : e'.options = e.options ∧ e'.host = e.host := by
  cases h
  exact ⟨rfl, rfl⟩

theorem renderFile_eq (path : Text) (scope : Scope) :
    e.renderFile path scope = e.perform (.renderFile e.host path scope) := by
  rw [Routine.renderFile, e.perform_bind (P := fun _ => True) (Routine.fetch_ends e.host path),
    ← fetch_eq, renderFile]
  cases hfetch : e.fetch path with
  | mk r e' =>
    obtain ⟨ho, hh⟩ := e.same_of_fetch hfetch
    cases r with
    | error f => exact (e'.run_pure _).symm
    | ok source =>
      have hends : (Routine.renderSource source scope : Routine σ (Text × Scope)).Ends
          (fun _ => True) (Frame.top.push path) (Frame.top.push path) :=
        Routine.renderSource_ends trivial
      simp only
      rw [ho, hh, Routine.eval_between hends]
      exact (e'.run_bind_pure _ _).symm

theorem insertFile_eq (path destination : Text) (sink : Sink) :
    e.insertFile path destination sink =
      e.perform ((Request.insertFile path destination sink).routine e.host) := by
  rw [Request.routine, e.perform_bind (P := fun _ => True) (Routine.fetch_ends e.host path),
    ← fetch_eq, insertFile]
  cases e.fetch path with
  | mk r e' => cases r <;> exact (e'.run_pure _).symm

theorem insertRenderedFile_eq (path destination : Text) (scope : Scope) (sink : Sink) :
    e.insertRenderedFile path destination scope sink =
      e.perform ((Request.insertRenderedFile path destination scope sink).routine e.host) := by
  have hends : (Routine.renderFile e.host path scope).Ends (fun _ => True) .top .top :=
    Routine.renderFile_ends e.host fun _ => trivial
  rw [Request.routine, e.perform_bind hends, ← renderFile_eq, insertRenderedFile]
  cases e.renderFile path scope with
  | mk r e' => cases r <;> exact (e'.run_pure _).symm

/-- **the answer to a request** is what is done for it at the top -/
theorem answer_eq (q : Request α) : e.answer q = e.perform (q.routine e.host) := by
  -- what is evaluated at the top is evaluated in the setting of the engine
  have hset : ∀ {β : Type} (t : Task β),
      (⟨Frame.top.shift .here, t⟩ : Call).eval e.options e.host = t.eval e.setting := fun _ => rfl
  cases q with
  | parse source => exact congrArg e.run (Routine.eval_lift _).symm
  | render source scope => rfl
  | fetch path => exact e.fetch_eq path
  | renderFile path scope => exact e.renderFile_eq path scope
  | substitute line scope =>
    exact e.run_eq_perform_ofCode (Code.within_here_substitute line scope)
      (Code.denote_substitute hset line scope).symm
  | evaluate r scope =>
    exact e.run_eq_perform_ofCode (Code.within_here_reference e.host r scope)
      (Code.denote_reference hset r scope).symm
  | insertText destination text sink => exact (e.run_pure _).symm
  | insertFile path destination sink => exact e.insertFile_eq path destination sink
  | insertRenderedFile path destination scope sink =>
    exact e.insertRenderedFile_eq path destination scope sink

end Engine

/-! ## sessions -/

/-- an engine with the fields in which it keeps where it stands -/
structure Session (σ : Type) where
  engine : Engine σ
  fields : Frame

namespace Session

/-- an engine of which nothing was requested yet -/
def new (o : Options) (host : Host σ) (w : World σ) : Session σ := ⟨⟨o, host, w, .empty⟩, .top⟩

/-- what is done for a request is carried out on the fields of the engine, whatever they hold -/
def Serves (s : Session σ) (q : Request α) (a : α) (s' : Session σ) : Prop :=
  ∃ r, (q.routine s.engine.host).Runs s.engine.options s.engine.host s.fields s.engine.world r
      s'.fields ∧
    a = r.value ∧
    s'.engine = { s.engine with world := r.world, log := s.engine.log.add r.problems }

theorem serves_iff {s s' : Session σ} (hs : s.fields = .top) {q : Request α} {a : α} :
    s.Serves q a s' ↔ s.engine.answer q = (a, s'.engine) ∧ s'.fields = .top := by
  rw [Engine.answer_eq]
  constructor
  · rintro ⟨r, hruns, rfl, he⟩
    rw [hs, Routine.runs_iff (q.routine_ends s.engine.host)] at hruns
    obtain ⟨rfl, hf⟩ := hruns
    exact ⟨congrArg (Prod.mk _) he.symm, hf⟩
  · rintro ⟨ha, hf⟩
    obtain ⟨hvalue, he⟩ := Prod.mk.inj ha
    refine ⟨_, ?_, hvalue.symm, he.symm⟩
    rw [hs, hf, Routine.runs_iff (q.routine_ends s.engine.host)]
    exact ⟨rfl, rfl⟩

/-- what can happen to an engine: it is asked for something, or its problems are taken -/
inductive Step : Session σ → Session σ → Prop
  | request {s s' : Session σ} {α : Type} {q : Request α} {a : α} (h : s.Serves q a s') : Step s s'
  | takeProblems (s : Session σ) : Step s { s with engine := s.engine.takeProblems.2 }

/-- an engine after a request -/
def after (s : Session σ) (q : Request α) : Session σ := ⟨(s.engine.answer q).2, .top⟩

/-- every request is served -/
theorem step_after {s : Session σ} (hs : s.fields = .top) (q : Request α) : s.Step (s.after q) :=
  .request ((serves_iff hs).mpr ⟨rfl, rfl⟩)

theorem Step.same {s s' : Session σ} (h : s.Step s') (hs : s.fields = .top) :
    s'.fields = .top ∧ s'.engine.options = s.engine.options ∧ s'.engine.host = s.engine.host := by
  cases h with
  | request h =>
    have hfields : s'.fields = .top := ((serves_iff hs).mp h).2
    obtain ⟨r, -, -, he⟩ := h
    rw [he]
    exact ⟨hfields, rfl, rfl⟩
  | takeProblems => exact ⟨hs, rfl, rfl⟩

/-- **no number of requests changes the fields for good**, nor the options or the host -/
theorem same_of_steps {o : Options} {host : Host σ} {w : World σ} {s : Session σ}
    (h : Relation.ReflTransGen Step (new o host w) s) :
    s.fields = .top ∧ s.engine.options = o ∧ s.engine.host = host := by
  induction h with
  | refl => exact ⟨rfl, rfl, rfl⟩
  | tail _ hstep ih =>
    obtain ⟨hfields, hoptions, hhost⟩ := ih
    obtain ⟨hfields', hoptions', hhost'⟩ := hstep.same hfields
    exact ⟨hfields', hoptions'.trans hoptions, hhost'.trans hhost⟩

end Session

/-! ## rendering after other requests -/

/-- **Rendering does not depend on what was requested before.**  Let the texts that a host fetches
not depend on its state.  Any number of requests may have been made of an engine with this host,
whatever they were and whether or not they failed or met a bound, and its problems may have been
taken in between.  If it is then asked to render a template in a scope without host functions, and
no row of nodes that comes to be rendered asks for a random order, there is one way in which the
request is served: the output and the scope are those of an engine of which nothing was requested
yet, and what such an engine notes is put behind the problems noted before. -/
theorem Session.render_after {o : Options} {host : Host σ} (hhost : host.Steady) {w : World σ}
    {s : Session σ} (h : Relation.ReflTransGen Session.Step (Session.new o host w) s)
    {source : Text} {scope : Scope} (hscope : scope.Passive) {state : σ}
    {seeding : Seeding} (hrows : (Engine.new o host state seeding).RendersUnshuffled source scope) :
    let r := (Engine.new o host state seeding).render source scope
    ∃ s', (∀ a t, s.Serves (.render source scope) a t ↔ a = r.1 ∧ t = s') ∧
      s'.engine.log = s.engine.log.add r.2.log.problems := by
  intro r
  obtain ⟨hfields, rfl, rfl⟩ := Session.same_of_steps h
  obtain ⟨hsource, result, hreturns⟩ := hrows
  have hrow : (Call.ofSource [] source scope).task.Unshuffled := hsource
  obtain ⟨hvalue, hproblems⟩ :=
    Call.eval_steady hhost (fun _ _ hd => hd) hrow hscope hreturns s.engine.world
  have hanswer : (s.engine.render source scope).1 = r.1 := by
    rw [Engine.render_eq_eval]
    exact congrArg (fun v => (Text.joinLines v.1, v.2)) hvalue
  have hlog : (s.engine.render source scope).2.log = s.engine.log.add r.2.log.problems := by
    have hfresh := congrArg (fun x => x.2.log.problems)
      ((Engine.new s.engine.options s.engine.host state seeding).render_eq_eval source scope)
    rw [Engine.render_eq_eval, show r.2.log.problems = _ from hfresh]
    exact congrArg (fun ps => s.engine.log.add ((Template.read source).problems ++ ps)) hproblems
  refine ⟨⟨(s.engine.render source scope).2, .top⟩, fun a t => ?_, hlog⟩
  rw [Session.serves_iff hfields, ← hanswer]
  constructor
  · rintro ⟨hserved, hf⟩
    obtain ⟨engine, fields⟩ := t
    obtain ⟨ha, ht⟩ := Prod.mk.inj hserved
    exact ⟨ha.symm, congrArg₂ Session.mk ht.symm hf⟩
  · rintro ⟨rfl, rfl⟩
    exact ⟨rfl, rfl⟩

/-- a host that counts what it is asked for, and has one file, which loads itself -/
def Host.counting : Host Nat where
  fetch path n := (Files.fetch [("p".toList, "[#p load(ib)#]".toList)] path, n + 1)
  markdown := id
  invoke _ n := (.number (.ofInt n), n + 1)

/-- a file that is missing, a template that is too deep, a loop that is stopped, a path that is
being loaded and a random order; and then a template as if nothing of that had been asked for -/
theorem render_after_failures :
    let scope : Scope := [("p".toList, .string "p".toList),
      ("t".toList, .string "#t parse(ib)#".toList), ("xs".toList, .list [.null, .bool true])]
    let fresh := Session.new ⟨1, 1, none⟩ Host.counting ⟨5, .congruence 7⟩
    let s := ((((fresh.after (.renderFile "missing".toList scope)).after
      (.render "#t parse(ib)#".toList scope)).after
      (.render "$for i=0 i < 2 i+=1$\nx\n$end$".toList scope)).after
      (.renderFile "p".toList scope)).after
      (.render "$foreach x xs randomized$\n#x#\n$end$".toList scope)
    let noted := [Problem.depthExceeded 1, .loopStopped "i".toList 1, .loadCycle "p".toList]
    let r := (Engine.new ⟨1, 1, none⟩ Host.counting 0 .congruence).render "#p load(ib)#".toList
      scope
    s.engine.log.problems = noted ∧ s.engine.world.host = 7 ∧
      s.engine.world.generator ≠ .congruence 7 ∧ r.1.1 = "[]".toList ∧ r.2.log.problems = [.loadCycle "p".toList] ∧
      ∃ s', (∀ a t, s.Serves (.render "#p load(ib)#".toList scope) a t ↔ a = r.1 ∧ t = s') ∧
        s'.engine.log = s.engine.log.add r.2.log.problems := by
  intro scope fresh s noted r
  have hsteps : Relation.ReflTransGen Session.Step fresh s :=
    ((((Relation.ReflTransGen.refl.tail (Session.step_after rfl _)).tail
      (Session.step_after rfl _)).tail (Session.step_after rfl _)).tail
      (Session.step_after rfl _)).tail (Session.step_after rfl _)
  have hhost : Host.counting.Steady := fun _ _ _ => rfl
  have hscope : scope.Passive := by
    refine List.forall_mem_cons.mpr ⟨.string _, List.forall_mem_cons.mpr ⟨.string _, ?_⟩⟩
    refine List.forall_mem_singleton.mpr (.list ?_)
    exact List.forall_mem_cons.mpr ⟨.null, List.forall_mem_singleton.mpr (.bool true)⟩
  have hfile : Text.Orderly "[#p load(ib)#]".toList ∧ Text.Parseless "[#p load(ib)#]".toList := by
    unfold Text.Orderly Text.Parseless
    decide +kernel
  have hsource : Text.Orderly "#p load(ib)#".toList ∧ Text.Parseless "#p load(ib)#".toList := by
    unfold Text.Orderly Text.Parseless
    decide +kernel
  have hfetch : ∀ path n text, (Host.counting.fetch path n).1 = .ok text →
      text.Orderly ∧ text.Parseless := by
    intro path n text htext
    obtain ⟨-, rfl⟩ := Prod.mk.inj
      (List.mem_singleton.mp (Table.mem_of_get? (Files.get?_of_fetch htext)))
    exact hfile
  have hrows := (Engine.new ⟨1, 1, none⟩ Host.counting 0 .congruence).rendersUnshuffled_of_texts
    scope hsource hfetch
  have hgenerator : s.engine.world.generator ≠ .congruence 7 := by
    -- the two shuffle a list in different ways
    let shown (g : Generator) := (g.shuffle [.null, .bool true, .bool false]).1.map Value.display
    exact ne_of_apply_ne shown (by decide +kernel)
  refine ⟨by decide +kernel, by decide +kernel, hgenerator, by decide +kernel, by decide +kernel,
    ?_⟩
  exact Session.render_after hhost hsteps hscope hrows

end Stencil
