import Stencil.Log
import Stencil.Render.Template

/-!
# Engines

An engine keeps its options, its host, the world and the problems noted so far from one call to the
next.

* `Engine`                   the state between two calls;
* `Engine.new`               an engine on which nothing was called yet;
* `Engine.run`               the engine after a run;
* `Engine.parse`             a template as a tree;
* `Engine.render`            a template rendered in a scope;
* `Engine.renderFile`        a template fetched and rendered;
* `Engine.substitute`, `Engine.evaluate`   a line with its references replaced, one reference;
* `Engine.insertFile`, `Engine.insertRenderedFile`   a text put into a sink;
* `Engine.takeProblems`      the problems noted so far, which are forgotten.
-/

namespace Stencil

/-- finished texts under the names of their destinations -/
abbrev Sink := Table Text

/-- the state of an engine between two calls -/
structure Engine (σ : Type) : Type 1 where
  options : Options
  host : Host σ
  world : World σ
  log : Log

namespace Engine

variable {σ α : Type}

def new (options : Options) (host : Host σ) (state : σ) (seeding : Seeding) : Engine σ :=
  ⟨options, host, ⟨state, seeding.generator options.seed⟩, .empty⟩

def run (e : Engine σ) (x : Run σ α) : α × Engine σ :=
  let r := x e.world
  (r.value, { e with world := r.world, log := e.log.add r.problems })

/-- the setting in which the engine renders templates -/
def setting (e : Engine σ) : Setting σ := .top e.options e.host []

def parse (e : Engine σ) (source : Text) : List Node × Engine σ :=
  let t := Template.read source
  e.run do
    .noteAll t.problems
    pure t.nodes

/-- the output of a template, and the scope after it -/
def render (e : Engine σ) (source : Text) (scope : Scope) : (Text × Scope) × Engine σ :=
  e.run (e.setting.renderSource source scope)

theorem parse_eq (e : Engine σ) (source : Text) : e.parse source =
    ((Template.read source).nodes, { e with log := e.log.add (Template.read source).problems }) := by
  have h := Run.noteAll_pure (Template.read source).problems (Template.read source).nodes e.world
  exact congrArg (fun r : Result σ (List Node) =>
    (r.value, ({ e with world := r.world, log := e.log.add r.problems } : Engine σ))) h

/-- rendering a template notes the problems of reading it, and then those of rendering its nodes -/
theorem render_eq (e : Engine σ) (source : Text) (scope : Scope) :
    e.render source scope =
      let r := e.setting.renderNodes (Template.read source).nodes scope e.world
      ((Text.joinLines r.value.1, r.value.2),
        { e with
          world := r.world
          log := e.log.add ((Template.read source).problems ++ r.problems) }) := by
  show (_, { e with world := _, log := e.log.add (_ ++ (_ ++ [])) }) = _
  rw [List.append_nil]
  rfl

def fetch (e : Engine σ) (path : Text) : Except Failure Text × Engine σ :=
  e.run (e.setting.fetch path)

/-- the output of a template that is fetched, and the scope after it; the template cannot load its
own path -/
def renderFile (e : Engine σ) (path : Text) (scope : Scope) :
    Except Failure (Text × Scope) × Engine σ :=
  match e.fetch path with
  | (.error f, e) => (.error f, e)
  | (.ok source, e) =>
    let (r, e) := e.run ((Setting.top e.options e.host [path]).renderSource source scope)
    (.ok r, e)

def substitute (e : Engine σ) (line : Text) (scope : Scope) : Text × Engine σ :=
  e.run (e.setting.substitute line scope)

def evaluate (e : Engine σ) (r : Reference) (scope : Scope) : Value × Engine σ :=
  e.run (e.setting.evaluate r scope)

def insertText (destination text : Text) (sink : Sink) : Sink := sink.insert destination text

def insertFile (e : Engine σ) (path destination : Text) (sink : Sink) :
    Except Failure Sink × Engine σ :=
  match e.fetch path with
  | (.error f, e) => (.error f, e)
  | (.ok text, e) => (.ok (insertText destination text sink), e)

/-- a template fetched, rendered and put into a sink, and the scope after it -/
def insertRenderedFile (e : Engine σ) (path destination : Text) (scope : Scope) (sink : Sink) :
    Except Failure (Sink × Scope) × Engine σ :=
  match e.renderFile path scope with
  | (.error f, e) => (.error f, e)
  | (.ok (text, scope), e) => (.ok (insertText destination text sink, scope), e)

def takeProblems (e : Engine σ) : List Problem × Engine σ :=
  let (ps, log) := e.log.take
  (ps, { e with log := log })

end Engine

end Stencil
