import Stencil.Host.Basic
import Stencil.Run
import Stencil.Scope

/-!
# Settings

What stays the same while one template is rendered.

* `Options`            the bounds on rendering, and the seed of random orders;
* `Setting`            the options, the host, the paths being loaded, and how a template inside this
                       one is rendered;
* `Setting.fetch`      fetch a text through the host;
* `Setting.lookup`     the value of a variable;
* `Setting.interpret`  what a text means in a format;
* `Setting.load`       fetch a text and interpret it.
-/

namespace Stencil

/-- the bounds on rendering, and the seed of random orders -/
structure Options where
  maxDepth : Nat := 100
  maxRounds : Nat := 100000
  seed : Option Nat := none
deriving DecidableEq, Repr

/-- what stays the same while one template is rendered -/
structure Setting (σ : Type) where
  options : Options
  host : Host σ
  loading : List Text
  /-- render a template inside this one while some paths are being loaded; none if it is refused -/
  nested : List Text → Text → Scope → Run σ (Option Text)

namespace Setting

variable {σ : Type}

def fetch (set : Setting σ) (path : Text) : Run σ (Except Failure Text) :=
  .onHost (set.host.fetch path)

def invoke (set : Setting σ) (f : Callable) : Run σ Value := .onHost (set.host.invoke f.id)

def lookup (name : Text) (scope : Scope) : Run σ Value :=
  match scope.get? name with
  | some v => pure v
  | none => do
    .note (.undefinedVariable name)
    pure .null

/-- what a text means in a format; a template inside this one works on a copy of the scope -/
def interpret (set : Setting σ) (text : Text) (f : Format) (scope : Scope) : Run σ Value :=
  match f with
  | .template => do
    match ← set.nested set.loading text scope with
    | some output => pure (.string output)
    | none => pure .null
  | .markdownTemplate => do
    match ← set.nested set.loading text scope with
    | some output => pure (.string (set.host.markdown output))
    | none => pure .null
  | .markdown => pure (.string (set.host.markdown text))
  | .json =>
    match Value.decode? text with
    | .ok v => pure v
    | .error e => do
      .note (.undecodable e)
      pure .null
  | .text => pure (.string text)

/-- fetch a text and interpret it; a path is not loaded while it is being loaded -/
def load (set : Setting σ) (path : Text) (f : Format) (scope : Scope) : Run σ Value :=
  if set.loading.any (· = path) then do
    .note (.loadCycle path)
    pure .null
  else do
    match ← set.fetch path with
    | .error e =>
      .note (.unloadable path e)
      pure .null
    | .ok contents => interpret { set with loading := path :: set.loading } contents f scope

end Setting

end Stencil
