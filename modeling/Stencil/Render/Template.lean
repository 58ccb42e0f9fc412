import Stencil.Render.Command

/-!
# Rendering a template

* `Setting.renderNode`     the outcome of a node;
* `Setting.renderNodes`    the pieces of output of some nodes, and the scope after them;
* `Setting.renderSource`   a template in text form;
* `Setting.nestedAt`       a template inside others, with so many more allowed inside it;
* `Setting.top`            the setting of a template that is inside no other.
-/

namespace Stencil

/-- a template in text form as a tree, with the problems noted on reading it -/
structure Template where
  nodes : List Node
  problems : List Problem

def Template.read (source : Text) : Template :=
  let levels := Levels.ofTokens (Token.ofSource source)
  ⟨levels.nodes, Token.problemsOf source ++ levels.problems⟩

namespace Setting

variable {σ : Type}

mutual

def renderNode (set : Setting σ) (node : Node) (scope : Scope) : Run σ Outcome :=
  match node with
  | .text line => do
    let t ← set.substitute line scope
    pure ⟨some t, none, scope⟩
  | .command head rawBody body => set.command head rawBody (renderNodes set body) scope

def renderNodes (set : Setting σ) (nodes : List Node) (scope : Scope) :
    Run σ (List Text × Scope) :=
  match nodes with
  | [] => pure ([], scope)
  | node :: nodes => do
    let o ← renderNode set node scope
    let rest ← renderNodes set nodes o.bound
    pure (o.output.toList ++ rest.1, rest.2)

end

/-- the output of a template in text form, and the scope after it -/
def renderSource (set : Setting σ) (source : Text) (scope : Scope) : Run σ (Text × Scope) := do
  let template := Template.read source
  .noteAll template.problems
  let r ← set.renderNodes template.nodes scope
  pure (Text.joinLines r.1, r.2)

/-- the output of a template that is inside others while some paths are being loaded; `depth` more
templates are allowed, and without any left it is refused -/
def nestedAt (options : Options) (host : Host σ) (depth : Nat) (loading : List Text)
    (source : Text) (scope : Scope) : Run σ (Option Text) :=
  match depth with
  | 0 => do
    .note (.depthExceeded options.maxDepth)
    pure none
  | depth + 1 => do
    let r ← renderSource ⟨options, host, loading, nestedAt options host depth⟩ source scope
    pure (some r.1)

def top (options : Options) (host : Host σ) (loading : List Text) : Setting σ :=
  ⟨options, host, loading, nestedAt options host options.maxDepth⟩

end Setting

end Stencil
