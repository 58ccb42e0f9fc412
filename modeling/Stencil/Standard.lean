import Stencil.Engine
import Stencil.Host.Callees
import Stencil.Host.Files
import Stencil.Markdown

/-!
# Standard hosts

Hosts whose state is the host functions and nothing else.

* `Host.ofFetch`       the host with a way to fetch texts and a way to render Markdown;
* `Host.ofFiles`       the host whose texts are held in memory;
* `Host.standard`      the host with the files of the system and the Markdown of this library;
* `Rendered`           an output, with the scope it leaves and the problems noted;
* `render`             a template rendered by a fresh engine on the standard host.
-/

namespace Stencil

namespace Host

def ofFetch (fetch : Text → Except Failure Text) (markdown : Text → Text) : Host Callees :=
  ⟨fun path fs => (fetch path, fs), markdown, Callees.invoke⟩

def ofFiles (files : Files) (markdown : Text → Text) : Host Callees :=
  ofFetch files.fetch markdown

def standard : Host Callees := ofFetch (Folder.fetch ⟨none, Folder.systemFiles⟩) Markdown.render

end Host

/-- an output, with the scope it leaves and the problems noted -/
structure Rendered where
  output : Text
  scope : Scope
  problems : List Problem

/-- a template rendered in a scope by a fresh engine on the standard host -/
def render (source : Text) (scope : Scope) (callees : Callees) (seeding : Seeding) : Rendered :=
  let ((output, scope), e) := (Engine.new {} .standard callees seeding).render source scope
  ⟨output, scope, e.log.problems⟩

end Stencil
