import Stencil.Failure
import Stencil.Value.Basic

/-!
# Hosts

What a template reaches outside itself. A host may remember what it was asked, in a state `σ` that
rendering hands on but does not look into.

* `Host`        fetching texts, rendering Markdown, and calling host functions;
* `Host.bare`   the host without texts and functions.
-/

namespace Stencil

/-- fetching texts, rendering Markdown, and calling host functions by their identity -/
structure Host (σ : Type) where
  fetch : Text → σ → Except Failure Text × σ
  markdown : Text → Text
  invoke : Nat → σ → Value × σ

/-- the host without texts and functions, which takes Markdown as it is -/
def Host.bare : Host Unit :=
  ⟨fun path s => (.error (.notFound path), s), id, fun _ s => (.null, s)⟩

end Stencil
