import Stencil.Json.Fault

/-!
# Failures

* `Failure`           why a text could not be fetched or decoded;
* `Failure.message`   its wording.
-/

namespace Stencil

/-- why a text could not be fetched or decoded -/
inductive Failure
  | notFound (path : Text)
  | unreadable (path : Text) (reason : String)
  | badJson (fault : Json.Fault)
  | notAnObject
deriving DecidableEq, Repr

def Failure.message : Failure → String
  | notFound path => s!"not found: {path.shown}"
  | unreadable path reason => s!"failed to read {path.shown}: {reason}"
  | badJson fault => s!"invalid JSON: {fault.message}"
  | notAnObject => "expected a JSON object at the top level"

end Stencil
