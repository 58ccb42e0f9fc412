import Stencil.Json.Reader
import Stencil.Failure
import Stencil.Value.Display

/-!
# Scopes

* `Scope`                 the variables that a template can see, a table of values;
* `Value.decode?`         the value that a JSON text spells, or the failure;
* `Scope.decode?`         the scope that a JSON text spells, which must be an object;
* `Scope.eq`              equality of scopes, value by value.
-/

namespace Stencil

/-- the variables that a template can see -/
abbrev Scope := Table Value

/-- the value that a JSON text spells -/
def Value.decode? (t : Text) : Except Failure Value :=
  match Value.ofJson? t with
  | .ok v => .ok v
  | .error f => .error (.badJson f)

namespace Scope

def decode? (t : Text) : Except Failure Scope :=
  match Value.decode? t with
  | .ok (.map entries) => .ok entries
  | .ok _ => .error .notAnObject
  | .error f => .error f

def eq (s t : Scope) : Bool := Value.eqEntries s t

end Scope

end Stencil
