import Stencil.Number.Nearest
import Stencil.Value.Basic

/-!
# Host functions

* `Callee`             a function that always gives one value, or a counter;
* `Callees`            functions, each known by its place;
* `Callees.add`        one more function, with its place;
* `Callees.invoke`     the value that a function gives, and the functions after the call.
-/

namespace Stencil

/-- a host function: one value for all calls, or a whole number that grows by one with each call;
the counter is exact, and a call gives the number nearest to it -/
inductive Callee
  | always (v : Value)
  | counter (next : Int)

/-- host functions, each known by its place -/
abbrev Callees := List Callee

namespace Callees

def add (fs : Callees) (f : Callee) : Nat × Callees := (fs.length, fs ++ [f])

def invoke (id : Nat) (fs : Callees) : Value × Callees :=
  match fs[id]? with
  | none => (.null, fs)
  | some (.always v) => (v, fs)
  | some (.counter n) => (.number (.nearest n), fs.set id (.counter (n + 1)))

end Callees

end Stencil
