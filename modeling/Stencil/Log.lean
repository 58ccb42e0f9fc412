import Stencil.Problem

/-!
# Logs

* `Log`          the problems noted so far, in the order in which they were noted;
* `Log.add`      some more problems;
* `Log.take`     all problems, and the empty log.
-/

namespace Stencil

/-- the problems noted so far -/
structure Log where
  problems : List Problem
deriving DecidableEq, Repr

namespace Log

def empty : Log := ⟨[]⟩

def add (l : Log) (ps : List Problem) : Log := ⟨l.problems ++ ps⟩

theorem add_nil (l : Log) : l.add [] = l := by
  rw [add, List.append_nil]

def size (l : Log) : Nat := l.problems.length

def count (s : Severity) (l : Log) : Nat := Problem.count s l.problems

def take (l : Log) : List Problem × Log := (l.problems, empty)

end Log

end Stencil
