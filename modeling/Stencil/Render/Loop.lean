import Stencil.Render.Reference
import Stencil.Value.Comparison

/-!
# The parts of a counting loop

`for` starts some variables, checks a condition before each round, and increments some variables
after it.

* `entriesOf`                the entries of a list separated by commas;
* `Increment`                a variable and what is added to it;
* `incrementsOf`, `incrementProblems`   the increments that a text spells, and what is noted;
* `Setting.operand`          a number, or a reference in text form;
* `Setting.startAll`         the scope with the loop variables started;
* `Setting.conditionHolds`   the condition of a loop;
* `Setting.incrementAll`     the scope after the increments.
-/

namespace Stencil

def entriesOf (t : Text) : List Text := (List.splitOn ',' t).filter fun e => e.trim ≠ []

structure Increment where
  name : Text
  delta : Text
deriving DecidableEq, Repr

/-- the increment that an entry spells -/
def Increment.ofEntry? (entry : Text) : Option Increment :=
  match Text.cutAtPair '+' '=' entry with
  | some (name, delta) => if name.trim = [] then none else some ⟨name.trim, delta.trim⟩
  | none => none

def incrementsOf (t : Text) : List Increment := (entriesOf t).filterMap Increment.ofEntry?

/-- one problem for each entry that spells no increment -/
def incrementProblems (t : Text) : List Problem :=
  ((entriesOf t).filter fun e => (Increment.ofEntry? e).isNone).map .malformedIncrement

namespace Setting

variable {σ : Type}

def operand (set : Setting σ) (arg : Text) (scope : Scope) : Run σ Value :=
  if startsReference arg.trim then set.resolve arg.trim scope
  else
    match Number.read? arg.trim with
    | some n => pure (.number n)
    | none => do
      .note (.numberExpected arg.trim)
      pure .null

def startValue (set : Setting σ) (raw : Text) (scope : Scope) : Run σ Value :=
  if startsReference raw then set.resolve raw scope else pure (.string raw)

/-- the scope with the variable of an entry started, at zero if the entry names no number -/
def start (set : Setting σ) (entry : Text) (scope : Scope) : Run σ Scope :=
  match Text.cutAt '=' entry with
  | none => pure (scope.insert entry.trim (.number .zero))
  | some (name, raw) => do
    match (← set.startValue raw.trim scope).toNumber? with
    | some n => pure (scope.insert name.trim (.number n))
    | none =>
      .note (.startNotNumber name.trim raw.trim)
      pure (scope.insert name.trim (.number .zero))

def startAll (set : Setting σ) : List Text → Scope → Run σ Scope
  | [], scope => pure scope
  | e :: es, scope => do startAll set es (← set.start e scope)

def conditionHolds (set : Setting σ) (name : Text) (c : Comparison) (bound : Text)
    (scope : Scope) : Run σ Bool := do
  let l ← lookup name scope
  let r ← set.operand bound scope
  pure (c.holds l r)

/-- the scope after an increment; nothing changes if one of the two is no number -/
def increment (set : Setting σ) (i : Increment) (scope : Scope) : Run σ Scope := do
  match (← set.operand i.delta scope).toNumber? with
  | none =>
    .note (.incrementNotNumber i.name)
    pure scope
  | some d =>
    match (scope.get? i.name).bind Value.toNumber? with
    | some n => pure (scope.insert i.name (.number (n.add d)))
    | none =>
      .note (.loopVariableNotNumber i.name)
      pure scope

def incrementAll (set : Setting σ) : List Increment → Scope → Run σ Scope
  | [], scope => pure scope
  | i :: is, scope => do incrementAll set is (← set.increment i scope)

end Setting

end Stencil
