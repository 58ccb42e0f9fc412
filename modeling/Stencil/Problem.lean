import Stencil.Failure
import Stencil.Modifier
import Stencil.Number.Shortest

/-!
# Problems

Rendering never stops at a problem; it notes the problem and goes on.

* `Subject`            the command or variable that a problem is about;
* `Problem`            what can be noted, one constructor for each cause;
* `Problem.severity`   whether it is a warning or an error;
* `Problem.message`    its wording;
* `Problem.text`       the wording with the severity in front;
* `Problem.count`      how many problems of a list have a severity.
-/

namespace Stencil

/-- how bad a problem is -/
inductive Severity
  | warning
  | error
deriving DecidableEq, Repr

/-- what a problem is about -/
inductive Subject
  | command (name : Text)
  | reference (name : Text)
  | named (text : Text)
deriving DecidableEq, Repr

/-- how a subject is named in messages -/
def Subject.shown : Subject → String
  | command name => s!"`{name.shown}`"
  | reference name => s!"variable `{name.shown}`"
  | named text => text.shown

/-- what can be noted while a template is read and rendered -/
inductive Problem
  -- lines and blocks
  | noInlineEnd (line : Text)
  | emptyCommand (line : Text)
  | strayEnd
  | unclosedCommand (name : Text)
  -- arguments
  | modifierNotAllowed (m : Modifier) (s : Subject)
  | malformedModifier (spec : Text) (s : Subject)
  | tooManyParameters (s : Subject) (most : Nat) (surplus : List Text)
  | notEnoughParameters (s : Subject) (least : Nat) (given : Nat)
  -- commands
  | unknownCommand (name : Text)
  | unknownComparison (op : Text)
  | loopStopped (name : Text) (rounds : Nat)
  | startNotNumber (name : Text) (raw : Text)
  | malformedIncrement (entry : Text)
  | incrementNotNumber (name : Text)
  | loopVariableNotNumber (name : Text)
  | numberExpected (arg : Text)
  | listExpected (source : Text) (kind : String)
  | severalOrders (o : Order)
  | emptyName
  | bodyNotNumber (name : Text) (body : Text)
  | unknownKind (kind : Text) (name : Text)
  -- references
  | emptyReference
  | unclosedReference (rest : Text)
  | unknownType (type : Text) (s : Subject)
  | nameNotNumber (name : Text)
  | nullBefore (s : Subject) (m : Modifier)
  | undefinedVariable (name : Text)
  | malformedReference (arg : Text)
  | noKey (s : Subject) (key : Text)
  | callableWithParameters (s : Subject) (arity : Nat)
  | doesNotApply (m : Modifier) (s : Subject) (kind : String)
  | undecodable (f : Failure)
  | loadCycle (path : Text)
  | unloadable (path : Text) (f : Failure)
  | depthExceeded (most : Nat)
  | indexNotNumber (expr : Text) (s : Subject)
  | indexNotWhole (given : Number) (s : Subject) (rounded : Number)
  | indexOutOfRange (rounded : Number) (s : Subject) (length : Nat)
  -- what the host adds
  | note (severity : Severity) (text : Text)
deriving DecidableEq, Repr

namespace Problem

def severity : Problem → Severity
  | unknownCommand _ => .error
  | note s _ => s
  | _ => .warning

def message : Problem → String
  | noInlineEnd line =>
    s!"inline command `{line.shown}` does not end in `$end$`, keeping it as text"
  | emptyCommand line => s!"empty command `{line.shown}`, treating the line as text"
  | strayEnd => "`end` without an open command, ignoring it"
  | unclosedCommand name =>
    s!"unclosed command `{name.shown}`, block implicitly closed at end of input"
  | modifierNotAllowed m s =>
    s!"modifier `{m.display.shown}` is not allowed on {s.shown}, ignoring it"
  | malformedModifier spec s => s!"malformed modifier `{spec.shown}` on {s.shown}, ignoring it"
  | tooManyParameters s most surplus =>
    s!"too many parameters passed to {s.shown} (at most {most}), " ++
      s!"ignoring `{(Text.joinWords surplus).shown}`"
  | notEnoughParameters s least given =>
    s!"not enough parameters passed to {s.shown}: expected at least {least}, got {given}"
  | unknownCommand name => s!"unknown command `{name.shown}`, skipping it"
  | unknownComparison op => s!"unknown comparison `{op.shown}` in `for`, the loop never runs"
  | loopStopped name rounds => s!"`for` loop over `{name.shown}` stopped after {rounds} iterations"
  | startNotNumber name raw =>
    s!"loop variable `{name.shown}` starts at non-number `{raw.shown}`, using 0"
  | malformedIncrement entry =>
    s!"malformed increment `{entry.shown}` in `for`, expected `name+=delta`"
  | incrementNotNumber name => s!"increment of `{name.shown}` is not a number, skipping it"
  | loopVariableNotNumber name =>
    s!"loop variable `{name.shown}` is not a number, cannot increment it"
  | numberExpected arg => s!"expected a number or a #reference#, got `{arg.shown}`"
  | listExpected source kind =>
    s!"`foreach` needs a list but `{source.shown}` is a {kind}, iterating nothing"
  | severalOrders o =>
    s!"`foreach` takes a single ordering, using `{o.keyword.shown}` and ignoring the rest"
  | emptyName => "`define` with an empty name, skipping it"
  | bodyNotNumber name body =>
    s!"`define {name.shown} number` body `{body.shown}` is not a number, using 0"
  | unknownKind kind name =>
    s!"unknown type `{kind.shown}` for `define {name.shown}`, using string"
  | emptyReference => "empty variable reference `##`"
  | unclosedReference rest => s!"unclosed variable reference `#{rest.shown}`, dropping it"
  | unknownType type s =>
    s!"unknown type `{type.shown}` for {s.shown}, looking it up as a variable"
  | nameNotNumber name => s!"`{name.shown}` is not a number, using 0"
  | nullBefore s m =>
    s!"{s.shown} is null, skipping `{m.display.shown}` and the modifiers after it"
  | undefinedVariable name => s!"variable `{name.shown}` is undefined"
  | malformedReference arg => s!"malformed variable reference `{arg.shown}`"
  | noKey s key => s!"{s.shown} has no key `{key.shown}`"
  | callableWithParameters s arity =>
    s!"{s.shown} takes {arity} parameters and cannot be called from a template"
  | doesNotApply m s kind =>
    s!"`{m.display.shown}` does not apply to {s.shown} of type {kind}, skipping it"
  | undecodable f => s!"cannot parse JSON: {f.message}"
  | loadCycle path =>
    s!"`{path.shown}` is already being loaded, refusing to load it recursively"
  | unloadable path f => s!"cannot load `{path.shown}`: {f.message}"
  | depthExceeded most =>
    s!"maximum template depth of {most} exceeded, not rendering nested template"
  | indexNotNumber expr s => s!"index `{expr.shown}` of {s.shown} is not a number"
  | indexNotWhole given s rounded =>
    s!"index {given.display.shown} of {s.shown} is not an integer, " ++
      s!"rounding to {rounded.display.shown}"
  | indexOutOfRange rounded s length =>
    s!"index {rounded.display.shown} is out of range for {s.shown} with {length} elements"
  | note _ text => text.shown

def text (p : Problem) : String :=
  match p.severity with
  | .warning => s!"warning: {p.message}"
  | .error => s!"error: {p.message}"

def count (s : Severity) (ps : List Problem) : Nat := ps.countP fun p => p.severity = s

end Problem

end Stencil
