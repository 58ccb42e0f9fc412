import Stencil.Reference.Segment
import Stencil.Render.Setting
import Stencil.Signature
import Stencil.Text.Case

/-!
# The value of a reference

A reference names a variable, or spells a number or a text; its modifiers are applied to the value
from left to right. The index of `at(…)` may itself be a reference, which is shorter than the one
it stands in.

* `Reference.signature`       what may stand behind the name;
* `Setting.baseValue`         the value before any modifier is applied;
* `Setting.pickItem`, `Setting.pickEntry`   the item of a list, the entry of a map;
* `Setting.apply`             the value after one modifier;
* `Setting.evaluate`          the value of a reference;
* `Setting.resolve`           the value of a reference in text form, or of a variable;
* `Setting.substitute`        a line with its references replaced.
-/

namespace Stencil

/-- what may stand behind the name of a reference: a type, and modifiers -/
def Reference.signature : Signature where
  least := 0
  most := 1
  keywords := ["call", "at", "uppercase", "lowercase", "capitalize", "capitalize-first", "trim",
    "parse", "load"].map String.toList

def startsReference : Text → Bool
  | [] => false
  | c :: _ => c == '#'

/-- a text between two quotation marks or two apostrophes, without them; any other text as it is -/
def unquote (t : Text) : Text :=
  match t with
  | [] => []
  | c :: r => if c = '\"' ∨ c = '\'' then (Text.dropEnd? c r).getD t else t

/-- the value of an index that is no reference -/
def literalIndex (t : Text) : Value :=
  match Number.read? t with
  | some n => .number n
  | none => .string (unquote t)

namespace Setting

variable {σ : Type}

/-! ## one step -/

/-- the value of a reference before any modifier is applied: a variable, or with the type `number`
or `string` the name itself -/
def baseValue (name : Text) (type : Option Text) (scope : Scope) : Run σ Value :=
  match type with
  | none => lookup name scope
  | some type =>
    if type = "var".toList then lookup name scope
    else if type = "string".toList then pure (.string name)
    else if type = "number".toList then
      match Number.read? name.trim with
      | some n => pure (.number n)
      | none => do
        .note (.nameNotNumber name)
        pure (.number .zero)
    else do
      .note (.unknownType type (.reference name))
      lookup name scope

/-- the item of a list at an index; an index that is not whole is rounded -/
def pickItem (s : Subject) (items : List Value) (expr : Text) (index : Value) : Run σ Value :=
  match index.toNumber?.filter Number.isFinite with
  | none => do
    .note (.indexNotNumber expr s)
    pure .null
  | some n => do
    let rounded := n.roundAway
    if !rounded.eq n then .note (.indexNotWhole n s rounded)
    match rounded.toInt? with
    | some (.ofNat k) =>
      match items[k]? with
      | some v => pure v
      | none => do
        .note (.indexOutOfRange rounded s items.length)
        pure .null
    | _ => do
      .note (.indexOutOfRange rounded s items.length)
      pure .null

/-- the entry of a map under the text of an index -/
def pickEntry (s : Subject) (entries : Table Value) (index : Value) : Run σ Value :=
  match entries.get? index.display with
  | some v => pure v
  | none => do
    .note (.noKey s index.display)
    pure .null

/-- a modifier that does not apply to the kind of a value leaves it as it is -/
def leave (s : Subject) (m : Modifier) (v : Value) : Run σ Value := do
  .note (.doesNotApply m s v.typeName)
  pure v

def applyToText (set : Setting σ) (s : Subject) (m : Modifier) (t : Text) (scope : Scope) :
    Run σ Value :=
  match m with
  | .uppercase => pure (.string t.toUpper)
  | .lowercase => pure (.string t.toLower)
  | .capitalize => pure (.string t.capitalizeWords)
  | .capitalizeFirst => pure (.string t.capitalizeFirst)
  | .trim => pure (.string t.trim)
  | .parse f => set.interpret t f scope
  | .load f => set.load t f scope
  | m => leave s m (.string t)

def apply (set : Setting σ) (s : Subject) (m : Modifier) (index : Run σ Value) (v : Value)
    (scope : Scope) : Run σ Value :=
  match v, m with
  | .string t, m => set.applyToText s m t scope
  | .list items, .index expr => do pickItem s items expr (← index)
  | .map entries, .index _ => do pickEntry s entries (← index)
  | .callable f, .call =>
    if f.arity = 0 then set.invoke f
    else do
      .note (.callableWithParameters s f.arity)
      pure .null
  | v, m => leave s m v

/-! ## whole references -/

mutual

/-- the value of a reference in text form, or of the variable that the text names -/
def resolve (set : Setting σ) (text : Text) (scope : Scope) : Run σ Value :=
  if startsReference text then
    match _ : Reference.read? text with
    | some r => evaluate set r scope
    | none => do
      .note (.malformedReference text)
      pure .null
  else lookup text scope
termination_by 2 * text.length
decreasing_by
  rename_i h
  have hl := Reference.size_of_read? h
  omega

def evaluate (set : Setting σ) (r : Reference) (scope : Scope) : Run σ Value := do
  .noteAll (Reference.signature.check (.reference r.name) r.specifiers).problems
  let v ← baseValue r.name
    (Reference.signature.check (.reference r.name) r.specifiers).params.head? scope
  applyAll set (.reference r.name)
    (Reference.signature.check (.reference r.name) r.specifiers).modifiers v scope
termination_by 2 * r.size + 2
decreasing_by
  have h : _ ≤ r.size :=
    Signature.indexSize_check Reference.signature (.reference r.name) r.specifiers
  omega

def applyAll (set : Setting σ) (s : Subject) (ms : List Modifier) (v : Value) (scope : Scope) :
    Run σ Value :=
  match ms with
  | [] => pure v
  | m :: ms =>
    if v.isNull then do
      .note (.nullBefore s m)
      pure v
    else do
      let w ← set.apply s m (indexOf set m scope) v scope
      applyAll set s ms w scope
termination_by 2 * Signature.indexSize ms + 1
decreasing_by
  · rw [Signature.indexSize_cons]
    omega
  · have h := m.one_le_size
    rw [Signature.indexSize_cons]
    omega

def indexOf (set : Setting σ) (m : Modifier) (scope : Scope) : Run σ Value :=
  match m with
  | .index expr => evaluateIndex set expr scope
  | _ => pure .null
termination_by 2 * m.size
decreasing_by
  show 2 * expr.length + 1 < 2 * (expr.length + 1)
  omega

def evaluateIndex (set : Setting σ) (expr : Text) (scope : Scope) : Run σ Value :=
  if startsReference expr.trim then resolve set expr.trim scope
  else pure (literalIndex expr.trim)
termination_by 2 * expr.length + 1
decreasing_by
  have h := Text.length_trim_le expr
  omega

end

/-! ## lines -/

def renderSegment (set : Setting σ) (scope : Scope) : Segment → Run σ Text
  | .literal t => pure t
  | .reference r => do return (← set.evaluate r scope).display
  | .empty => do
    .note .emptyReference
    pure []
  | .unclosed rest => do
    .note (.unclosedReference rest)
    pure []

def renderSegments (set : Setting σ) (scope : Scope) : List Segment → Run σ Text
  | [] => pure []
  | s :: ss => do
    let t ← set.renderSegment scope s
    let u ← renderSegments set scope ss
    pure (t ++ u)

/-- a line with its references replaced by the values they have -/
def substitute (set : Setting σ) (line : Text) (scope : Scope) : Run σ Text :=
  set.renderSegments scope (Segment.scan line)

end Setting

end Stencil
