import Stencil.Proofs.Effects
import Stencil.Render.Template

/-!
# Calls

The evaluator calls itself: for the body of a command, for the rounds of a loop, for a reference in
the index of another one, and for a template inside a template.  Here a call is a piece of data, and
what the evaluator does up to its next call is code in which calls are not yet carried out.  Nothing
in the code bounds how deep calls go or how many of them there are.

* `Frame`           where a call stands: how many templates it is inside of, the paths being loaded;
* `Task`            what a call evaluates;
* `Call`            a task in a frame;
* `Code`            acts on the world, and calls;
* `Code.denote`     what code does if the calls in it do what is given;
* `Code.Within`     each call that code may make, and each problem that it may note, is as given.
-/

namespace Stencil

/-! ## calls -/

/-- where a call stands -/
structure Frame where
  depth : Nat
  loading : List Text

/-- where a call stands as against the one that makes it -/
inductive Shift
  | here
  | inTemplate
  | inLoad (path : Text)

def Frame.shift (f : Frame) : Shift → Frame
  | .here => f
  | .inTemplate => { f with depth := f.depth + 1 }
  | .inLoad path => { f with loading := path :: f.loading }

/-- what stays the same in all rounds of a `for` -/
structure Counting where
  name : Text
  comparison : Comparison
  bound : Text
  increments : List Increment
  body : List Node

/-- what is evaluated, and the type of its value; the rounds of a `for` that were taken are counted
upwards -/
inductive Task : Type → Type
  | reference (r : Reference) (scope : Scope) : Task Value
  | interpret (text : Text) (f : Format) (scope : Scope) : Task Value
  | load (path : Text) (f : Format) (scope : Scope) : Task Value
  | template (source : Text) (scope : Scope) : Task (Option Text)
  | nodes (nodes : List Node) (scope : Scope) : Task (List Text × Scope)
  | rounds (c : Counting) (taken : Nat) (scope : Scope) : Task (List Text × Scope)
  | round (c : Counting) (taken : Nat) (scope : Scope) : Task (List Text × Scope)

structure Call where
  {α : Type}
  frame : Frame
  task : Task α

/-! ## code -/

inductive Code (σ α : Type) : Type 1
  | ret (a : α)
  | act {β : Type} (x : Run σ β) (next : β → Code σ α)
  | call {β : Type} (s : Shift) (t : Task β) (next : β → Code σ α)

namespace Code

variable {σ α β : Type}

def bind : Code σ α → (α → Code σ β) → Code σ β
  | ret a, f => f a
  | act x next, f => act x fun b => (next b).bind f
  | call s t next, f => call s t fun b => (next b).bind f

instance : Monad (Code σ) where
  pure := ret
  bind := bind

def lift (x : Run σ α) : Code σ α := act x ret

def ask (s : Shift) (t : Task α) : Code σ α := call s t ret

/-! ### what code does -/

/-- what code does if each call in it does what `run` says -/
def denote (run : {β : Type} → Shift → Task β → Run σ β) : Code σ α → Run σ α
  | ret a => pure a
  | act x next => x >>= fun b => (next b).denote run
  | call s t next => run s t >>= fun b => (next b).denote run

section
variable (run : {β : Type} → Shift → Task β → Run σ β)

theorem denote_pure (a : α) : (pure a : Code σ α).denote run = pure a := rfl

theorem denote_bind (x : Code σ α) (f : α → Code σ β) :
    (x >>= f).denote run = x.denote run >>= fun a => (f a).denote run := by
  change (x.bind f).denote run = _
  induction x with
  | ret a => rw [bind, denote, pure_bind]
  | act x next ih =>
    rw [bind, denote, denote, bind_assoc]
    exact congrArg (x >>= ·) (funext ih)
  | call s t next ih =>
    rw [bind, denote, denote, bind_assoc]
    exact congrArg (run s t >>= ·) (funext ih)

theorem denote_lift (x : Run σ α) : (lift x).denote run = x := bind_pure x

theorem denote_ask (s : Shift) (t : Task α) : (ask s t).denote run = run s t := bind_pure _

end

/-! ### what code may call -/

/-- each call that code in the frame `f` may make has the property `P`, and each problem that it may
note itself has the property `Q`; of the value of a call nothing is known -/
def Within (f : Frame) (P : Call → Prop) (Q : Problem → Prop) : Code σ α → Prop
  | ret _ => True
  | act x next => x.Notes Q ∧ ∀ w, (next (x w).value).Within f P Q
  | call s t next => P ⟨f.shift s, t⟩ ∧ ∀ b, (next b).Within f P Q

namespace Within

variable {f : Frame} {P : Call → Prop} {Q : Problem → Prop}

theorem pure (a : α) : (pure a : Code σ α).Within f P Q := trivial

theorem bind {x : Code σ α} {g : α → Code σ β} (hx : x.Within f P Q)
    (hg : ∀ a, (g a).Within f P Q) : (x >>= g).Within f P Q := by
  change (x.bind g).Within f P Q
  induction x with
  | ret a => exact hg a
  | act x next ih => exact ⟨hx.1, fun w => ih _ (hx.2 w)⟩
  | call s t next ih => exact ⟨hx.1, fun b => ih b (hx.2 b)⟩

theorem lift {x : Run σ α} (h : x.Notes Q) : (lift x).Within f P Q :=
  ⟨h, fun _ => trivial⟩

theorem lift_bind {x : Run σ α} {g : α → Code σ β} (hx : x.Notes Q)
    (hg : ∀ w, (g (x w).value).Within f P Q) : (Code.lift x >>= g).Within f P Q := ⟨hx, hg⟩

theorem ask {s : Shift} {t : Task α} (h : P ⟨f.shift s, t⟩) :
    (ask s t : Code σ α).Within f P Q := ⟨h, fun _ => trivial⟩

theorem mono {P' : Call → Prop} {Q' : Problem → Prop} {x : Code σ α} (h : x.Within f P Q)
    (hP : ∀ c, P c → P' c) (hQ : ∀ p, Q p → Q' p) : x.Within f P' Q' := by
  induction x with
  | ret a => trivial
  | act x next ih => exact ⟨fun w p hp => hQ p (h.1 w p hp), fun w => ih _ (h.2 w)⟩
  | call s t next ih => exact ⟨hP _ h.1, fun b => ih b (h.2 b)⟩

end Within

end Code

end Stencil
