import Stencil.Proofs.Tables
import Stencil.Scope

/-!
# Values without host functions

A template cannot make a host function: what it computes from values that hold none holds none.  The
one thing that is not plain to see is that no value read from JSON holds one.

* `Value.Passive v`           no host function stands in `v`, however deep;
* `Scope.Passive scope`       nor in the variables of `scope`;
* `Scope.Passive.insert`, `Scope.Passive.of_get?`   a variable that is set, one that is found;
* `Json.Next.Passive`         nor in what the machine that reads JSON holds after a step;
* `Value.passive_of_decode?`  a value that was read from JSON.
-/

namespace Stencil

/-- a value in which no host function stands -/
inductive Value.Passive : Value → Prop
  | null : Passive .null
  | bool (b : Bool) : Passive (.bool b)
  | number (n : Number) : Passive (.number n)
  | string (t : Text) : Passive (.string t)
  | list {items : List Value} (h : ∀ v ∈ items, Passive v) : Passive (.list items)
  | map {entries : List (Text × Value)} (h : ∀ e ∈ entries, Passive e.2) : Passive (.map entries)

def Scope.Passive (scope : Scope) : Prop := ∀ e ∈ scope, e.2.Passive

namespace Scope.Passive

variable {scope : Scope}

theorem nil : Scope.Passive [] := fun _ he => absurd he List.not_mem_nil

theorem of_get? (h : scope.Passive) {name : Text} {v : Value} (hv : scope.get? name = some v) :
    v.Passive := h (name, v) (Table.mem_of_get? hv)

theorem insert (h : scope.Passive) (name : Text) {v : Value} (hv : v.Passive) :
    Scope.Passive (scope.insert name v) := by
  intro e he
  rcases Table.eq_or_mem_of_mem_insert he with rfl | he
  · exact hv
  · exact h e he

end Scope.Passive

/-! ## values read from JSON -/

namespace Json

def Frame.Passive : Frame → Prop
  | .items done => ∀ v ∈ done, v.Passive
  | .entries done _ => Scope.Passive done

def Phase.Passive : Phase → Prop
  | .expect => True
  | .close v => v.Passive

def Next.Passive : Next → Prop
  | .halt r => ∀ v, r = .ok v → v.Passive
  | .go phase stack _ => phase.Passive ∧ ∀ f ∈ stack, f.Passive

theorem passive_fail (cause : Cause) (rest : Text) (past : Nat) :
    (fail cause rest past).Passive := by
  intro v hv
  cases hv

theorem passive_error (s : Stop) : (Next.halt (.error s)).Passive := by
  intro v hv
  cases hv

section
variable {stack : List Frame} (hstack : ∀ f ∈ stack, f.Passive)
include hstack

theorem passive_closeWith {α : Type} (x : Except Stop α) {g : α → Value × Text}
    (hg : ∀ a, (g a).1.Passive) : (closeWith stack (x.map g)).Passive := by
  cases x with
  | error s => exact passive_error s
  | ok a => exact ⟨hg a, hstack⟩

theorem passive_open {f : Frame} (hf : f.Passive) (rest : Text) :
    (Next.go .expect (f :: stack) rest).Passive :=
  ⟨trivial, List.forall_mem_cons.mpr ⟨hf, hstack⟩⟩

theorem passive_stepExpect (t : Text) : (stepExpect stack t).Passive := by
  unfold stepExpect
  split
  · exact passive_fail _ _ _
  split
  · exact passive_closeWith hstack _ fun _ => .null
  split
  · exact passive_closeWith hstack _ fun _ => .bool true
  split
  · exact passive_closeWith hstack _ fun _ => .bool false
  split
  · exact passive_closeWith hstack _ fun a => .string a.1
  split
  · split
    · exact passive_fail _ _ _
    split
    · exact passive_fail _ _ _
    · exact ⟨.list fun _ hv => absurd hv List.not_mem_nil, hstack⟩
    · exact passive_open hstack (f := .items []) (fun _ hv => absurd hv List.not_mem_nil) _
  split
  · split
    · exact passive_fail _ _ _
    split
    · exact passive_fail _ _ _
    · exact ⟨.map Scope.Passive.nil, hstack⟩
    · split
      · exact passive_error _
      · exact passive_open hstack (f := .entries [] _) Scope.Passive.nil _
    · exact passive_fail _ _ _
  split
  · exact passive_closeWith hstack _ fun a => .number a.1
  · exact passive_fail _ _ _

theorem passive_stepClose {v : Value} (hv : v.Passive) (t : Text) :
    (stepClose v stack t).Passive := by
  unfold stepClose
  split
  · split
    · rintro w ⟨⟩
      exact hv
    · exact passive_fail _ _ _
  · rename_i done stack
    obtain ⟨hdone, hrest⟩ := List.forall_mem_cons.mp hstack
    have hmore : ∀ w ∈ v :: done, w.Passive := List.forall_mem_cons.mpr ⟨hv, hdone⟩
    split
    · exact passive_fail _ _ _
    · exact ⟨.list fun w hw => hmore w (List.mem_reverse.mp hw), hrest⟩
    · split
      · exact passive_fail _ _ _
      · exact passive_fail _ _ _
      · exact passive_open hrest (f := .items (v :: done)) hmore _
    · exact passive_fail _ _ _
  · rename_i done key stack
    obtain ⟨hdone, hrest⟩ := List.forall_mem_cons.mp hstack
    have hmore : Scope.Passive (done.insert key v) := Scope.Passive.insert hdone key hv
    split
    · exact passive_fail _ _ _
    · exact ⟨.map hmore, hrest⟩
    · split
      · exact passive_fail _ _ _
      · exact passive_fail _ _ _
      · split
        · exact passive_error _
        · exact passive_open hrest (f := .entries (done.insert key v) _) hmore _
      · exact passive_fail _ _ _
    · exact passive_fail _ _ _

theorem passive_step {phase : Phase} (hphase : phase.Passive) (t : Text) :
    (step phase stack t).Passive := by
  cases phase with
  | expect => exact passive_stepExpect hstack _
  | close v => exact passive_stepClose hstack hphase _

end

theorem passive_run {phase : Phase} {stack : List Frame} {t : Text} {v : Value}
    (hphase : phase.Passive) (hstack : ∀ f ∈ stack, f.Passive) (h : run phase stack t = .ok v) :
    v.Passive := by
  have hstep := passive_step hstack hphase t
  fun_induction run phase stack t with
  | case1 phase stack t r hr =>
    rw [hr] at hstep
    exact hstep v h
  | case2 phase stack t p s r hgo ih =>
    rw [hgo] at hstep
    exact ih hstep.1 hstep.2 h (passive_step hstep.2 hstep.1 r)

end Json

theorem Value.passive_of_decode? {t : Text} {v : Value} (h : decode? t = .ok v) : v.Passive := by
  unfold decode? ofJson? at h
  cases hrun : Json.run .expect [] t with
  | error s =>
    rw [hrun] at h
    cases h
  | ok w =>
    rw [hrun] at h
    cases h
    have hphase : Json.Phase.expect.Passive := trivial
    exact Json.passive_run hphase (fun _ hf => absurd hf List.not_mem_nil) hrun

end Stencil
