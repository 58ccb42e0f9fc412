import Stencil.Proofs.Effects
import Stencil.Proofs.Unread

/-!
# Scopes that agree off a name

A text that cannot read a name has the same value in all scopes that agree on the other names, and
what a loop does to such scopes keeps them agreeing.

* `Scope.AgreeOff x s t`          the two scopes have the same values under all names but `x`;
* `Setting.apply_unread`          an unread modifier does not look at the scope;
* `Setting.evaluation_agree`      evaluating is the same in both, whatever form the text has;
* `Setting.startAll_inStep`, `Setting.incrementAll_inStep`   the loop variables stay in agreement.
-/

namespace Stencil

namespace Scope

/-- the same values under all names but one -/
def AgreeOff (x : Text) (s t : Scope) : Prop := ∀ y ≠ x, s.get? y = t.get? y

namespace AgreeOff

variable {x : Text} {s t : Scope}

theorem insert (h : s.AgreeOff x t) (name : Text) (v : Value) :
    AgreeOff x (s.insert name v) (t.insert name v) := by
  intro y hy
  rw [Table.get?_insert, Table.get?_insert, h y hy]

theorem of_insert (s : Scope) (x : Text) (v : Value) : AgreeOff x (s.insert x v) s := by
  intro y hy
  rw [Table.get?_insert, if_neg hy.symm]

theorem get? (h : s.AgreeOff x t) {name : Text} (hn : x.Unread name) :
    Table.get? s name = Table.get? t name := h name hn.ne

end AgreeOff

end Scope

namespace Setting

variable {σ : Type} (set : Setting σ) {x : Text}

/-! ## modifiers -/

theorem applyToText_unread (sub : Subject) {m : Modifier} (hm : m.Unread x) (text : Text)
    (s t : Scope) : set.applyToText sub m text s = set.applyToText sub m text t := by
  cases m with
  | parse f => exact hm.elim
  | load f => exact hm.elim
  | _ => rfl

/-- an unread modifier does not look at the scope but to evaluate its index -/
theorem apply_unread (sub : Subject) {m : Modifier} (hm : m.Unread x) (index : Run σ Value)
    (v : Value) (s t : Scope) : set.apply sub m index v s = set.apply sub m index v t := by
  cases v with
  | string text => exact set.applyToText_unread sub hm text s t
  | _ => cases m <;> rfl

/-! ## references -/

section
variable {s t : Scope} (h : s.AgreeOff x t)
include h

theorem lookup_agree {name : Text} (hn : x.Unread name) :
    (lookup name s : Run σ Value) = lookup name t := by
  unfold lookup
  rw [h.get? hn]

theorem baseValue_agree {name : Text} (hn : x.Unread name) (type : Option Text) :
    (baseValue name type s : Run σ Value) = baseValue name type t := by
  unfold baseValue
  rw [lookup_agree h hn]

/-- evaluating is the same in scopes that agree off a name which is not read; by induction on how
references stand in each other -/
theorem evaluation_agree :
    (∀ text : Text, x.Unread text → set.resolve text s = set.resolve text t) ∧
      (∀ r : Reference, r.Unread x → set.evaluate r s = set.evaluate r t) ∧
      (∀ (sub : Subject) (ms : List Modifier) (v : Value), (∀ m ∈ ms, m.Unread x) →
        set.applyAll sub ms v s = set.applyAll sub ms v t) ∧
      (∀ m : Modifier, m.Unread x → set.indexOf m s = set.indexOf m t) ∧
      ∀ expr : Text, x.Unread expr → set.evaluateIndex expr s = set.evaluateIndex expr t := by
  apply resolve.mutual_induct
  -- a text
  case case1 =>
    intro text hs r hr ih hx
    unfold resolve
    rw [if_pos hs, if_pos hs]
    split
    · rename_i r' hr'
      rw [hr] at hr'
      cases hr'
      exact ih (Reference.unread_of_read? hx hr)
    · rfl
  case case2 =>
    intro text hs hr hx
    unfold resolve
    rw [if_pos hs, if_pos hs]
    split
    · rename_i r' hr'
      rw [hr] at hr'
      cases hr'
    · rfl
  case case3 =>
    intro text hs hx
    unfold resolve
    rw [if_neg hs, if_neg hs]
    exact lookup_agree h hx
  -- a reference
  case case4 =>
    intro r ih hr
    obtain ⟨-, hms⟩ := Reference.signature.unread_check (.reference r.name) hr.2
    unfold evaluate
    rw [baseValue_agree h hr.1]
    congr 1
    funext _
    congr 1
    funext v
    exact ih v hms
  -- a row of modifiers
  case case5 =>
    intro sub v _
    unfold applyAll
    rfl
  case case6 =>
    intro sub v m ms hn _
    unfold applyAll
    rw [if_pos hn, if_pos hn]
  case case7 =>
    intro sub v m ms hn ihm ihms hms
    have hm : m.Unread x := hms m List.mem_cons_self
    unfold applyAll
    rw [if_neg hn, if_neg hn, ihm hm, set.apply_unread sub hm _ v s t]
    congr 1
    funext w
    exact ihms w fun n hn => hms n (List.mem_cons_of_mem _ hn)
  -- an index
  case case8 =>
    intro expr ih hx
    unfold indexOf
    exact ih hx
  case case9 =>
    intro m hm _
    unfold indexOf
    split
    · exact absurd rfl (hm _)
    · rfl
  case case10 =>
    intro expr hs ih hx
    unfold evaluateIndex
    rw [if_pos hs, if_pos hs]
    exact ih hx.trim
  case case11 =>
    intro expr hs _
    unfold evaluateIndex
    rw [if_neg hs, if_neg hs]

theorem resolve_agree {text : Text} (hx : x.Unread text) :
    set.resolve text s = set.resolve text t := (set.evaluation_agree h).1 text hx

theorem evaluate_agree {r : Reference} (hr : r.Unread x) :
    set.evaluate r s = set.evaluate r t := (set.evaluation_agree h).2.1 r hr

/-! ## lines -/

theorem renderSegments_agree (ss : List Segment) (hss : ∀ r, .reference r ∈ ss → r.Unread x) :
    set.renderSegments s ss = set.renderSegments t ss := by
  induction ss with
  | nil => rfl
  | cons seg ss ih =>
    have hseg : set.renderSegment s seg = set.renderSegment t seg := by
      cases seg with
      | reference r =>
        show set.evaluate r s >>= _ = set.evaluate r t >>= _
        rw [set.evaluate_agree h (hss r List.mem_cons_self)]
      | _ => rfl
    unfold renderSegments
    rw [hseg, ih fun r hr => hss r (List.mem_cons_of_mem _ hr)]

theorem substitute_agree {line : Text} (hx : x.Unread line) :
    set.substitute line s = set.substitute line t :=
  set.renderSegments_agree h _ fun _ hr => Segment.unread_of_mem_scan hx hr

/-! ## the parts of a loop -/

theorem operand_agree {arg : Text} (hx : x.Unread arg) :
    set.operand arg s = set.operand arg t := by
  unfold operand
  rw [set.resolve_agree h hx.trim]

theorem startValue_agree {raw : Text} (hx : x.Unread raw) :
    set.startValue raw s = set.startValue raw t := by
  unfold startValue
  rw [set.resolve_agree h hx]

theorem conditionHolds_agree {name bound : Text} (hn : x.Unread name) (hb : x.Unread bound)
    (c : Comparison) : set.conditionHolds name c bound s = set.conditionHolds name c bound t := by
  unfold conditionHolds
  rw [lookup_agree h hn, set.operand_agree h hb]

theorem start_inStep {entry : Text} (hx : x.Unread entry) :
    Run.InStep (Scope.AgreeOff x) (set.start entry s) (set.start entry t) := by
  unfold start
  split
  · exact .pure (h.insert _ _)
  · rename_i name raw hc
    have hraw : x.Unread raw.trim := (hx.mono (Text.infix_of_cutAt hc).2).trim
    rw [set.startValue_agree h hraw]
    refine .bind_same _ fun v => ?_
    split
    · exact .pure (h.insert _ _)
    · exact .bind_same _ fun _ => .pure (h.insert _ _)

theorem increment_inStep {i : Increment} (hn : x.Unread i.name) (hd : x.Unread i.delta) :
    Run.InStep (Scope.AgreeOff x) (set.increment i s) (set.increment i t) := by
  unfold increment
  rw [set.operand_agree h hd, h.get? hn]
  refine .bind_same _ fun v => ?_
  split
  · exact .bind_same _ fun _ => .pure h
  · split
    · exact .pure (h.insert _ _)
    · exact .bind_same _ fun _ => .pure h

end

/-! ### several of them -/

theorem startAll_inStep {es : List Text} (hes : ∀ e ∈ es, x.Unread e) {s t : Scope}
    (h : s.AgreeOff x t) :
    Run.InStep (Scope.AgreeOff x) (set.startAll es s) (set.startAll es t) := by
  induction es generalizing s t with
  | nil => exact .pure h
  | cons e es ih =>
    refine (set.start_inStep h (hes e List.mem_cons_self)).bind fun s' t' h' => ?_
    exact ih (fun e' he' => hes e' (List.mem_cons_of_mem _ he')) h'

theorem incrementAll_inStep {is : List Increment}
    (his : ∀ i ∈ is, x.Unread i.name ∧ x.Unread i.delta) {s t : Scope} (h : s.AgreeOff x t) :
    Run.InStep (Scope.AgreeOff x) (set.incrementAll is s) (set.incrementAll is t) := by
  induction is generalizing s t with
  | nil => exact .pure h
  | cons i is ih =>
    obtain ⟨hn, hd⟩ := his i List.mem_cons_self
    refine (set.increment_inStep h hn hd).bind fun s' t' h' => ?_
    exact ih (fun i' hi' => his i' (List.mem_cons_of_mem _ hi')) h'

end Setting

end Stencil
