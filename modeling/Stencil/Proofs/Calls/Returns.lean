import Stencil.Proofs.Calls.Evaluation

/-!
# Calls that return

Code is carried out call by call: before it goes on with the value of a call, the code of that call
has to be carried out.  Code that returns is a finite tree of such steps, and calls that go on
forever are no tree at all, so that to return is something to be proved.

* `Code.Returns ok c x w r`    the code `x`, which is part of the call `c`, is carried out in the
                               world `w` with the result `r`, and whenever a call `d` makes a call
                               `d'` on the way, `ok d d'` holds;
* `Call.Returns`               the same of all the code of a call;
* `Code.Returns.eq`            the result is that of the evaluator, so there is no other;
* `Code.Returns.invariant`     what calls hand on holds of all calls;
* `Call.returns_of_wellFounded`   calls whose calls go down a well-founded relation return.
-/

namespace Stencil

variable {σ : Type} (o : Options) (host : Host σ)

namespace Call

def eval (c : Call) : Run σ c.α := c.task.eval (c.frame.setting o host)

theorem eval_eq (c : Call) : c.eval o host = (c.code o host).denote fun s t =>
    (⟨c.frame.shift s, t⟩ : Call).eval o host := Task.eval_eq o host c.frame c.task

end Call

inductive Code.Returns (ok : Call → Call → Prop) :
    Call → {α : Type} → Code σ α → World σ → Result σ α → Prop
  | ret {c : Call} {α : Type} {a : α} {w : World σ} : Returns ok c (.ret a) w ⟨a, [], w⟩
  | act {c : Call} {α β : Type} {x : Run σ β} {next : β → Code σ α} {w : World σ}
      {r : Result σ α} (h : Returns ok c (next (x w).value) (x w).world r) :
      Returns ok c (.act x next) w ⟨r.value, (x w).problems ++ r.problems, r.world⟩
  | call {c : Call} {α β : Type} {s : Shift} {t : Task β} {next : β → Code σ α} {w : World σ}
      {r : Result σ β} {q : Result σ α} (hok : ok c ⟨c.frame.shift s, t⟩)
      (hr : Returns ok ⟨c.frame.shift s, t⟩ (t.code o host (c.frame.shift s)) w r)
      (hq : Returns ok c (next r.value) r.world q) :
      Returns ok c (.call s t next) w ⟨q.value, r.problems ++ q.problems, q.world⟩

/-- a call is carried out in a world with a result -/
def Call.Returns (ok : Call → Call → Prop) (c : Call) (w : World σ) (r : Result σ c.α) : Prop :=
  Code.Returns o host ok c (c.code o host) w r

variable {o host} {ok ok' : Call → Call → Prop}

namespace Code.Returns

variable {α : Type} {c : Call} {x : Code σ α} {w : World σ} {r : Result σ α}

theorem eq (h : x.Returns o host ok c w r) :
    r = x.denote (fun s t => (⟨c.frame.shift s, t⟩ : Call).eval o host) w := by
  induction h with
  | ret => rfl
  | act h ih => rw [denote, Run.bind_apply, ← ih]
  | @call c α β s t next w r q hok hr hq ihr ihq =>
    have hcall : (⟨c.frame.shift s, t⟩ : Call).eval o host w = r := by
      rw [Call.eval_eq]
      exact ihr.symm
    rw [denote, Run.bind_apply, hcall, ← ihq]

theorem mono (h : x.Returns o host ok c w r) (hok : ∀ d d', ok d d' → ok' d d') :
    x.Returns o host ok' c w r := by
  induction h with
  | ret => exact .ret
  | act h ih => exact .act ih
  | call hc hr hq ihr ihq => exact .call (hok _ _ hc) ihr ihq

/-- what each call hands on to those of the calls it makes that are as `ok` says holds of all calls,
and what the calls it holds of note is all that is noted -/
theorem invariant_of_ok {P : Call → Prop} {Q : Problem → Prop}
    (hstep : ∀ d : Call, P d → (d.code o host).Within d.frame (fun d' => ok d d' → P d') Q)
    (h : x.Returns o host ok c w r) (hx : x.Within c.frame (fun d => ok c d → P d) Q) :
    x.Returns o host (fun d d' => ok d d' ∧ P d') c w r ∧ ∀ p ∈ r.problems, Q p := by
  induction h with
  | ret => exact ⟨.ret, fun p hp => absurd hp List.not_mem_nil⟩
  | @act c α β y next w r h ih =>
    obtain ⟨hy, hnext⟩ := hx
    obtain ⟨hr, hp⟩ := ih (hnext w)
    exact ⟨.act hr, fun p hm => (List.mem_append.mp hm).elim (hy w p) (hp p)⟩
  | @call c α β s t next w r q hok hr hq ihr ihq =>
    obtain ⟨hc, hnext⟩ := hx
    obtain ⟨hr, hp⟩ := ihr (hstep ⟨c.frame.shift s, t⟩ (hc hok))
    obtain ⟨hq, hp'⟩ := ihq (hnext r.value)
    exact ⟨.call ⟨hok, hc hok⟩ hr hq, fun p hm => (List.mem_append.mp hm).elim (hp p) (hp' p)⟩

/-- what each call hands on to all the calls it makes holds of all calls -/
theorem invariant {P : Call → Prop} {Q : Problem → Prop}
    (hstep : ∀ d : Call, P d → (d.code o host).Within d.frame P Q) (h : x.Returns o host ok c w r)
    (hx : x.Within c.frame P Q) :
    x.Returns o host (fun d d' => ok d d' ∧ P d') c w r ∧ ∀ p ∈ r.problems, Q p :=
  h.invariant_of_ok (fun d hd => (hstep d hd).mono (fun _ hd' _ => hd') fun _ => id)
    (hx.mono (fun _ hd _ => hd) fun _ => id)

end Code.Returns

namespace Call

variable {c : Call} {w : World σ} {r : Result σ c.α}

theorem Returns.eq (h : c.Returns o host ok w r) : r = c.eval o host w := by
  rw [eval_eq]
  exact Code.Returns.eq h

theorem Returns.mono (h : c.Returns o host ok w r) (hok : ∀ d d', ok d d' → ok' d d') :
    c.Returns o host ok' w r := Code.Returns.mono h hok

theorem Returns.invariant {P : Call → Prop} {Q : Problem → Prop}
    (hstep : ∀ d : Call, P d → (d.code o host).Within d.frame P Q) (h : c.Returns o host ok w r)
    (hc : P c) :
    c.Returns o host (fun d d' => ok d d' ∧ P d') w r ∧ ∀ p ∈ r.problems, Q p :=
  Code.Returns.invariant hstep h (hstep c hc)

/-- if the calls that a call makes return, so does the call -/
theorem returns_of_within (h : (c.code o host).Within c.frame
      (fun d => ok c d ∧ ∀ w, d.Returns o host ok w (d.eval o host w)) fun _ => True)
    (w : World σ) : c.Returns o host ok w (c.eval o host w) := by
  rw [eval_eq]
  unfold Returns
  -- from here the code is any code that the call may come to
  generalize c.code o host = x at h
  induction x generalizing w with
  | ret a => exact .ret
  | act y next ih => exact .act (ih _ _ (h.2 w))
  | call s t next ih =>
    obtain ⟨⟨hok, hr⟩, hnext⟩ := h
    exact .call hok (hr w) (ih _ _ (hnext _))

/-- **calls whose calls go down a well-founded relation return** -/
theorem returns_of_wellFounded (hwf : WellFounded fun d' d => ok d d')
    (h : ∀ d : Call, (d.code o host).Within d.frame (ok d) fun _ => True) (c : Call)
    (w : World σ) : c.Returns o host ok w (c.eval o host w) := by
  induction c using hwf.induction generalizing w with
  | _ c ih =>
    exact returns_of_within ((h c).mono (fun d hd => ⟨hd, ih d hd⟩) fun _ => id) w

end Call

end Stencil
