import Stencil.Run

/-!
# Properties of runs

* `Run.Ensures P x`    every value that the run `x` computes has the property `P`;
* `Run.Notes Q x`      every problem that it notes has the property `Q`;
* `Run.InStep R x y`   from every world the two runs note the same problems and leave the same
                       world, and their values are related by `R`.

Each is proved of a composed run from its parts (`Ensures.bind`, `Notes.bind`, `InStep.bind`), and
the last of a loop from what one check and one round do (`InStep.loop`).
-/

namespace Stencil.Run

/-! ## one run -/

section
variable {σ α β : Type} {P : α → Prop} {Q : β → Prop}

def Ensures (P : α → Prop) (x : Run σ α) : Prop := ∀ w, P (x w).value

theorem Ensures.pure {a : α} (h : P a) : Ensures P (pure a : Run σ α) := fun _ => h

theorem Ensures.bind {x : Run σ α} {f : α → Run σ β} (hx : x.Ensures P)
    (hf : ∀ a, P a → (f a).Ensures Q) : (x >>= f).Ensures Q := by
  intro w
  rw [bind_apply]
  exact hf _ (hx w) _

theorem Ensures.after {x : Run σ α} {f : α → Run σ β} (hf : ∀ a, (f a).Ensures Q) :
    (x >>= f).Ensures Q := by
  intro w
  rw [bind_apply]
  exact hf _ _

end

section
variable {σ α β : Type} {Q : Problem → Prop}

def Notes (Q : Problem → Prop) (x : Run σ α) : Prop := ∀ w, ∀ p ∈ (x w).problems, Q p

theorem Notes.pure (a : α) : Notes Q (pure a : Run σ α) := fun _ _ hp => absurd hp List.not_mem_nil

theorem Notes.bind {x : Run σ α} {f : α → Run σ β} (hx : x.Notes Q) (hf : ∀ a, (f a).Notes Q) :
    (x >>= f).Notes Q := by
  intro w p hp
  rw [bind_apply] at hp
  exact (List.mem_append.mp hp).elim (hx w p) (hf _ _ p)

theorem Notes.noteAll {ps : List Problem} (h : ∀ p ∈ ps, Q p) :
    Notes Q (noteAll ps : Run σ Unit) := fun _ => h

theorem Notes.note {p : Problem} (h : Q p) : Notes Q (note p : Run σ Unit) :=
  .noteAll (List.forall_mem_singleton.mpr h)

theorem Notes.after_note {p : Problem} {x : Run σ α} (h : Q p) (hx : x.Notes Q) :
    Notes Q (Run.note p >>= fun _ => x) := (Notes.note h).bind fun _ => hx

theorem Notes.onHost (f : σ → α × σ) : Notes Q (onHost f) :=
  fun _ _ hp => absurd hp List.not_mem_nil

theorem Notes.shuffle (items : List Value) : Notes Q (shuffle items : Run σ (List Value)) :=
  fun _ _ hp => absurd hp List.not_mem_nil

end

/-! ## two runs in step -/

section
variable {σ α α' β β' : Type} {R : α → β → Prop} {S : α' → β' → Prop}

/-- two runs that differ in their values only, which are related -/
def InStep (R : α → β → Prop) (x : Run σ α) (y : Run σ β) : Prop :=
  ∀ w, R (x w).value (y w).value ∧ (x w).problems = (y w).problems ∧ (x w).world = (y w).world

theorem InStep.pure {a : α} {b : β} (h : R a b) : InStep R (pure a : Run σ α) (pure b) :=
  fun _ => ⟨h, rfl, rfl⟩

theorem InStep.same {Q : α → α → Prop} (x : Run σ α) (h : ∀ a, Q a a) : InStep Q x x :=
  fun _ => ⟨h _, rfl, rfl⟩

theorem InStep.bind {x : Run σ α} {y : Run σ β} {f : α → Run σ α'} {g : β → Run σ β'}
    (h : InStep R x y) (hfg : ∀ a b, R a b → InStep S (f a) (g b)) :
    InStep S (x >>= f) (y >>= g) := by
  intro w
  obtain ⟨hv, hp, hw⟩ := h w
  obtain ⟨hv', hp', hw'⟩ := hfg _ _ hv (x w).world
  rw [bind_apply, bind_apply, hp, ← hw]
  refine ⟨hv', ?_, hw'⟩
  show _ ++ _ = _ ++ _
  rw [hp']

theorem InStep.bind_same {γ : Type} (x : Run σ γ) {f : γ → Run σ α} {g : γ → Run σ β}
    (hfg : ∀ a, InStep R (f a) (g a)) : InStep R (x >>= f) (x >>= g) :=
  (InStep.same x fun _ => rfl).bind fun a _ hab => hab ▸ hfg a

/-- loops whose checks agree and whose rounds give the same and keep the states related -/
theorem InStep.loop {γ : Type} {check : α → Run σ Bool} {check' : β → Run σ Bool}
    {round : α → Run σ (Option γ × α)} {round' : β → Run σ (Option γ × β)}
    (hcheck : ∀ a b, R a b → check a = check' b)
    (hround : ∀ a b, R a b → InStep (fun r r' => r.1 = r'.1 ∧ R r.2 r'.2) (round a) (round' b))
    (stopped : Problem) (n : Nat) {a : α} {b : β} (h : R a b) :
    InStep (fun r r' => r.1 = r'.1 ∧ R r.2 r'.2) (Run.loop check round stopped n a)
      (Run.loop check' round' stopped n b) := by
  induction n generalizing a b with
  | zero =>
    rw [loop_zero, loop_zero, hcheck a b h]
    refine .bind_same _ fun more => ?_
    cases more
    · exact .pure ⟨rfl, h⟩
    · exact .bind_same _ fun _ => .pure ⟨rfl, h⟩
  | succ n ih =>
    rw [loop_succ, loop_succ, hcheck a b h]
    refine .bind_same _ fun more => ?_
    cases more
    · exact .pure ⟨rfl, h⟩
    · refine (hround a b h).bind fun r r' hr => ?_
      refine (ih hr.2).bind fun l l' hl => ?_
      refine .pure ⟨?_, hl.2⟩
      show r.1.toList ++ l.1 = r'.1.toList ++ l'.1
      rw [hr.1, hl.1]

end

end Stencil.Run
