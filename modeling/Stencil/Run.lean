import Stencil.Problem
import Stencil.Shuffle

/-!
# Runs

A run computes a value, notes problems, and changes the world: the state of the host and the
generator of random orders.

* `World`           what rendering changes outside the scope;
* `Result`          the value of a run, the problems it noted, and the world after it;
* `Run`             a computation from a world to a result;
* `Run.note`        note a problem;
* `Run.noteAll`     note several problems;
* `Run.onHost`      act on the state of the host;
* `Run.shuffle`     a list in a random order;
* `Run.loop`        repeat a round as long as a condition holds, up to a bound;
* `Run.loop_zero`, `Run.loop_succ`   a loop is its first round and the loop after it.
-/

namespace Stencil

/-- what rendering changes outside the scope -/
structure World (σ : Type) : Type 1 where
  host : σ
  generator : Generator

/-- the value of a run, the problems it noted, and the world after it -/
structure Result (σ α : Type) : Type 1 where
  value : α
  problems : List Problem
  world : World σ

/-- a computation that notes problems and changes the world -/
def Run (σ α : Type) : Type 1 := World σ → Result σ α

namespace Run

variable {σ α β : Type}

@[ext] theorem ext {x y : Run σ α} (h : ∀ w, x w = y w) : x = y := funext h

instance : Monad (Run σ) where
  pure a := fun w => ⟨a, [], w⟩
  bind x f := fun w =>
    let r := x w
    let s := f r.value r.world
    ⟨s.value, r.problems ++ s.problems, s.world⟩

theorem pure_apply (a : α) (w : World σ) : (pure a : Run σ α) w = ⟨a, [], w⟩ := rfl

theorem bind_apply (x : Run σ α) (f : α → Run σ β) (w : World σ) :
    (x >>= f) w = ⟨(f (x w).value (x w).world).value,
      (x w).problems ++ (f (x w).value (x w).world).problems,
      (f (x w).value (x w).world).world⟩ := rfl

instance : LawfulMonad (Run σ) := LawfulMonad.mk' (Run σ)
  (by
    intro α x
    funext w
    show (⟨_, _ ++ [], _⟩ : Result σ α) = _
    rw [List.append_nil]
    rfl)
  (fun _ _ => rfl)
  (by
    intro α β γ x f g
    funext w
    simp only [bind_apply, List.append_assoc])

theorem bind_pure_apply (x : Run σ α) (f : α → β) (w : World σ) :
    (x >>= fun a => pure (f a)) w = ⟨f (x w).value, (x w).problems, (x w).world⟩ := by
  rw [bind_apply]
  show (⟨_, (x w).problems ++ [], _⟩ : Result σ β) = _
  rw [List.append_nil]
  rfl

/-! ## effects -/

def noteAll (ps : List Problem) : Run σ Unit := fun w => ⟨(), ps, w⟩

def note (p : Problem) : Run σ Unit := noteAll [p]

theorem note_apply (p : Problem) (w : World σ) : note p w = ⟨(), [p], w⟩ := rfl

theorem noteAll_nil : (noteAll [] : Run σ Unit) = pure () := rfl

theorem noteAll_pure (ps : List Problem) (a : α) (w : World σ) :
    ((noteAll ps >>= fun _ => pure a) : Run σ α) w = ⟨a, ps, w⟩ :=
  bind_pure_apply (noteAll ps) (fun _ => a) w

theorem noteAll_bind_apply (ps : List Problem) (x : Run σ α) (w : World σ) :
    (noteAll ps >>= fun _ => x) w = ⟨(x w).value, ps ++ (x w).problems, (x w).world⟩ := rfl

def onHost (f : σ → α × σ) : Run σ α := fun w =>
  let r := f w.host
  ⟨r.1, [], { w with host := r.2 }⟩

def shuffle (items : List Value) : Run σ (List Value) := fun w =>
  let r := w.generator.shuffle items
  ⟨r.1, [], { w with generator := r.2 }⟩

/-! ## loops -/

/-- a loop, with what the rounds so far gave and noted, last first -/
def loopFrom (check : α → Run σ Bool) (round : α → Run σ (Option β × α)) (stopped : Problem)
    (given : List β) (noted : List Problem) (n : Nat) (s : α) (w : World σ) :
    Result σ (List β × α) :=
  let c := check s w
  if c.value then
    match n with
    | 0 => ⟨(given.reverse, s), (stopped :: (c.problems.reverse ++ noted)).reverse, c.world⟩
    | m + 1 =>
      let r := round s c.world
      loopFrom check round stopped (r.value.1.toList ++ given)
        (r.problems.reverse ++ (c.problems.reverse ++ noted)) m r.value.2 r.world
  else ⟨(given.reverse, s), (c.problems.reverse ++ noted).reverse, c.world⟩

/-- repeat a round on a state as long as a condition holds, and collect what the rounds give; if
the condition still holds after so many rounds, note `stopped` and leave off -/
def loop (check : α → Run σ Bool) (round : α → Run σ (Option β × α)) (stopped : Problem)
    (rounds : Nat) (s : α) : Run σ (List β × α) :=
  loopFrom check round stopped [] [] rounds s

theorem loopFrom_eq (check : α → Run σ Bool) (round : α → Run σ (Option β × α))
    (stopped : Problem) (given : List β) (noted : List Problem) (n : Nat) (s : α) (w : World σ) :
    loopFrom check round stopped given noted n s w =
      ⟨(given.reverse ++ (loop check round stopped n s w).value.1,
          (loop check round stopped n s w).value.2),
        noted.reverse ++ (loop check round stopped n s w).problems,
        (loop check round stopped n s w).world⟩ := by
  induction n generalizing given noted s w with
  | zero =>
    unfold loop loopFrom
    by_cases h : (check s w).value = true <;> simp [h]
  | succ n ih =>
    unfold loop
    rw [loopFrom, loopFrom]
    by_cases h : (check s w).value = true
    · simp only [h, if_true]
      rw [ih, ih (_ ++ [])]
      simp
    · simp [h]

theorem loop_zero (check : α → Run σ Bool) (round : α → Run σ (Option β × α)) (stopped : Problem)
    (s : α) :
    loop check round stopped 0 s = (do
      let more ← check s
      if more then note stopped
      pure ([], s)) := by
  funext w
  unfold loop
  rw [loopFrom]
  by_cases h : (check s w).value = true
  · simp only [bind_apply, pure_apply, note_apply, h, if_true]
    simp
  · simp [bind_apply, pure_apply, h]

theorem loop_succ (check : α → Run σ Bool) (round : α → Run σ (Option β × α)) (stopped : Problem)
    (n : Nat) (s : α) :
    loop check round stopped (n + 1) s = (do
      let more ← check s
      if more then
        let first ← round s
        let rest ← loop check round stopped n first.2
        pure (first.1.toList ++ rest.1, rest.2)
      else pure ([], s)) := by
  funext w
  by_cases h : (check s w).value = true
  · rw [loop, loopFrom, if_pos h]
    simp only
    rw [loopFrom_eq]
    simp only [bind_apply, pure_apply, h, if_true]
    cases (round s (check s w).world).value.1 <;> simp
  · rw [loop, loopFrom, if_neg h]
    simp [bind_apply, pure_apply, h]

end Run

end Stencil
