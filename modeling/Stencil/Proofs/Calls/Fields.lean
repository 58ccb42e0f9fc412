import Stencil.Proofs.Termination

/-!
# Calls that change fields

Where a call stands need not be handed to it: it can be kept in fields that all calls share, which
are changed at three places, before a call, and changed back there after it from whatever they hold
by then.  That they hold what they held before is then something to be proved, of each of the three
places and of everything that is called.

* `Frame.enter`, `Frame.leave`, `Frame.push`, `Frame.pop`   what is done to the fields;
* `Routine`                  acts on the world, changes the fields, and calls;
* `Routine.load`, `Routine.template`, `Routine.renderFile`   the places where fields are changed;
* `Task.routine`             what is done for a task;
* `Routine.Ends P f x g`     from the fields `f` on, `x` ends with the fields `g`, if each call leaves
                             them as it finds them, and these calls have the property `P`;
* `Routine.Runs o host x f w r g`   on the fields `f` and in the world `w`, `x` is carried out with
                             the result `r`, and leaves the fields `g`;
* `Routine.runs_iff`         there is one way, with the result of the evaluator;
* `Task.restores`            and a task leaves the fields as it finds them.
-/

namespace Stencil

/-! ## fields -/

namespace Frame

def enter (f : Frame) : Frame := { f with depth := f.depth + 1 }

def leave (f : Frame) : Frame := { f with depth := f.depth - 1 }

def push (path : Text) (f : Frame) : Frame := { f with loading := path :: f.loading }

def pop (f : Frame) : Frame := { f with loading := f.loading.tail }

theorem leave_enter (f : Frame) : f.enter.leave = f := rfl

theorem pop_push (path : Text) (f : Frame) : (f.push path).pop = f := rfl

end Frame

/-! ## routines -/

/-- what is done up to the next call, and what after it; a call finds the fields as they are -/
inductive Routine (σ α : Type) : Type 1
  | ret (a : α)
  | act {β : Type} (x : Run σ β) (next : β → Routine σ α)
  | change (u : Frame → Frame) (next : Routine σ α)
  | call {β : Type} (t : Task β) (next : β → Routine σ α)

namespace Routine

variable {σ α β : Type}

def bind : Routine σ α → (α → Routine σ β) → Routine σ β
  | ret a, k => k a
  | act x next, k => act x fun b => (next b).bind k
  | change u next, k => change u (next.bind k)
  | call t next, k => call t fun b => (next b).bind k

instance : Monad (Routine σ) where
  pure := ret
  bind := bind

def lift (x : Run σ α) : Routine σ α := act x ret

def set (u : Frame → Frame) : Routine σ Unit := change u (ret ())

def ask (t : Task α) : Routine σ α := call t ret

/-- code that calls from where it stands -/
def ofCode : Code σ α → Routine σ α
  | .ret a => ret a
  | .act x next => act x fun b => ofCode (next b)
  | .call _ t next => call t fun b => ofCode (next b)

/-! ### where fields are changed -/

def load (host : Host σ) (f : Frame) (path : Text) (fmt : Format) (scope : Scope) :
    Routine σ Value :=
  if f.loading.any (· = path) then lift do
    .note (.loadCycle path)
    pure .null
  else do
    match ← lift (.onHost (host.fetch path)) with
    | .error e => lift do
      .note (.unloadable path e)
      pure .null
    | .ok contents => do
      set (.push path)
      let v ← ask (.interpret contents fmt scope)
      set .pop
      pure v

def template (o : Options) (f : Frame) (source : Text) (scope : Scope) :
    Routine σ (Option Text) :=
  if o.maxDepth ≤ f.depth then lift do
    .note (.depthExceeded o.maxDepth)
    pure none
  else do
    set .enter
    lift (.noteAll (Template.read source).problems)
    let r ← ask (.nodes (Template.read source).nodes scope)
    set .leave
    pure (some (Text.joinLines r.1))

def renderSource (source : Text) (scope : Scope) : Routine σ (Text × Scope) := do
  lift (.noteAll (Template.read source).problems)
  let r ← ask (.nodes (Template.read source).nodes scope)
  pure (Text.joinLines r.1, r.2)

def fetch (host : Host σ) (path : Text) : Routine σ (Except Failure Text) :=
  lift (.onHost (host.fetch path))

/-- a path that cannot be fetched is never being loaded -/
def renderFile (host : Host σ) (path : Text) (scope : Scope) :
    Routine σ (Except Failure (Text × Scope)) := do
  match ← fetch host path with
  | .error e => pure (.error e)
  | .ok source => do
    set (.push path)
    let r ← renderSource source scope
    set .pop
    pure (.ok r)

end Routine

/-- what is done for a task that finds the fields `f`; all but two tasks call from where they
stand -/
def Task.routine {σ α : Type} (o : Options) (host : Host σ) (f : Frame) : Task α → Routine σ α
  | .load path fmt scope => .load host f path fmt scope
  | .template source scope => .template o f source scope
  | t => .ofCode (t.code o host f)

/-! ## how fields end -/

namespace Routine

variable {σ α β : Type}

/-- with nothing said of the value of a call, and of that of an act only that it is one -/
def Ends (P : Call → Prop) : Frame → Routine σ α → Frame → Prop
  | f, ret _, g => g = f
  | f, act x next, g => ∀ w, Ends P f (next (x w).value) g
  | f, change u next, g => Ends P (u f) next g
  | f, call t next, g => P ⟨f, t⟩ ∧ ∀ b, Ends P f (next b) g

section
variable {P : Call → Prop} {f g k : Frame}

theorem ends_pure (a : α) : (pure a : Routine σ α).Ends P f f := rfl

theorem ends_lift (x : Run σ α) : (lift x).Ends P f f := fun _ => rfl

theorem ends_ask {t : Task α} (h : P ⟨f, t⟩) : (ask t : Routine σ α).Ends P f f :=
  ⟨h, fun _ => rfl⟩

theorem Ends.bind {x : Routine σ α} {next : α → Routine σ β} (hx : x.Ends P f g)
    (hnext : ∀ a, (next a).Ends P g k) : (x >>= next).Ends P f k := by
  change (x.bind next).Ends P f k
  induction x generalizing f with
  | ret a =>
    obtain rfl : g = f := hx
    exact hnext a
  | act x rest ih => exact fun w => ih _ (hx w)
  | change u rest ih => exact ih hx
  | call t rest ih => exact ⟨hx.1, fun b => ih b (hx.2 b)⟩

/-- what is done between a change of the fields and the change back -/
theorem ends_between {u v : Frame → Frame} (hback : v (u f) = f) {x : Routine σ α}
    (hx : x.Ends P (u f) (u f)) (after : α → β) :
    (set u >>= fun _ => x >>= fun a => set v >>= fun _ => pure (after a)).Ends P f f := by
  show (x >>= fun a => set v >>= fun _ => pure (after a)).Ends P (u f) f
  exact hx.bind fun a => hback.symm

theorem load_ends (host : Host σ) {path : Text} {fmt : Format} {scope : Scope}
    (h : ∀ contents, P ⟨f.push path, .interpret contents fmt scope⟩) :
    (load host f path fmt scope).Ends P f f := by
  unfold load
  split
  · exact ends_lift _
  · refine (ends_lift _).bind fun r => ?_
    cases r with
    | error e => exact ends_lift _
    | ok contents => exact ends_between (f.pop_push path) (ends_ask (h contents)) id

theorem template_ends (o : Options) {source : Text} {scope : Scope}
    (h : f.depth < o.maxDepth → P ⟨f.enter, .nodes (Template.read source).nodes scope⟩) :
    (template o f source scope : Routine σ (Option Text)).Ends P f f := by
  unfold template
  split
  · exact ends_lift _
  · rename_i hlt
    have hinside : (do
        lift (.noteAll (Template.read source).problems)
        ask (.nodes (Template.read source).nodes scope) :
          Routine σ (List Text × Scope)).Ends P f.enter f.enter :=
      (ends_lift _).bind fun _ => ends_ask (h (Nat.lt_of_not_le hlt))
    exact ends_between f.leave_enter hinside fun r => some (Text.joinLines r.1)

theorem renderSource_ends {source : Text} {scope : Scope}
    (h : P ⟨f, .nodes (Template.read source).nodes scope⟩) :
    (renderSource source scope : Routine σ (Text × Scope)).Ends P f f :=
  (ends_lift _).bind fun _ => (ends_ask h).bind fun _ => ends_pure _

theorem fetch_ends (host : Host σ) (path : Text) : (fetch host path).Ends P f f := ends_lift _

theorem renderFile_ends (host : Host σ) {path : Text} {scope : Scope}
    (h : ∀ source, P ⟨f.push path, .nodes (Template.read source).nodes scope⟩) :
    (renderFile host path scope).Ends P f f := by
  refine (fetch_ends host path).bind fun r => ?_
  cases r with
  | error e => exact ends_pure _
  | ok source => exact ends_between (f.pop_push path) (renderSource_ends (h source)) Except.ok

theorem ofCode_ends {x : Code σ α} {Q : Problem → Prop}
    (h : x.Within f (fun d => d.frame = f ∧ P d) Q) : (ofCode x).Ends P f f := by
  induction x with
  | ret a => rfl
  | act x next ih => exact fun w => ih _ (h.2 w)
  | call s t next ih =>
    obtain ⟨⟨hf, hP⟩, hnext⟩ := h
    have hs : f.shift s = f := hf
    rw [hs] at hP
    exact ⟨hP, fun b => ih b (hnext b)⟩

end

end Routine

/-- whether the fields are changed before the calls that are made for a task -/
def Task.ChangesFields {α : Type} : Task α → Prop
  | .load _ _ _ => True
  | .template _ _ => True
  | _ => False

theorem Makes.frame_eq {σ : Type} {P : Text → Prop} {o : Options} {host : Host σ} {c d : Call}
    (h : Makes P o host c d) (hc : ¬c.task.ChangesFields) : d.frame = c.frame := by
  cases h with
  | fetched => exact absurd trivial hc
  | inside => exact absurd trivial hc
  | _ => rfl

section
variable {σ : Type} (o : Options) (host : Host σ)

/-- a call ends with the fields that it finds, if the calls it makes do, and each of these has a
lower rank -/
theorem Call.routine_ends (c : Call) :
    (c.task.routine o host c.frame).Ends (fun d => d.rank o < c.rank o) c.frame c.frame := by
  obtain ⟨f, t⟩ := c
  have hmakes := (⟨f, t⟩ : Call).within_makes Text.hereditary_true o host t.over_true
  have hcode (ht : ¬t.ChangesFields) :
      (Routine.ofCode (t.code o host f)).Ends (fun d => d.rank o < (⟨f, t⟩ : Call).rank o) f f :=
    Routine.ofCode_ends (hmakes.mono (fun d hd => ⟨hd.frame_eq ht, hd.rank_lt⟩) fun _ => id)
  cases t with
  | load path fmt scope =>
    exact Routine.load_ends host fun _ => Call.rank_lt_of_layer rfl (show 1 < 2 by decide)
  | template source scope =>
    refine Routine.template_ends o fun (hdepth : f.depth < o.maxDepth) =>
      Call.rank_lt_of_depth (f := f) ?_
    show o.maxDepth - (f.depth + 1) < o.maxDepth - f.depth
    omega
  | _ => exact hcode id

/-! ## what routines do -/

namespace Routine

def eval {α : Type} : Frame → Routine σ α → Run σ α
  | _, ret a => pure a
  | f, act x next => x >>= fun b => eval f (next b)
  | f, change u next => eval (u f) next
  | f, call t next => (⟨f, t⟩ : Call).eval o host >>= fun b => eval f (next b)

/-- a call is carried out on the fields as they are, and what comes after it goes on with the fields
that it leaves, whatever they are -/
inductive Runs :
    {α : Type} → Routine σ α → Frame → World σ → Result σ α → Frame → Prop
  | ret {α : Type} {a : α} {f : Frame} {w : World σ} : Runs (.ret a) f w ⟨a, [], w⟩ f
  | act {α β : Type} {x : Run σ β} {next : β → Routine σ α} {f g : Frame} {w : World σ}
      {r : Result σ α} (h : Runs (next (x w).value) f (x w).world r g) :
      Runs (.act x next) f w ⟨r.value, (x w).problems ++ r.problems, r.world⟩ g
  | change {α : Type} {u : Frame → Frame} {next : Routine σ α} {f g : Frame} {w : World σ}
      {r : Result σ α} (h : Runs next (u f) w r g) : Runs (.change u next) f w r g
  | call {α β : Type} {t : Task β} {next : β → Routine σ α} {f g k : Frame} {w : World σ}
      {r : Result σ β} {q : Result σ α} (hr : Runs (t.routine o host f) f w r g)
      (hq : Runs (next r.value) g r.world q k) :
      Runs (.call t next) f w ⟨q.value, r.problems ++ q.problems, q.world⟩ k

end Routine

end

section
variable {σ : Type} {o : Options} {host : Host σ}

namespace Routine

variable {α β : Type} {f g k : Frame} {P : Call → Prop}

theorem eval_lift (x : Run σ α) : (lift x).eval o host f = x := bind_pure x

theorem eval_bind {x : Routine σ α} (hx : x.Ends P f g) (next : α → Routine σ β) :
    (x >>= next).eval o host f = x.eval o host f >>= fun a => (next a).eval o host g := by
  change (x.bind next).eval o host f = _
  funext w
  induction x generalizing f w with
  | ret a =>
    obtain rfl : g = f := hx
    rfl
  | act x rest ih =>
    rw [bind, eval, eval, bind_assoc, Run.bind_apply, ih _ (hx w)]
    rfl
  | change u rest ih => exact ih hx w
  | call t rest ih =>
    rw [bind, eval, eval, bind_assoc, Run.bind_apply, ih _ (hx.2 _)]
    rfl

theorem eval_between {u v : Frame → Frame} {x : Routine σ α} (hx : x.Ends P (u f) (u f))
    (after : α → β) :
    (set u >>= fun _ => x >>= fun a => set v >>= fun _ => pure (after a)).eval o host f =
      x.eval o host (u f) >>= fun a => pure (after a) := eval_bind hx _

theorem eval_ofCode {Q : Problem → Prop} {x : Code σ α}
    (h : x.Within f (fun d => d.frame = f ∧ P d) Q) :
    (ofCode x).eval o host f = x.denote fun s t => (⟨f.shift s, t⟩ : Call).eval o host := by
  funext w
  induction x generalizing w with
  | ret a => rfl
  | act x next ih =>
    rw [ofCode, eval, Code.denote, Run.bind_apply, ih _ (h.2 w)]
    rfl
  | call s t next ih =>
    have hs : f.shift s = f := h.1.1
    rw [ofCode, eval, Code.denote, Run.bind_apply, ih _ (h.2 _), hs]
    rfl

theorem eval_load (f : Frame) (path : Text) (fmt : Format) (scope : Scope) :
    (load host f path fmt scope).eval o host f = (f.setting o host).load path fmt scope := by
  unfold load Setting.load
  show _ = (if f.loading.any (· = path) then _ else _)
  split
  · exact bind_pure _
  · refine congrArg _ (funext fun r => ?_)
    cases r with
    | error e => exact bind_pure _
    | ok contents => exact bind_pure _

theorem eval_template (f : Frame) (source : Text) (scope : Scope) :
    (template o f source scope).eval o host f =
      Setting.nestedAt o host (o.maxDepth - f.depth) f.loading source scope := by
  unfold template
  split
  · rename_i hle
    rw [Nat.sub_eq_zero_of_le hle]
    exact bind_pure _
  · rename_i hlt
    have hleft : o.maxDepth - f.depth = o.maxDepth - (f.depth + 1) + 1 := by omega
    rw [hleft, Setting.nestedAt, Setting.renderSource]
    simp only [bind_assoc, pure_bind]
    rfl

end Routine

/-- a call does what the evaluator does, if the calls it makes do -/
theorem Call.eval_routine (c : Call) :
    (c.task.routine o host c.frame).eval o host c.frame = c.eval o host := by
  have hmakes := c.within_makes Text.hereditary_true o host c.task.over_true
  have hcode (ht : ¬c.task.ChangesFields) :
      (Routine.ofCode (c.code o host)).eval o host c.frame = c.eval o host := by
    rw [Routine.eval_ofCode (hmakes.mono (fun d hd => ⟨hd.frame_eq ht, hd⟩) fun _ => id),
      ← Call.eval_eq]
  obtain ⟨f, t⟩ := c
  cases t with
  | load path fmt scope => exact Routine.eval_load f path fmt scope
  | template source scope => exact Routine.eval_template f source scope
  | _ => exact hcode id

/-! ## how routines are carried out -/

namespace Routine

variable {α : Type} {x : Routine σ α} {f g k : Frame} {P : Call → Prop}

theorem Runs.eq {w : World σ} {r : Result σ α} (h : x.Runs o host f w r g) (hx : x.Ends P f k) :
    r = x.eval o host f w ∧ g = k := by
  induction h generalizing k P with
  | ret => exact ⟨rfl, hx.symm⟩
  | @act α β y next f g w r h ih =>
    obtain ⟨rfl, rfl⟩ := ih (hx w)
    exact ⟨rfl, rfl⟩
  | change h ih => exact ih hx
  | @call α β t next f g k' w r q hr hq ihr ihq =>
    have hcall : (t.routine o host f).eval o host f w = (⟨f, t⟩ : Call).eval o host w :=
      congrFun (Call.eval_routine ⟨f, t⟩) w
    -- the call gives the fields back, so what comes after it goes on with them
    obtain ⟨hr, rfl⟩ := ihr (Call.routine_ends o host ⟨f, t⟩)
    obtain ⟨rfl, rfl⟩ := ihq (hx.2 _)
    rw [hcall] at hr
    rw [eval, Run.bind_apply, ← hr]
    exact ⟨rfl, rfl⟩

/-- a routine is carried out if the calls in it are -/
theorem runs_of_calls (hP : ∀ d, P d → ∀ w, (d.task.routine o host d.frame).Runs o host d.frame w
      (d.eval o host w) d.frame) (hx : x.Ends P f g) (w : World σ) :
    x.Runs o host f w (x.eval o host f w) g := by
  induction x generalizing f w with
  | ret a =>
    obtain rfl : g = f := hx
    exact .ret
  | act y next ih => exact .act (ih _ (hx w) _)
  | change u next ih => exact .change (ih hx w)
  | call t next ih => exact .call (hP ⟨f, t⟩ hx.1 w) (ih _ (hx.2 _) _)

end Routine

theorem Call.runs_eval (c : Call) (w : World σ) :
    (c.task.routine o host c.frame).Runs o host c.frame w (c.eval o host w) c.frame := by
  induction c using (InvImage.wf (Call.rank o) wellFounded_lt).induction generalizing w with
  | _ c ih =>
    rw [← c.eval_routine]
    exact Routine.runs_of_calls ih (c.routine_ends o host) w

/-- **A routine is carried out in one way**: with the result that the evaluator has, and with the
fields as they have to end -/
theorem Routine.runs_iff {α : Type} {x : Routine σ α} {f g k : Frame} {w : World σ}
    {r : Result σ α} {P : Call → Prop} (hx : x.Ends P f k) :
    x.Runs o host f w r g ↔ r = x.eval o host f w ∧ g = k := by
  constructor
  · exact fun h => h.eq hx
  · rintro ⟨rfl, rfl⟩
    exact runs_of_calls (fun d _ => d.runs_eval) hx w

/-- a task is carried out in one way on some fields, with a given result, and leaves the fields as
they were -/
def Task.Restores {σ α : Type} (o : Options) (host : Host σ) (t : Task α) (f : Frame) (w : World σ)
    (r : Result σ α) : Prop :=
  ∀ q g, (t.routine o host f).Runs o host f w q g ↔ q = r ∧ g = f

/-- **every task leaves the fields as it finds them**, and has the result that the evaluator has in
the frame they hold -/
theorem Task.restores {α : Type} (t : Task α) (f : Frame) (w : World σ) :
    t.Restores o host f w (t.eval (f.setting o host) w) := by
  intro q g
  have heval : (t.routine o host f).eval o host f = t.eval (f.setting o host) :=
    Call.eval_routine ⟨f, t⟩
  rw [Routine.runs_iff (Call.routine_ends o host ⟨f, t⟩), heval]

end

end Stencil
