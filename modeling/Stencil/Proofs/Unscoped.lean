import Stencil.Proofs.Scoping

/-!
# Commands without `unscoped`

Whether a command works on the scope around it or on a copy of that scope makes a difference for
what stands behind it only: up to its own end it reads the same values, and so it gives the same
output and the same binding, notes the same problems and leaves the same world.

* `Signature.check_withoutUnscoped`   what checking leaves of arguments without `unscoped`;
* `Head.isValid`             whether the arguments of a command are accepted;
* `Head.withoutUnscoped`     a command without its `unscoped` modifiers;
* `Outcome.Alike`            the same output and the same binding;
* `Setting.runKind_alike`    any of the five commands, on a scope or on a copy of it;
* `Setting.renderNode_withoutUnscoped`   a command with its `unscoped` and without it.
-/

namespace Stencil

/-! ## the modifier and the other arguments -/

def unscopedText : Text := Modifier.unscoped.keyword

theorem Modifier.read_unscopedText : read unscopedText = .ok .unscoped := rfl

theorem Modifier.eq_of_read_unscoped {a : Text} (h : read a = .ok .unscoped) :
    a = unscopedText := by
  rcases read_cases h with ⟨-, ha⟩ | ⟨_, -, -, hm⟩ | ⟨_, _, -, -, hm⟩ | ⟨_, _, -, -, hm⟩
  · exact ha
  · exact absurd hm (by simp)
  · exact absurd hm (by simp)
  · exact absurd hm (by simp)

def Modifier.others (ms : List Modifier) : List Modifier := ms.filter (· ≠ .unscoped)

/-- checked arguments without `unscoped` -/
def Checked.withoutUnscoped (c : Checked) : Checked :=
  { c with modifiers := Modifier.others c.modifiers }

namespace Signature

variable (sig : Signature) (hu : unscopedText ∈ sig.keywords) (s : Subject)

/-- arguments without `unscoped`, those excepted that are parameters whatever they are -/
def withoutUnscoped (args : List Text) : List Text :=
  args.take sig.least ++ (args.drop sig.least).filter (· ≠ unscopedText)

include hu

theorem sortRest_filter (held : Nat) (as : List Text) :
    sig.sortRest s held (as.filter (· ≠ unscopedText)) =
      { sig.sortRest s held as with
        modifiers := Modifier.others (sig.sortRest s held as).modifiers } := by
  -- a modifier takes no room, so that the other arguments are sorted as before
  induction as generalizing held with
  | nil => rfl
  | cons a as ih =>
    by_cases ha : a = unscopedText
    · rw [List.filter_cons_of_neg (by simp [ha]), ih held, ha, sortRest,
        Modifier.read_unscopedText]
      have hk : Modifier.unscoped.keyword ∈ sig.keywords := hu
      simp only [if_pos hk, Modifier.others]
      rw [List.filter_cons_of_neg (by simp)]
    · rw [List.filter_cons_of_pos (by simp [ha]), sortRest, sortRest]
      cases hr : Modifier.read a with
      | ok m =>
        have hm : m ≠ .unscoped := by
          rintro rfl
          exact ha (Modifier.eq_of_read_unscoped hr)
        simp only [ih held]
        split
        · rw [Modifier.others, Modifier.others, List.filter_cons_of_pos (by simp [hm])]
        · rfl
      | error e =>
        cases e with
        | badArgument spec => simp only [ih held]
        | unknown =>
          simp only [ih held, ih (held + 1)]
          split <;> rfl

omit hu in
theorem least_le_of_isValid {args : List Text} (h : (sig.check s args).isValid = true) :
    sig.least ≤ args.length := by
  refine Nat.le_of_not_lt fun hlt => ?_
  have hdrop : args.drop sig.least = [] := List.drop_eq_nil_of_le (by omega)
  have hparams : sig.least ≤ (args.take sig.least ++
      (sig.sortRest s sig.least (args.drop sig.least)).params).length := of_decide_eq_true h
  rw [hdrop, List.length_append, List.length_take] at hparams
  have hnone : (sig.sortRest s sig.least []).params.length = 0 := rfl
  omega

/-- without `unscoped` the same parameters and the other modifiers are left, and the problems are
the same -/
theorem check_withoutUnscoped {args : List Text} (h : sig.least ≤ args.length) :
    sig.check s (sig.withoutUnscoped args) =
      (sig.check s args).withoutUnscoped := by
  have hlength : (args.take sig.least).length = sig.least := List.length_take_of_le h
  have htake : (sig.withoutUnscoped args).take sig.least = args.take sig.least :=
    List.take_left' hlength
  have hdrop : (sig.withoutUnscoped args).drop sig.least =
      (args.drop sig.least).filter (· ≠ unscopedText) := List.drop_left' hlength
  unfold check
  rw [htake, hdrop, sig.sortRest_filter hu]
  rfl

end Signature

/-! ## what is read off the modifiers -/

theorem Modifier.mem_others {m : Modifier} {ms : List Modifier} (h : m ≠ .unscoped) :
    m ∈ others ms ↔ m ∈ ms := by
  simp [others, h]

theorem Order.requested_others (ms : List Modifier) :
    requested (Modifier.others ms) = requested ms :=
  List.filter_congr fun o _ => decide_eq_decide.mpr (Modifier.mem_others (by simp))

theorem Checked.has_withoutUnscoped {m : Modifier} (h : m ≠ .unscoped) (c : Checked) :
    c.withoutUnscoped.has m = c.has m :=
  decide_eq_decide.mpr (Modifier.mem_others h)

theorem Checked.isUnscoped_withoutUnscoped (c : Checked) : c.withoutUnscoped.isUnscoped = false :=
  decide_eq_false (by simp [withoutUnscoped, Modifier.others])

theorem CommandKind.unscopedText_mem (kind : CommandKind) :
    unscopedText ∈ kind.signature.keywords := by
  cases kind <;> exact List.mem_cons_self

/-! ## commands with the modifier and without it -/

namespace Head

def isValid (h : Head) : Bool :=
  match CommandKind.ofName? h.name with
  | none => false
  | some kind => (kind.signature.check (.command h.name) h.params).isValid

/-- the command without its `unscoped` modifiers -/
def withoutUnscoped (h : Head) : Head :=
  match CommandKind.ofName? h.name with
  | none => h
  | some kind => { h with params := kind.signature.withoutUnscoped h.params }

theorem exists_kind {h : Head} (hv : h.isValid = true) :
    ∃ kind, CommandKind.ofName? h.name = some kind ∧
      (kind.signature.check (.command h.name) h.params).isValid = true := by
  cases hk : CommandKind.ofName? h.name with
  | none => simp [isValid, hk] at hv
  | some kind => exact ⟨kind, rfl, by simpa [isValid, hk] using hv⟩

theorem withoutUnscoped_name (h : Head) : h.withoutUnscoped.name = h.name := by
  unfold withoutUnscoped
  cases CommandKind.ofName? h.name <;> rfl

/-- what checking leaves of the command without its `unscoped` modifiers -/
theorem check_withoutUnscoped {h : Head} {kind : CommandKind}
    (hk : CommandKind.ofName? h.name = some kind)
    (hv : (kind.signature.check (.command h.name) h.params).isValid = true) :
    kind.signature.check (.command h.withoutUnscoped.name) h.withoutUnscoped.params =
      (kind.signature.check (.command h.name) h.params).withoutUnscoped := by
  have hparams : h.withoutUnscoped.params = kind.signature.withoutUnscoped h.params := by
    unfold withoutUnscoped
    rw [hk]
  rw [withoutUnscoped_name, hparams]
  exact kind.signature.check_withoutUnscoped kind.unscopedText_mem _
    (kind.signature.least_le_of_isValid _ hv)

end Head

/-- the same output and the same binding, whatever scope is left -/
def Outcome.Alike (o o' : Outcome) : Prop := o.output = o'.output ∧ o.binding = o'.binding

theorem Run.scoped_alike {σ α : Type} (u u' : Bool) (scope : Scope)
    (f : Scope → Run σ (α × Scope)) :
    Run.InStep (fun r r' => r.1 = r'.1) (Run.scoped u scope f) (Run.scoped u' scope f) :=
  .bind_same _ fun _ => .pure rfl

namespace Setting

variable {σ : Type} (set : Setting σ) (u u' : Bool) (body : Body σ) (scope : Scope)

theorem runCond_alike (condition : Text) :
    Run.InStep Outcome.Alike (set.runCond u condition body scope)
      (set.runCond u' condition body scope) := by
  unfold runCond
  refine .bind_same _ fun v => ?_
  split
  · refine (Run.scoped_alike u u' scope body).bind fun r r' hr => ?_
    exact .pure ⟨congrArg joinPieces hr, rfl⟩
  · exact .pure ⟨rfl, rfl⟩

theorem runCount_alike (init name op bound step : Text) :
    Run.InStep Outcome.Alike (set.runCount u init name op bound step body scope)
      (set.runCount u' init name op bound step body scope) := by
  unfold runCount
  split
  · exact .bind_same _ fun _ => .pure ⟨rfl, rfl⟩
  · refine .bind_same _ fun _ => (Run.scoped_alike u u' scope _).bind fun r r' hr => ?_
    exact .pure ⟨congrArg joinPieces hr, rfl⟩

theorem runEach_alike (orders : List Order) (name source : Text) :
    Run.InStep Outcome.Alike (set.runEach u orders name source body scope)
      (set.runEach u' orders name source body scope) := by
  unfold runEach
  refine .bind_same _ fun v => .bind_same _ fun items => .bind_same _ fun ordered => ?_
  refine (Run.scoped_alike u u' scope _).bind fun r r' hr => ?_
  exact .pure ⟨congrArg joinPieces hr, rfl⟩

theorem runDefine_alike (trim : Bool) (nameText : Text) (kind : Option Text) :
    Run.InStep Outcome.Alike (set.runDefine u trim nameText kind body scope)
      (set.runDefine u' trim nameText kind body scope) := by
  unfold runDefine
  refine .bind_same _ fun name => ?_
  show Run.InStep _ (if name.trim = [] then _ else _) (if name.trim = [] then _ else _)
  split
  · exact .bind_same _ fun _ => .pure ⟨rfl, rfl⟩
  · refine (Run.scoped_alike u u' scope body).bind fun r r' hr => ?_
    rw [hr]
    exact .bind_same _ fun v => .pure ⟨rfl, rfl⟩

theorem runMd_alike (verbatim : Bool) (rawBody : Text) :
    Run.InStep Outcome.Alike (set.runMd u verbatim rawBody body scope)
      (set.runMd u' verbatim rawBody body scope) := by
  unfold runMd
  split
  · exact .pure ⟨rfl, rfl⟩
  · refine (Run.scoped_alike u u' scope body).bind fun r r' hr => ?_
    rw [hr]
    exact .pure ⟨rfl, rfl⟩

/-- a command of some kind does the same with its `unscoped` and without it -/
theorem runKind_alike (kind : CommandKind) (args : Checked) (rawBody : Text) :
    Run.InStep Outcome.Alike (set.runKind kind args rawBody body scope)
      (set.runKind kind args.withoutUnscoped rawBody body scope) := by
  have hparams : args.withoutUnscoped.params = args.params := rfl
  have htrim : args.withoutUnscoped.has .trim = args.has .trim :=
    Checked.has_withoutUnscoped (by simp) args
  have hpure : args.withoutUnscoped.has .pure = args.has .pure :=
    Checked.has_withoutUnscoped (by simp) args
  have horders : Order.requested args.withoutUnscoped.modifiers =
      Order.requested args.modifiers := Order.requested_others args.modifiers
  unfold runKind
  rw [hparams, htrim, hpure, horders]
  split
  · exact set.runCond_alike _ _ body scope _
  · exact set.runCount_alike _ _ body scope _ _ _ _ _
  · exact set.runEach_alike _ _ body scope _ _ _
  · exact set.runDefine_alike _ _ body scope _ _ _
  · exact set.runMd_alike _ _ body scope _ _
  · exact .pure ⟨rfl, rfl⟩

/-- **A command does the same with its `unscoped` and without it**, up to the scope that it leaves:
its output, its binding, the problems noted and the world after it are the same, so that the host
was asked the same and as many random orders were taken. -/
theorem renderNode_withoutUnscoped {σ : Type} (set : Setting σ) {head : Head}
    (h : head.isValid = true) (rawBody : Text) (body : List Node) (scope : Scope) (w : World σ) :
    let shared := set.renderNode (.command head rawBody body) scope w
    let apart := set.renderNode (.command head.withoutUnscoped rawBody body) scope w
    head.withoutUnscoped.isValid = true ∧ head.withoutUnscoped.isUnscoped = false ∧
      shared.value.output = apart.value.output ∧ shared.value.binding = apart.value.binding ∧
      shared.problems = apart.problems ∧ shared.world = apart.world := by
  intro shared apart
  obtain ⟨kind, hk, hv⟩ := head.exists_kind h
  have hk' : CommandKind.ofName? head.withoutUnscoped.name = some kind := by
    rw [Head.withoutUnscoped_name, hk]
  have hcheck := Head.check_withoutUnscoped hk hv
  have hv' : (kind.signature.check (.command head.withoutUnscoped.name)
      head.withoutUnscoped.params).isValid = true := by
    rw [hcheck]
    exact hv
  have hstep : Run.InStep Outcome.Alike
      (set.renderNode (.command head rawBody body) scope)
      (set.renderNode (.command head.withoutUnscoped rawBody body) scope) := by
    rw [renderNode, renderNode, set.command_of_valid _ _ _ hk hv,
      set.command_of_valid _ _ _ hk' hv', hcheck]
    exact .bind_same _ fun _ => set.runKind_alike _ scope kind _ rawBody
  obtain ⟨⟨houtput, hbinding⟩, hproblems, hworld⟩ := hstep w
  refine ⟨?_, ?_, houtput, hbinding, hproblems, hworld⟩
  · unfold Head.isValid
    rw [hk']
    exact hv'
  · unfold Head.isUnscoped
    rw [hk']
    show Checked.isUnscoped (kind.signature.check _ _) = false
    rw [hcheck, Checked.isUnscoped_withoutUnscoped]

end Setting

/-- a walk through the items of `l` that leaves the last one behind -/
def Head.walking : Head :=
  ⟨"foreach".toList, ["x".toList, "l".toList, "unscoped".toList], false, []⟩

theorem renderNode_withoutUnscoped_walking :
    let set := Setting.top {} Host.bare []
    let scope : Scope := [("l".toList, .list [.null, .bool true])]
    let shared := set.renderNode (.command Head.walking [] [.text "y".toList]) scope
      ⟨(), .congruence 0⟩
    let apart := set.renderNode (.command Head.walking.withoutUnscoped [] [.text "y".toList]) scope
      ⟨(), .congruence 0⟩
    Head.walking.isValid = true ∧ shared.value.output = apart.value.output ∧
      shared.value.scope = scope.insert "x".toList (.bool true) ∧ apart.value.scope = scope := by
  intro set scope shared apart
  have hvalid : Head.walking.isValid = true := by decide
  obtain ⟨-, happart, houtput, -⟩ := set.renderNode_withoutUnscoped hvalid []
    [.text "y".toList] scope ⟨(), .congruence 0⟩
  refine ⟨hvalid, houtput, ?_, ?_⟩
  · have hkind : CommandKind.ofName? Head.walking.name = some .each := rfl
    have hcheck : CommandKind.each.signature.check (.command Head.walking.name)
        Head.walking.params = ⟨["x".toList, "l".toList], [.unscoped], true, []⟩ := rfl
    have hitems : set.resolve "l".toList scope = Setting.lookup "l".toList scope := by
      rw [Setting.resolve]
      rfl
    show (set.renderNode _ _ _).value.scope = _
    rw [Setting.renderNode, set.command_of_valid _ _ _ hkind (by rw [hcheck]), hcheck]
    show (set.runEach _ _ _ _ _ scope _).value.scope = _
    unfold Setting.runEach
    rw [hitems]
    rfl
  · show (set.renderNode _ _ _).value.scope = _
    rw [Setting.renderNode]
    exact (set.command_ensures _ _ _ scope happart _).1

end Stencil
