import Stencil.Proofs.Between

/-!
# Blocks that do nothing

A command that is unknown or lacks parameters, or a condition that does not hold, does nothing with
its body.  Between two templates such a block leaves no trace but its problems: not even an empty
line, and the body is not rendered at all.

* `Signature.check_lacking`   arguments that are too few;
* `Head.Silent`               a command that does nothing in a scope, and the problems it notes;
* `Setting.command_silent`    what such a command does, whatever its body is;
* `Head.Silent.severities`    how bad its problems are;
* `Engine.render_silent`      a template with such a block in it is rendered as without it.
-/

namespace Stencil

/-! ## commands that do nothing -/

theorem Signature.check_lacking (sig : Signature) (s : Subject) {args : List Text}
    (h : args.length < sig.least) :
    sig.check s args = ⟨args, [], false, [.notEnoughParameters s sig.least args.length]⟩ := by
  have htake : args.take sig.least = args := List.take_of_length_le (Nat.le_of_lt h)
  have hdrop : args.drop sig.least = [] := List.drop_eq_nil_of_le (Nat.le_of_lt h)
  have hvalid : ¬sig.least ≤ args.length := Nat.not_le.mpr h
  unfold check
  rw [hdrop, htake, sortRest]
  simp only [List.append_nil, if_pos h, decide_eq_false hvalid]
  rfl

namespace Head

/-- the commands, by name and parameters, that do nothing in a scope, with the problems that each
of them notes: one that is unknown, one with too few parameters, and a condition on a variable that
is not truthy or not bound at all -/
inductive Silent (scope : Scope) : Text → List Text → List Problem → Prop
  | unknown {name : Text} (params : List Text) (h : CommandKind.ofName? name = none) :
    Silent scope name params [.unknownCommand name]
  | lacking {name : Text} {kind : CommandKind} {params : List Text}
    (hk : CommandKind.ofName? name = some kind) (h : params.length < kind.signature.least) :
    Silent scope name params
      [.notEnoughParameters (.command name) kind.signature.least params.length]
  | falsy {c : Text} (params : List Text) (hc : startsReference c = false)
    (h : ∀ v, scope.get? c = some v → v.isTruthy = false) :
    Silent scope CommandKind.cond.name (c :: params)
      ((CommandKind.cond.signature.check (.command CommandKind.cond.name) (c :: params)).problems ++
        if (scope.get? c).isNone then [.undefinedVariable c] else [])

theorem Silent.severities {scope : Scope} {name : Text} {params : List Text} {own : List Problem}
    (h : Silent scope name params own) :
    (CommandKind.ofName? name = none → own.map Problem.severity = [.error]) ∧
      ∀ kind, CommandKind.ofName? name = some kind → params.length < kind.signature.least →
        own.map Problem.severity = [.warning] := by
  cases h with
  | unknown _ h =>
    refine ⟨fun _ => rfl, fun kind hk => ?_⟩
    rw [h] at hk
    cases hk
  | lacking hk h =>
    refine ⟨fun hn => ?_, fun _ _ _ => rfl⟩
    rw [hk] at hn
    cases hn
  | falsy params hc h =>
    refine ⟨fun hn => absurd hn (by decide), fun kind hk hl => ?_⟩
    obtain rfl : CommandKind.cond = kind := Option.some.inj hk
    exact absurd hl (by simp [CommandKind.signature])

end Head

namespace Setting

variable {σ : Type} (set : Setting σ)

theorem lookup_falsy {c : Text} {scope : Scope}
    (h : ∀ v, scope.get? c = some v → v.isTruthy = false) (w : World σ) :
    ∃ v : Value, v.isTruthy = false ∧
      lookup c scope w = ⟨v, if (scope.get? c).isNone then [.undefinedVariable c] else [], w⟩ := by
  unfold lookup
  cases hv : scope.get? c with
  | none => exact ⟨.null, rfl, rfl⟩
  | some v => exact ⟨v, h v hv, rfl⟩

theorem runCond_falsy {c : Text} {scope : Scope} (hc : startsReference c = false)
    (h : ∀ v, scope.get? c = some v → v.isTruthy = false) (unscoped : Bool) (body : Body σ) :
    set.runCond unscoped c body scope = (do
      .noteAll (if (scope.get? c).isNone then [.undefinedVariable c] else [])
      pure (.skip scope)) := by
  funext w
  obtain ⟨v, hfalse, hv⟩ := lookup_falsy h w
  rw [runCond, resolve_name set hc, Run.bind_apply, hv, Run.noteAll_pure, if_neg (by simp [hfalse])]
  show (⟨_, _ ++ [], _⟩ : Result σ Outcome) = _
  rw [List.append_nil]
  rfl

/-- a silent command notes its problems and leaves the scope, and its body is not rendered -/
theorem command_silent {scope : Scope} {head : Head} {own : List Problem}
    (h : Head.Silent scope head.name head.params own) (rawBody : Text) (body : Body σ) :
    set.command head rawBody body scope = (do
      .noteAll own
      pure (.skip scope)) := by
  obtain ⟨name, params, isInline, source⟩ := head
  cases h with
  | unknown _ h => exact set.command_of_unknown rawBody body scope h
  | @lacking _ kind _ hk h =>
    have hcheck := Signature.check_lacking kind.signature (.command name) h
    have hvalid : (kind.signature.check (.command name) params).isValid = false := by rw [hcheck]
    rw [set.command_of_invalid rawBody body scope hk hvalid]
    show (Run.noteAll (kind.signature.check (.command name) params).problems >>= _) = _
    rw [hcheck]
  | @falsy c params hc h =>
    rw [set.command_of_valid rawBody body scope rfl rfl]
    show (Run.noteAll _ >>= fun _ => set.runCond _ c body scope) = _
    rw [set.runCond_falsy hc h]
    funext w
    rw [Run.bind_apply, Run.noteAll_pure, Run.noteAll_pure]
    rfl

end Setting

/-! ## a template with such a block -/

/-- **A block that does nothing leaves no trace but its problems**: put between two templates, of
which the first one and the body leave no command open and have no stray `end`, it changes neither
the output nor the scope, nor what is called and loaded.  Besides the problems of reading the body
only its own ones are noted, where the block stands. -/
theorem Engine.render_silent {σ : Type} (e : Engine σ) {above body : Text}
    (ha : Template.Balanced above) (hs : Template.Balanced body) (below : Text) (scope : Scope)
    {head name : Text} {params : List Text} {own : List Problem} (hd : '$' ∉ head)
    (hn : '\n' ∉ head) (hsplit : splitArguments head = name :: params) (he : name ≠ endName)
    (h : Head.Silent (e.render above scope).1.2 name params own) :
    let reached := e.render above scope
    let plain := e.render (Text.joinLines [above, below]) scope
    let whole := e.render (Text.joinLines [above, commandLine head, body, endLine, below]) scope
    let first := e.noted above scope
    let later := reached.2.noted below reached.1.2
    whole.1 = plain.1 ∧ whole.2.world = plain.2.world ∧
      plain.2.log.problems = e.log.problems ++
        ((Template.read above).problems ++ (Template.read below).problems ++ (first ++ later)) ∧
      whole.2.log.problems = e.log.problems ++
        ((Template.read above).problems ++
            (Token.problemsOf body ++ (Template.read below).problems) ++
          (first ++ (own ++ later))) ∧
      (CommandKind.ofName? name = none → own.map Problem.severity = [.error]) ∧
      (∀ kind, CommandKind.ofName? name = some kind → params.length < kind.signature.least →
        own.map Problem.severity = [.warning]) := by
  let node := Template.around ⟨name, params, false, commandLine head⟩ body
  let r := e.setting.renderNodes (Template.read above).nodes scope e.world
  let t := e.setting.renderNodes (Template.read below).nodes r.value.2 r.world
  have hbreak : '\n' ∉ commandLine head := by simp [commandLine, hn]
  have hread := Template.read_between ha below hs (LineShape.of_commandLine hd hsplit)
    (decide_eq_false he) hbreak
  have hreached : e.render above scope = _ := e.render_of_read rfl rfl
  have hnode : e.setting.renderNode node r.value.2 = (do
      .noteAll own
      pure (.skip r.value.2)) := by
    rw [hreached] at h
    exact e.setting.command_silent h _ _
  have hskip : e.setting.renderNodes
      ((Template.read above).nodes ++ node :: (Template.read below).nodes) scope e.world =
      ⟨(r.value.1 ++ t.value.1, t.value.2), r.problems ++ (own ++ t.problems), t.world⟩ :=
    e.setting.renderNodes_skipping _ _ rfl hnode
  have hwithout : e.setting.renderNodes
      ((Template.read above).nodes ++ (Template.read below).nodes) scope e.world =
      ⟨(r.value.1 ++ t.value.1, t.value.2), r.problems ++ t.problems, t.world⟩ :=
    e.setting.renderNodes_append_eq _ _ scope e.world
  intro reached plain whole first later
  have hlater : later = t.problems := by
    show (reached.2.setting.renderNodes _ reached.1.2 reached.2.world).problems = _
    rw [show reached = _ from hreached]
    rfl
  have hplain : plain = _ := e.render_of_read (Template.read_pair ha below) hwithout
  have hwhole : whole = _ := e.render_of_read hread hskip
  refine ⟨?_, ?_, ?_, ?_, h.severities⟩
  · rw [hwhole, hplain]
  · rw [hwhole, hplain]
  · rw [hplain, hlater]
    rfl
  · rw [hwhole, hlater, ← hs.problems_eq]
    rfl

/-- a definition, as a template of its own -/
def Template.greeting : Text := "$define x$\nhi\n$end$".toList

/-- a definition with a name in it that is not bound, and a reference to what it defines -/
def Template.unrendered : Text := "$define y$\n#nope#\n$end$\n#y#".toList

theorem balanced_greeting : Template.Balanced Template.greeting :=
  Template.balanced_of_problems_eq_nil (by cbv)

theorem balanced_unrendered : Template.Balanced Template.unrendered :=
  Template.balanced_of_problems_eq_nil (by cbv)

/-- a condition on a name that is not bound, with a word too many -/
theorem render_silent_unbound :
    let e := Engine.new {} Host.bare () .congruence
    let plain := e.render (Text.joinLines [Template.greeting, "#x#".toList]) []
    let whole := e.render (Text.joinLines [Template.greeting, commandLine "if nope also".toList,
      Template.unrendered, endLine, "#x#".toList]) []
    Head.Silent (e.render Template.greeting []).1.2 "if".toList ["nope".toList, "also".toList]
        [.tooManyParameters (.command "if".toList) 1 ["also".toList],
          .undefinedVariable "nope".toList] ∧
      whole.1 = plain.1 ∧ whole.2.world = plain.2.world := by
  have hnone : ((Engine.new {} Host.bare () .congruence).render Template.greeting
      []).1.2.get? "nope".toList = none := by decide +kernel
  have hsplit : splitArguments "if nope also".toList =
      ["if".toList, "nope".toList, "also".toList] := by cbv
  have hown : (CommandKind.cond.signature.check (.command CommandKind.cond.name)
      ["nope".toList, "also".toList]).problems =
      [.tooManyParameters (.command "if".toList) 1 ["also".toList]] := by decide +kernel
  have hsilent := Head.Silent.falsy ["also".toList]
    (rfl : startsReference "nope".toList = false) (fun v hv => by rw [hnone] at hv; cases hv)
  rw [hown, hnone] at hsilent
  obtain ⟨hvalue, hworld, -⟩ := (Engine.new {} Host.bare () .congruence).render_silent
    balanced_greeting balanced_unrendered "#x#".toList [] (by decide) (by decide) hsplit (by decide) hsilent
  exact ⟨hsilent, hvalue, hworld⟩

end Stencil
