import Stencil.Proofs.Roles
import Stencil.Render.Template

/-!
# Counting loops

`for` checks its condition in front of every round.  The rounds that it would take without a bound
follow from each other, whatever the bound is; the bound only says after how many of them the loop
is left if the condition still holds.

* `Turn`                        where a loop stands in front of a check;
* `CountLoop`                   what a loop compares, renders and increments;
* `CountLoop.turn`              where it stands after so many rounds;
* `CountLoop.EndsAfter`         the condition does not hold for the first time after so many rounds;
* `CountLoop.run_of_endsAfter`, `CountLoop.run_of_outlasts`   the loop with a bound on its rounds;
* `Setting.renderNode_count`    what `for` does.
-/

namespace Stencil

/-- where a loop stands in front of a check -/
structure Turn (σ : Type) where
  scope : Scope
  world : World σ

/-- what a loop compares, what it renders in each round, and what it adds behind it -/
structure CountLoop (σ : Type) where
  set : Setting σ
  name : Text
  comparison : Comparison
  bound : Text
  increments : List Increment
  body : Body σ

namespace CountLoop

variable {σ : Type} (loop : CountLoop σ)

/-! ## rounds -/

section
variable (t : Turn σ)

/-- the check, for which the variable and the bound are looked up where the loop stands -/
def check : Result σ Bool :=
  loop.set.conditionHolds loop.name loop.comparison loop.bound t.scope t.world

def rendered : Result σ (List Text × Scope) := loop.body t.scope (loop.check t).world

def incremented : Result σ Scope :=
  loop.set.incrementAll loop.increments (loop.rendered t).value.2 (loop.rendered t).world

def pieces : List Text := (joinPieces (loop.rendered t).value.1).toList

def problems : List Problem :=
  (loop.check t).problems ++ ((loop.rendered t).problems ++ (loop.incremented t).problems)

def next : Turn σ := ⟨(loop.incremented t).value, (loop.incremented t).world⟩

end

/-- where the loop stands after so many rounds -/
def turn (first : Turn σ) : Nat → Turn σ
  | 0 => first
  | n + 1 => turn (loop.next first) n

theorem turn_succ (first : Turn σ) (n : Nat) :
    loop.turn first (n + 1) = loop.next (loop.turn first n) := by
  induction n generalizing first with
  | zero => rfl
  | succ n ih => exact ih (loop.next first)

/-- the condition holds in front of the first `k` rounds, and then it does not -/
def EndsAfter (first : Turn σ) (k : Nat) : Prop :=
  (∀ i < k, (loop.check (loop.turn first i)).value = true) ∧
    (loop.check (loop.turn first k)).value = false

instance (first : Turn σ) (k : Nat) : Decidable (loop.EndsAfter first k) :=
  inferInstanceAs (Decidable (_ ∧ _))

/-- a loop that does not end in so many rounds is still going on behind them -/
theorem outlasts_iff {first : Turn σ} {n : Nat} : (∀ k, loop.EndsAfter first k → n < k) ↔
    ∀ i ≤ n, (loop.check (loop.turn first i)).value = true := by
  constructor
  · intro h i
    induction i using Nat.strongRecOn with
    | ind i ih =>
      intro hi
      have hbefore : ∀ j < i, (loop.check (loop.turn first j)).value = true :=
        fun j hj => ih j hj (by omega)
      cases hcheck : (loop.check (loop.turn first i)).value with
      | true => rfl
      | false =>
        have hlate := h i ⟨hbefore, hcheck⟩
        omega
  · intro h k hends
    refine Nat.lt_of_not_le fun hk => ?_
    have hstop := hends.2
    rw [h k hk] at hstop
    cases hstop

/-! ## the loop -/

/-- what `n` rounds give together, `own` being noted behind the check that follows them -/
def result (first : Turn σ) (n : Nat) (own : List Problem) : Result σ (List Text × Scope) :=
  let last := loop.turn first n
  let rounds := (List.range n).map (loop.turn first)
  ⟨(rounds.flatMap loop.pieces, last.scope),
    rounds.flatMap loop.problems ++ ((loop.check last).problems ++ own), (loop.check last).world⟩

/-- the loop with a bound on its rounds -/
def run (stopped : Problem) (rounds : Nat) : Scope → Run σ (List Text × Scope) :=
  Run.loop (loop.set.conditionHolds loop.name loop.comparison loop.bound)
    (loop.set.countRound loop.increments loop.body) stopped rounds

theorem result_succ (first : Turn σ) (n : Nat) (own : List Problem) :
    let behind := loop.result (loop.next first) n own
    loop.result first (n + 1) own =
      ⟨(loop.pieces first ++ behind.value.1, behind.value.2),
        loop.problems first ++ behind.problems, behind.world⟩ := by
  intro behind
  have hrounds : (List.range (n + 1)).map (loop.turn first) =
      first :: (List.range n).map (loop.turn (loop.next first)) := by
    rw [List.range_succ_eq_map, List.map_cons, List.map_map]
    rfl
  rw [result]
  simp only [hrounds, List.flatMap_cons, List.append_assoc]
  rfl

section
variable {first : Turn σ} (stopped : Problem)

theorem run_stop (n : Nat) (h : (loop.check first).value = false) :
    loop.run stopped n first.scope first.world = loop.result first 0 [] := by
  have hleft : ∀ rest : Bool → Run σ (List Text × Scope), rest false = pure ([], first.scope) →
      (loop.set.conditionHolds loop.name loop.comparison loop.bound first.scope >>= rest)
        first.world = loop.result first 0 [] := by
    intro rest hrest
    rw [Run.bind_apply, ← check, h, hrest]
    rfl
  cases n with
  | zero => rw [run, Run.loop_zero, hleft _ rfl]
  | succ n => rw [run, Run.loop_succ, hleft _ rfl]

theorem run_exhausted (h : (loop.check first).value = true) :
    loop.run stopped 0 first.scope first.world = loop.result first 0 [stopped] := by
  rw [run, Run.loop_zero, Run.bind_apply, ← check, h]
  rfl

theorem run_round (n : Nat) (h : (loop.check first).value = true) :
    let behind := loop.run stopped n (loop.next first).scope (loop.next first).world
    loop.run stopped (n + 1) first.scope first.world =
      ⟨(loop.pieces first ++ behind.value.1, behind.value.2),
        loop.problems first ++ behind.problems, behind.world⟩ := by
  intro behind
  let goOn : Run σ (List Text × Scope) := do
    let r ← loop.set.countRound loop.increments loop.body first.scope
    let rest ← loop.run stopped n r.2
    pure (r.1.toList ++ rest.1, rest.2)
  have hround : loop.set.countRound loop.increments loop.body first.scope (loop.check first).world =
      ⟨(joinPieces (loop.rendered first).value.1, (loop.next first).scope),
        (loop.rendered first).problems ++ (loop.incremented first).problems,
        (loop.next first).world⟩ := by
    rw [Setting.countRound, Run.bind_apply, Run.bind_pure_apply]
    rfl
  have hbehind : goOn (loop.check first).world =
      ⟨(loop.pieces first ++ behind.value.1, behind.value.2),
        (loop.rendered first).problems ++ (loop.incremented first).problems ++ behind.problems,
        behind.world⟩ := by
    show (_ >>= _ : Run σ (List Text × Scope)) _ = _
    rw [Run.bind_apply, hround, Run.bind_pure_apply]
    rfl
  have hmore : loop.run stopped (n + 1) first.scope first.world =
      ⟨(goOn (loop.check first).world).value,
        (loop.check first).problems ++ (goOn (loop.check first).world).problems,
        (goOn (loop.check first).world).world⟩ := by
    rw [run, Run.loop_succ, Run.bind_apply, ← check, h]
    rfl
  rw [hmore, hbehind, problems, List.append_assoc (loop.check first).problems]

/-- a loop that ends in time takes as many rounds as it would without a bound -/
theorem run_of_endsAfter {k n : Nat} (hk : k ≤ n) (h : loop.EndsAfter first k) :
    loop.run stopped n first.scope first.world = loop.result first k [] := by
  induction k generalizing first n with
  | zero => exact loop.run_stop stopped n h.2
  | succ k ih =>
    obtain ⟨m, rfl⟩ : ∃ m, n = m + 1 := ⟨n - 1, by omega⟩
    have hfirst : (loop.check first).value = true := h.1 0 (Nat.zero_lt_succ k)
    have hbehind : loop.EndsAfter (loop.next first) k :=
      ⟨fun i hi => h.1 (i + 1) (Nat.succ_lt_succ hi), h.2⟩
    rw [loop.run_round stopped m hfirst, ih (Nat.le_of_succ_le_succ hk) hbehind, result_succ]

/-- a loop that does not end in time takes all the rounds that it may take -/
theorem run_of_outlasts {n : Nat} (h : ∀ k, loop.EndsAfter first k → n < k) :
    loop.run stopped n first.scope first.world = loop.result first n [stopped] := by
  rw [outlasts_iff] at h
  induction n generalizing first with
  | zero => exact loop.run_exhausted stopped (h 0 (Nat.le_refl 0))
  | succ n ih =>
    have hfirst : (loop.check first).value = true := h 0 (Nat.zero_le _)
    have hbehind : ∀ i ≤ n, (loop.check (loop.turn (loop.next first) i)).value = true :=
      fun i hi => h (i + 1) (Nat.succ_le_succ hi)
    rw [loop.run_round stopped n hfirst, ih hbehind, result_succ]

end

end CountLoop

/-! ## the command -/

namespace Setting

variable {σ : Type} (set : Setting σ) (scope : Scope) (w : World σ)

section
variable {head : Head} {init name op bound step : Text} {rest : List Text} {c : Comparison}
  (rawBody : Text) (hname : head.name = "for".toList)
  (hparams : head.params = init :: name :: op :: bound :: step :: rest)
  (hop : Comparison.ofText? op = some c)
include hname hparams hop

/-- what the arguments of `for` are taken for -/
theorem command_for (body : Body σ) :
    set.command head rawBody body scope = (do
      .noteAll (CommandKind.count.signature.check (.command head.name) head.params).problems
      .noteAll (incrementProblems step)
      let r ← Run.scoped (decide ("unscoped".toList ∈ rest)) scope fun inner => do
        let started ← set.startAll (entriesOf init) inner
        CountLoop.run ⟨set, name, c, bound, incrementsOf step, body⟩
          (.loopStopped name set.options.maxRounds) set.options.maxRounds started
      pure ⟨joinPieces r.1, none, r.2⟩) := by
  have hkind : CommandKind.ofName? head.name = some .count := by
    rw [hname]
    decide
  have hleast : CommandKind.count.signature.least ≤ head.params.length := by
    rw [hparams]
    exact Nat.le_add_left 5 rest.length
  have hscope : (CommandKind.count.signature.check (.command head.name) head.params).isUnscoped =
      decide ("unscoped".toList ∈ rest) := by
    rw [CommandKind.isUnscoped_check, hparams]
    rfl
  have hrun : set.runCount (decide ("unscoped".toList ∈ rest)) init name op bound step body scope =
      (do
        .noteAll (incrementProblems step)
        let r ← Run.scoped (decide ("unscoped".toList ∈ rest)) scope fun inner => do
          let started ← set.startAll (entriesOf init) inner
          CountLoop.run ⟨set, name, c, bound, incrementsOf step, body⟩
            (.loopStopped name set.options.maxRounds) set.options.maxRounds started
        pure ⟨joinPieces r.1, none, r.2⟩) := by
    rw [runCount, hop]
    rfl
  rw [set.command_of_params rawBody body scope hkind hleast, ← hrun, ← hscope, hparams]
  rfl

/-- a `for` whose variables are started and whose loop gives what `n` rounds give -/
theorem command_for_of_run {body : Body σ} {started : Result σ Scope} {n : Nat}
    {own : List Problem} (hstart : set.startAll (entriesOf init) scope w = started)
    (hrun :
      let loop : CountLoop σ := ⟨set, name, c, bound, incrementsOf step, body⟩
      loop.run (.loopStopped name set.options.maxRounds) set.options.maxRounds started.value
        started.world = loop.result ⟨started.value, started.world⟩ n own) :
    let loop : CountLoop σ := ⟨set, name, c, bound, incrementsOf step, body⟩
    let ended := loop.result ⟨started.value, started.world⟩ n own
    set.command head rawBody body scope w =
      ⟨⟨joinPieces ended.value.1, none, if "unscoped".toList ∈ rest then ended.value.2 else scope⟩,
        (CommandKind.count.signature.check (.command head.name) head.params).problems ++
          (incrementProblems step ++ (started.problems ++ ended.problems)), ended.world⟩ := by
  intro loop ended
  have hinner : (do
      let started ← set.startAll (entriesOf init) scope
      loop.run (.loopStopped name set.options.maxRounds) set.options.maxRounds started :
        Run σ (List Text × Scope)) w =
      ⟨ended.value, started.problems ++ ended.problems, ended.world⟩ := by
    rw [Run.bind_apply, hstart, hrun]
  rw [set.command_for scope rawBody hname hparams hop, Run.noteAll_bind_apply,
    Run.noteAll_bind_apply, Run.bind_pure_apply, Run.scoped, Run.bind_pure_apply, hinner]
  simp only [decide_eq_true_eq]

/-- **The rounds of `for`.**  Let `k` be the number of rounds in front of the first check at which
the condition does not hold, the variable and the bound being looked up anew at every check.  If the
bound on rounds is at least `k`, the body is rendered exactly `k` times; if it is less, or the
condition holds at every check, the body is rendered exactly as many times as the bound allows, and
one problem is noted behind the last check, a warning.  The bound is that of the setting whenever
the loop is run, whatever scope and world it starts from, so that loops inside each other do not
share it.  The output is that of the rounds that have one, joined. -/
theorem renderNode_count (nodes : List Node) :
    let args := CommandKind.count.signature.check (.command head.name) head.params
    let started := set.startAll (entriesOf init) scope w
    let first : Turn σ := ⟨started.value, started.world⟩
    let loop : CountLoop σ := ⟨set, name, c, bound, incrementsOf step, set.renderNodes nodes⟩
    let most := set.options.maxRounds
    let ended (n : Nat) (own : List Problem) : Result σ Outcome :=
      let rounds := (List.range n).map (loop.turn first)
      let last := loop.turn first n
      ⟨⟨joinPieces (rounds.flatMap loop.pieces), none,
          if "unscoped".toList ∈ rest then last.scope else scope⟩,
        args.problems ++ (incrementProblems step ++ (started.problems ++
          (rounds.flatMap loop.problems ++ ((loop.check last).problems ++ own)))),
        (loop.check last).world⟩
    (∀ k, loop.EndsAfter first k → k ≤ most →
      set.renderNode (.command head rawBody nodes) scope w = ended k []) ∧
    ((∀ k, loop.EndsAfter first k → most < k) →
      set.renderNode (.command head rawBody nodes) scope w =
        ended most [.loopStopped name most]) ∧
    (Problem.loopStopped name most).severity = .warning := by
  intro args started first loop most ended
  have hnode : set.renderNode (.command head rawBody nodes) scope =
      set.command head rawBody (set.renderNodes nodes) scope := by
    rw [renderNode]
  have hcommand {n : Nat} {own : List Problem}
      (hrun : loop.run (.loopStopped name most) most first.scope first.world =
        loop.result first n own) :
      set.renderNode (.command head rawBody nodes) scope w = ended n own := by
    rw [hnode]
    exact set.command_for_of_run scope w rawBody hname hparams hop rfl hrun
  refine ⟨fun k hends hk => ?_, fun hlate => ?_, rfl⟩
  · exact hcommand (loop.run_of_endsAfter _ hk hends)
  · exact hcommand (loop.run_of_outlasts _ hlate)

end

end Setting

/-- a loop that counts up to `n`, in the body of which another one counts `n` down -/
def Head.closingIn : Head :=
  ⟨"for".toList, ["i=0".toList, "i".toList, "<".toList, "#n#".toList, "i+=1".toList], false, []⟩

def Node.closingIn : List Node :=
  [.text "#i#".toList,
    .command ⟨"for".toList, ["n=#n#".toList, "n".toList, ">=".toList, "0".toList, "n+=-4".toList,
      "unscoped".toList], false, []⟩ [] [.text "#n#".toList]]

/-- two rounds are allowed: the inner loop is stopped after two rounds each time, and the outer one
ends in time for a low `n` only -/
theorem renderNode_count_closingIn :
    let set := Setting.top ⟨100, 2, none⟩ Host.bare []
    let scope (n : Int) : Scope := [("n".toList, .number (.ofInt n))]
    let loop : CountLoop Unit := ⟨set, "i".toList, .lt, "#n#".toList,
      [⟨"i".toList, "1".toList⟩], set.renderNodes Node.closingIn⟩
    let first (n : Int) : Turn Unit :=
      ⟨(scope n).insert "i".toList (.number .zero), ⟨(), .congruence 0⟩⟩
    let r (n : Int) := set.renderNode (.command Head.closingIn [] Node.closingIn) (scope n)
      ⟨(), .congruence 0⟩
    (loop.EndsAfter (first 9) 1 ∧ (r 9).value.output = some "0\n9\n5".toList ∧
      (r 9).problems = [.loopStopped "n".toList 2]) ∧
    ((∀ k, loop.EndsAfter (first 20) k → 2 < k) ∧
      (r 20).value.output = some "0\n20\n16\n1\n12\n8".toList ∧
      (r 20).problems = [.loopStopped "n".toList 2, .loopStopped "n".toList 2,
        .loopStopped "i".toList 2]) := by
  intro set scope loop first r
  have hname : Head.closingIn.name = "for".toList := rfl
  have hop : Comparison.ofText? "<".toList = some .lt := by decide
  have hcount (n : Int) :=
    set.renderNode_count (scope n) ⟨(), .congruence 0⟩ [] hname rfl hop Node.closingIn
  have hends : loop.EndsAfter (first 9) 1 := by decide +kernel
  have houtlasts : ∀ k, loop.EndsAfter (first 20) k → 2 < k :=
    loop.outlasts_iff.mpr (by decide +kernel)
  have hlow := (hcount 9).1 1 hends (by decide)
  have hhigh := (hcount 20).2.1 houtlasts
  refine ⟨⟨hends, ?_⟩, houtlasts, ?_⟩
  · rw [show r 9 = _ from hlow]
    decide +kernel
  · rw [show r 20 = _ from hhigh]
    decide +kernel

end Stencil
