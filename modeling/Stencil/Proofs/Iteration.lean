import Stencil.Proofs.Orders
import Stencil.Proofs.Roles
import Stencil.Render.Template

/-!
# Iterations

`foreach` puts the items of a list in the order that its arguments ask for, and runs its body once
for each of them, in a scope where the variable is that item.

* `Order.asked`, `Order.clash`   the orders that arguments ask for, and what is noted if they are
                             several;
* `Setting.inOrder_arranges`   the items in the first of some orders;
* `Round`, `Rounds`          one run of the body, and runs that follow each other;
* `exists_rounds`            what the rounds of `foreach` do together;
* `Setting.command_each`     what `foreach` does.
-/

namespace Stencil

/-! ## the orders asked for -/

namespace Order

/-- the orders whose words are among some arguments, each once, the ones that go before the others
in front -/
def asked (args : List Text) : List Order := all.filter fun o => args.contains o.keyword

/-- what is noted about several orders: all but the first one are ignored -/
def clash : List Order → List Problem
  | o :: _ :: _ => [.severalOrders o]
  | _ => []

theorem length_clash (orders : List Order) :
    (clash orders).length = if 2 ≤ orders.length then 1 else 0 := by
  match orders with
  | [] => rfl
  | [o] => rfl
  | o :: p :: rest =>
    have h : 2 ≤ (o :: p :: rest).length := by simp
    rw [if_pos h]
    rfl

theorem severity_of_mem_clash {orders : List Order} {p : Problem} (h : p ∈ clash orders) :
    p.severity = .warning := by
  match orders, h with
  | o :: _ :: _, h => rw [List.mem_singleton.mp h]; rfl

variable (s : Subject) (name source : Text) (rest : List Text)

/-- the orders that `foreach` is given are those whose words stand behind its parameters -/
theorem requested_each : requested
    (CommandKind.each.signature.check s (name :: source :: rest)).modifiers = asked rest := by
  refine List.filter_congr fun o _ => ?_
  have hbare : Modifier.order o ∈ Modifier.bare := by cases o <;> decide
  have hk : (Modifier.order o).keyword ∈ CommandKind.each.signature.keywords := by
    cases o <;> decide
  rw [List.contains_eq_mem, decide_eq_decide]
  exact CommandKind.each.signature.mem_modifiers_check_iff_of_bare hbare hk

end Order

/-- some items in the first of the orders that are asked for, or as they are: more than one order
gives one problem -/
theorem Setting.inOrder_arranges {σ : Type} (orders : List Order) (items : List Value)
    (w : World σ) :
    ∃ (ys : List Value) (w' : World σ), inOrder orders items w = ⟨ys, Order.clash orders, w'⟩ ∧
      Order.Arranges items ys orders.head? ∧ w'.host = w.host ∧
      (orders.head? ≠ some .randomized → w' = w) ∧
      (orders.head? = some .randomized → w.generator.shuffle items = (ys, w'.generator)) := by
  match orders with
  | [] => exact ⟨items, w, rfl, rfl, rfl, fun _ => rfl, nofun⟩
  | [o] =>
    obtain ⟨ys, w', hrun, harr, hhost, hworld, hrandom⟩ := o.rearrange_arranges items w
    exact ⟨ys, w', hrun, harr, hhost, fun hne => hworld fun ho => hne (congrArg some ho),
      fun ho => hrandom (Option.some.inj ho)⟩
  | o :: p :: rest =>
    obtain ⟨ys, w', hrun, harr, hhost, hworld, hrandom⟩ := o.rearrange_arranges items w
    refine ⟨ys, w', ?_, harr, hhost, fun hne => hworld fun ho => hne (congrArg some ho),
      fun ho => hrandom (Option.some.inj ho)⟩
    rw [inOrder, if_pos (List.cons_ne_nil p rest), Run.bind_apply, Run.note_apply]
    dsimp only
    rw [hrun]
    rfl

/-! ## rounds -/

/-- one run of a body: the item that it is for, and the scope and the world in front of it -/
structure Round (σ : Type) where
  item : Value
  scope : Scope
  world : World σ

section
variable {σ : Type} (name : Text) (body : Body σ)

namespace Round

def start (r : Round σ) : Scope := r.scope.insert name r.item

def run (r : Round σ) : Result σ (List Text × Scope) := body (r.start name) r.world

def pieces (r : Round σ) : List Text := (joinPieces (r.run name body).value.1).toList

theorem get?_start (r : Round σ) : (r.start name).get? name = some r.item := by
  rw [start, Table.get?_insert, if_pos rfl]

end Round

/-- rounds that follow each other, from a scope and a world on: each one goes on where the one in
front of it left off -/
inductive Rounds : Scope → World σ → List (Round σ) → Scope → World σ → Prop
  | done (scope : Scope) (w : World σ) : Rounds scope w [] scope w
  | round {r : Round σ} {rs : List (Round σ)} {scope : Scope} {w : World σ}
      (hrest : Rounds (r.run name body).value.2 (r.run name body).world rs scope w) :
      Rounds r.scope r.world (r :: rs) scope w

theorem eachRound_cons (r : Round σ) (vs : List Value) :
    let behind := Setting.eachRound name body vs (r.run name body).value.2 (r.run name body).world
    Setting.eachRound name body (r.item :: vs) r.scope r.world =
      ⟨(r.pieces name body ++ behind.value.1, behind.value.2),
        (r.run name body).problems ++ behind.problems, behind.world⟩ := by
  intro behind
  rw [Setting.eachRound, Run.bind_apply, Run.bind_pure_apply]
  rfl

/-- there is one round for each item, in the order of the items -/
theorem exists_rounds (items : List Value) (scope : Scope) (w : World σ) :
    ∃ (rs : List (Round σ)) (scope' : Scope) (w' : World σ), rs.map Round.item = items ∧
      Rounds name body scope w rs scope' w' ∧
      Setting.eachRound name body items scope w =
        ⟨(rs.flatMap (Round.pieces name body), scope'),
          rs.flatMap fun r => (r.run name body).problems, w'⟩ := by
  induction items generalizing scope w with
  | nil => exact ⟨[], scope, w, rfl, .done scope w, rfl⟩
  | cons v vs ih =>
    let r : Round σ := ⟨v, scope, w⟩
    obtain ⟨rs, scope', w', hitems, hrounds, hrun⟩ :=
      ih (r.run name body).value.2 (r.run name body).world
    have hfirst := eachRound_cons name body r vs
    rw [hrun] at hfirst
    exact ⟨r :: rs, scope', w', congrArg (v :: ·) hitems, .round (r := r) hrounds, hfirst⟩

end

/-! ## the command -/

namespace Setting

variable {σ : Type} (set : Setting σ) (body : Body σ) (scope : Scope) (w : World σ)

/-- `foreach` reads its source, puts the items in order, and goes through them -/
theorem runEach_of_list {unscoped : Bool} {orders : List Order} {name source : Text}
    {read : Result σ Value} {items ordered : List Value} {noted noted' : List Problem}
    {start stop : World σ} {pieces : List Text} {after : Scope}
    (hread : set.resolve source scope w = read) (hitems : read.value = .list items)
    (horder : inOrder orders items read.world = ⟨ordered, noted, start⟩)
    (heach : eachRound name body ordered scope start = ⟨(pieces, after), noted', stop⟩) :
    set.runEach unscoped orders name source body scope w =
      ⟨⟨joinPieces pieces, none, if unscoped then after else scope⟩,
        read.problems ++ (noted ++ noted'), stop⟩ := by
  have hlist : (itemsOf source read.value : Run σ (List Value)) = pure items := by rw [hitems]; rfl
  have hscoped : Run.scoped unscoped scope (eachRound name body ordered) start =
      ⟨(pieces, if unscoped then after else scope), noted', stop⟩ := by
    rw [Run.scoped, Run.bind_pure_apply, heach]
  rw [runEach, Run.bind_apply, hread, hlist, pure_bind, Run.bind_apply, horder,
    Run.bind_pure_apply, hscoped]

/-- what the arguments of `foreach` are taken for -/
theorem command_foreach {head : Head} {name source : Text} {rest : List Text} (rawBody : Text)
    (hname : head.name = "foreach".toList) (hparams : head.params = name :: source :: rest) :
    set.command head rawBody body scope = (do
      .noteAll (CommandKind.each.signature.check (.command head.name) head.params).problems
      set.runEach (decide ("unscoped".toList ∈ rest)) (Order.asked rest) name source body scope) := by
  have hkind : CommandKind.ofName? head.name = some .each := by
    rw [hname]
    decide
  have hleast : CommandKind.each.signature.least ≤ head.params.length := by
    rw [hparams]
    exact Nat.le_add_left 2 rest.length
  have hscope : (CommandKind.each.signature.check (.command head.name) head.params).isUnscoped =
      decide ("unscoped".toList ∈ rest) := by
    rw [CommandKind.isUnscoped_check, hparams]
    rfl
  rw [set.command_of_params rawBody body scope hkind hleast, ← hscope, hparams,
    ← Order.requested_each (.command head.name) name source rest]
  rfl

/-- **The items of `foreach`.**  Let the source be a list.  The body is run once for each of its
items, with the variable bound to the item, and each round goes on where the one in front of it left
off.  The items come in the first of the orders that are asked for, or as they are if there is none,
and only the random order leaves a choice; one problem is noted, a warning, if several are asked for.
Putting the items in order leaves the host as it is, and the generator as well unless the order is
random: then it is any generator's choice, and the generator that comes with the world makes it.
Unless `unscoped` is asked for, the scope behind the command is the one in front of it. -/
theorem command_each {head : Head} {name source : Text} {rest : List Text} {items : List Value}
    (rawBody : Text) (hname : head.name = "foreach".toList)
    (hparams : head.params = name :: source :: rest)
    (hsource : (set.resolve source scope w).value = .list items) :
    let args := CommandKind.each.signature.check (.command head.name) head.params
    let read := set.resolve source scope w
    let orders := Order.asked rest
    ∃ (ordered : List Value) (rounds : List (Round σ)) (start stop : World σ) (after : Scope),
      Order.Arranges items ordered orders.head? ∧ ordered.Perm items ∧
      (orders.head? ≠ some .randomized →
        ∀ ys, Order.Arranges items ys orders.head? → ys = ordered) ∧
      start.host = read.world.host ∧ (orders.head? ≠ some .randomized → start = read.world) ∧
      (orders.head? = some .randomized →
        read.world.generator.shuffle items = (ordered, start.generator)) ∧
      rounds.map Round.item = ordered ∧ Rounds name body scope start rounds after stop ∧
      (∀ r ∈ rounds, (r.start name).get? name = some r.item) ∧
      set.command head rawBody body scope w =
        ⟨⟨joinPieces (rounds.flatMap (Round.pieces name body)), none,
          if "unscoped".toList ∈ rest then after else scope⟩,
        args.problems ++ (read.problems ++ (Order.clash orders ++
          rounds.flatMap fun r => (r.run name body).problems)), stop⟩ ∧
      ("unscoped".toList ∉ rest → (set.command head rawBody body scope w).value.bound = scope) ∧
      (Order.clash orders).length = (if 2 ≤ orders.length then 1 else 0) ∧
      (∀ p ∈ Order.clash orders, p.severity = .warning) := by
  intro args read orders
  obtain ⟨ordered, start, horder, harranges, hhost, hworld, hrandom⟩ :=
    inOrder_arranges orders items read.world
  obtain ⟨rounds, after, stop, hitems, hrounds, heach⟩ := exists_rounds name body ordered scope start
  have hrun : set.command head rawBody body scope w =
      ⟨⟨joinPieces (rounds.flatMap (Round.pieces name body)), none,
        if "unscoped".toList ∈ rest then after else scope⟩,
      args.problems ++ (read.problems ++ (Order.clash orders ++
        rounds.flatMap fun r => (r.run name body).problems)), stop⟩ := by
    rw [set.command_foreach body scope rawBody hname hparams, Run.bind_apply]
    dsimp only [Run.noteAll]
    rw [runEach_of_list set body scope w rfl hsource horder heach]
    simp only [decide_eq_true_eq, args, read]
  refine ⟨ordered, rounds, start, stop, after, harranges, harranges.perm, ?_, hhost, hworld,
    hrandom, hitems, hrounds, fun r _ => r.get?_start name, hrun, fun hscoped => ?_,
    Order.length_clash orders, fun p => Order.severity_of_mem_clash⟩
  · exact fun hfixed ys hys => hys.unique hfixed harranges
  · rw [hrun, if_neg hscoped]
    rfl

/-- a walk through items of all kinds for which three orders are asked -/
def walkedItems : List Value :=
  [.string "b".toList, .number (.nan false), .bool true, .number .negZero, .string "10".toList,
    .number .zero, .null, .string "2".toList, .string "b".toList, .number .one]

theorem command_each_mixed :
    let set := Setting.top {} Host.bare []
    let scope : Scope := [("l".toList, .list walkedItems)]
    let rest := ["randomized".toList, "increasing".toList, "decreasing".toList]
    let head : Head := ⟨"foreach".toList, "x".toList :: "l".toList :: rest, false, []⟩
    let body := set.renderNodes [.text "#x#".toList]
    let w : World Unit := ⟨(), .congruence 0⟩
    (set.resolve "l".toList scope w).value = .list walkedItems ∧
      ∃ (ordered : List Value) (rounds : List (Round Unit)) (stop : World Unit) (after : Scope),
        NumbersFirst (fun m n => m.Le n) walkedItems ordered ∧ ordered.length = 10 ∧
        rounds.map Round.item = ordered ∧ Rounds "x".toList body scope w rounds after stop ∧
        (set.command head [] body scope w).value.bound = scope ∧
        (set.command head [] body scope w).problems =
          .severalOrders .increasing :: rounds.flatMap fun r => (r.run "x".toList body).problems := by
  intro set scope rest head body w
  have hsource : set.resolve "l".toList scope w = ⟨.list walkedItems, [], w⟩ := by
    rw [Setting.resolve]
    rfl
  have hitems : (set.resolve "l".toList scope w).value = .list walkedItems := by rw [hsource]
  have hname : head.name = "foreach".toList := rfl
  have hparams : head.params = "x".toList :: "l".toList :: rest := rfl
  obtain ⟨ordered, rounds, start, stop, after, harranges, hperm, -, -, hworld, -, hmap, hrounds, -,
    hrun, hscoped, -⟩ := set.command_each body scope w [] hname hparams hitems
  have horders : Order.asked rest = [.increasing, .decreasing, .randomized] := by decide
  rw [horders] at harranges hworld hrun
  rw [hsource] at hworld hrun
  obtain rfl : start = w := hworld (by decide)
  refine ⟨hitems, ordered, rounds, stop, after, harranges, hperm.length_eq, hmap, hrounds,
    hscoped (by decide), ?_⟩
  rw [hrun]
  rfl

end Setting

end Stencil
