import Stencil.Proofs.Paths
import Stencil.Proofs.Roles

/-!
# Chains of modifiers

The modifiers of a reference are applied from left to right, each to what the ones in front of it
give.  One that does not apply to the kind of value that it meets leaves the value as it is and is
noted, so that it might as well not be there; and nothing is applied to null.

* `Modifier.appliesTo`       the kinds of values that a modifier applies to;
* `Link`, `Setting.after`    a modifier with the value that it is applied to, and what it does;
* `Setting.Chain`            links that are reached one after the other;
* `Setting.Chain.applying`   the links whose modifiers apply are a chain by themselves;
* `Setting.exists_chain`, `Setting.Chain.applyAll_eq`   modifiers are applied in a chain, and what
                             they do together is what its links do;
* `Setting.evaluate_chain`   the chain of a reference, with the modifiers that do not apply and
                             without them.
-/

namespace Stencil

/-! ## what applies to what -/

namespace Modifier

def isForTexts : Modifier → Bool
  | uppercase => true
  | lowercase => true
  | capitalize => true
  | capitalizeFirst => true
  | trim => true
  | parse _ => true
  | load _ => true
  | _ => false

/-- whether a modifier takes an item or an entry -/
def isIndex : Modifier → Bool
  | index _ => true
  | _ => false

/-- whether a modifier applies to a value: that is a matter of the kind of the value alone -/
def appliesTo (m : Modifier) : Value → Bool
  | .string _ => m.isForTexts
  | .list _ => m.isIndex
  | .map _ => m.isIndex
  | .callable _ => m = .call
  | .null => false
  | .bool _ => false
  | .number _ => false

end Modifier

/-- a modifier that is reached, with the value and the world in front of it -/
structure Link (σ : Type) where
  modifier : Modifier
  before : Value
  world : World σ

def Link.applies {σ : Type} (l : Link σ) : Bool := l.modifier.appliesTo l.before

namespace Setting

variable {σ : Type} (set : Setting σ) (s : Subject) (scope : Scope)

/-- what the modifier of a link does -/
def after (l : Link σ) : Result σ Value :=
  set.apply s l.modifier (set.indexOf l.modifier scope) l.before scope l.world

/-- links that are reached one after the other, from a value and a world on: no value in front of
them is null -/
inductive Chain : Value → World σ → List (Link σ) → Value → World σ → Prop
  | done (v : Value) (w : World σ) : Chain v w [] v w
  | link {l : Link σ} {ls : List (Link σ)} {u : Value} {w : World σ}
      (hnull : l.before.isNull = false)
      (hrest : Chain (set.after s scope l).value (set.after s scope l).world ls u w) :
      Chain l.before l.world (l :: ls) u w

def noted (ls : List (Link σ)) : List Problem := ls.flatMap fun l => (set.after s scope l).problems

/-- what is noted about modifiers behind null -/
def skipped : List Modifier → List Problem
  | [] => []
  | m :: _ => [.nullBefore s m]

variable {s scope}

theorem apply_of_not_appliesTo {m : Modifier} {v : Value} (hnull : v.isNull = false)
    (h : m.appliesTo v = false) (index : Run σ Value) :
    set.apply s m index v scope = leave s m v := by
  cases v with
  | null => cases hnull
  | bool b => cases m <;> rfl
  | number n => cases m <;> rfl
  | string t =>
    cases m with
    | call => rfl
    | index expr => rfl
    | unscoped => rfl
    | pure => rfl
    | order o => rfl
    | _ => cases h
  | list items =>
    cases m with
    | index expr => cases h
    | _ => rfl
  | map entries =>
    cases m with
    | index expr => cases h
    | _ => rfl
  | callable f =>
    cases m with
    | call => cases h
    | _ => rfl

theorem after_of_not_applies {l : Link σ} (hnull : l.before.isNull = false)
    (h : l.applies = false) : set.after s scope l =
      ⟨l.before, [.doesNotApply l.modifier s l.before.typeName], l.world⟩ := by
  rw [after, set.apply_of_not_appliesTo hnull h]
  rfl

/-- what comes after null: one problem is noted, whatever the setting -/
theorem applyAll_null_eq (rest : List Modifier) {u : Value} (h : rest ≠ [] → u = .null)
    (w : World σ) : set.applyAll s rest u scope w = ⟨u, skipped s rest, w⟩ := by
  cases rest with
  | nil =>
    rw [applyAll_nil]
    rfl
  | cons m ms =>
    obtain rfl := h (List.cons_ne_nil m ms)
    rw [set.applyAll_null scope s rfl]
    rfl

theorem applyAll_link {l : Link σ} (hnull : l.before.isNull = false) (ms : List Modifier) :
    set.applyAll s (l.modifier :: ms) l.before scope l.world =
      let r := set.after s scope l
      let behind := set.applyAll s ms r.value scope r.world
      ⟨behind.value, r.problems ++ behind.problems, behind.world⟩ := by
  rw [set.applyAll_cons hnull, Run.bind_apply]
  rfl

variable {set}

theorem noted_cons (l : Link σ) (ls : List (Link σ)) : set.noted s scope (l :: ls) =
    (set.after s scope l).problems ++ set.noted s scope ls := rfl

namespace Chain

variable {v u : Value} {w w' : World σ} {ls : List (Link σ)}

theorem notNull (h : set.Chain s scope v w ls u w') : ∀ l ∈ ls, l.before.isNull = false := by
  induction h with
  | done => exact fun l hl => absurd hl List.not_mem_nil
  | link hnull _ ih => exact List.forall_mem_cons.mpr ⟨hnull, ih⟩

/-- the links whose modifiers apply are a chain by themselves -/
theorem applying (h : set.Chain s scope v w ls u w') :
    set.Chain s scope v w (ls.filter Link.applies) u w' := by
  induction h with
  | done v w => exact .done v w
  | @link l ls u w hnull _ ih =>
    cases happlies : l.applies with
    | true =>
      rw [List.filter_cons_of_pos happlies]
      exact .link hnull ih
    | false =>
      rw [set.after_of_not_applies hnull happlies] at ih
      rw [List.filter_cons_of_neg (Bool.eq_false_iff.mp happlies)]
      exact ih

/-- modifiers that are reached one after the other do what their links do, and then comes the rest -/
theorem applyAll_eq (h : set.Chain s scope v w ls u w') {rest : List Modifier}
    (hrest : rest ≠ [] → u = .null) :
    set.applyAll s (ls.map Link.modifier ++ rest) v scope w =
      ⟨u, set.noted s scope ls ++ skipped s rest, w'⟩ := by
  induction h with
  | done v w => exact set.applyAll_null_eq rest hrest w
  | @link l ls u w hnull _ ih =>
    rw [List.map_cons, List.cons_append, set.applyAll_link hnull]
    dsimp only
    rw [ih hrest, noted_cons, List.append_assoc]

end Chain

/-- a reference does what the links of its chain do, behind what its arguments and its first value do -/
theorem evaluate_of_chain {r : Reference} {args : Checked} {base : Result σ Value} {u : Value}
    {w w' : World σ} {ls : List (Link σ)} {rest : List Modifier}
    (hargs : Reference.signature.check (.reference r.name) r.specifiers = args)
    (hbase : baseValue r.name args.params.head? scope w = base)
    (hms : args.modifiers = ls.map Link.modifier ++ rest)
    (h : set.Chain (.reference r.name) scope base.value base.world ls u w')
    (hrest : rest ≠ [] → u = .null) :
    set.evaluate r scope w = ⟨u, args.problems ++ (base.problems ++
      (set.noted (.reference r.name) scope ls ++ skipped (.reference r.name) rest)), w'⟩ := by
  subst hargs hbase
  rw [evaluate, Run.bind_apply, Run.bind_apply, hms]
  dsimp only [Run.noteAll]
  rw [h.applyAll_eq hrest]

variable (set s scope)

/-- modifiers are applied one after the other, up to the end or up to null -/
theorem exists_chain (ms : List Modifier) (v : Value) (w : World σ) :
    ∃ (ls : List (Link σ)) (rest : List Modifier) (u : Value) (w' : World σ),
      ms = ls.map Link.modifier ++ rest ∧ set.Chain s scope v w ls u w' ∧
        (rest ≠ [] → u = .null) := by
  induction ms generalizing v w with
  | nil => exact ⟨[], [], v, w, rfl, .done v w, fun h => absurd rfl h⟩
  | cons m ms ih =>
    cases hnull : v.isNull with
    | true =>
      have hv : v = .null := by
        cases v with
        | null => rfl
        | _ => cases hnull
      exact ⟨[], m :: ms, v, w, rfl, .done v w, fun _ => hv⟩
    | false =>
      let l : Link σ := ⟨m, v, w⟩
      obtain ⟨ls, rest, u, w', hms, hchain, hrest⟩ :=
        ih (set.after s scope l).value (set.after s scope l).world
      exact ⟨l :: ls, rest, u, w', congrArg (m :: ·) hms, .link (l := l) hnull hchain, hrest⟩

/-- **The modifiers of a reference** are applied from left to right to the value that it starts from,
up to the last one or up to null.  One that does not apply to the value that it meets adds one
problem, and the value and the world stay as they are.  Without the specifiers that spell these, a
reference has the same value and leaves the same world, and the other problems are noted.  Behind
null one problem is noted if there are modifiers left, and no more happens, whatever they are and
whatever the setting. -/
theorem evaluate_chain (r : Reference) (w : World σ) :
    let s := Subject.reference r.name
    let args := Reference.signature.check s r.specifiers
    let base := baseValue r.name args.params.head? scope w
    ∃ (ls : List (Link σ)) (rest : List Modifier) (u : Value) (w' : World σ),
      args.modifiers = ls.map Link.modifier ++ rest ∧
      set.Chain s scope base.value base.world ls u w' ∧
      (rest ≠ [] → u = .null) ∧
      set.evaluate r scope w = ⟨u, args.problems ++ (base.problems ++
        (set.noted s scope ls ++ skipped s rest)), w'⟩ ∧
      (∀ l ∈ ls, l.applies = false → set.after s scope l =
        ⟨l.before, [.doesNotApply l.modifier s l.before.typeName], l.world⟩) ∧
      (∃ specifiers : List Text, specifiers.Sublist r.specifiers ∧
        Reference.signature.check s specifiers =
          { args with modifiers := (ls.filter Link.applies).map Link.modifier ++ rest } ∧
        set.evaluate ⟨r.name, specifiers⟩ scope w = ⟨u, args.problems ++ (base.problems ++
          (set.noted s scope (ls.filter Link.applies) ++ skipped s rest)), w'⟩) ∧
      (rest ≠ [] → ∀ (set' : Setting σ) (scope' : Scope) (w'' : World σ),
        set'.applyAll s rest u scope' w'' = ⟨.null, skipped s rest, w''⟩) := by
  intro s args base
  obtain ⟨ls, rest, u, w', hms, hchain, hrest⟩ :=
    set.exists_chain s scope args.modifiers base.value base.world
  have hfewer : ((ls.filter Link.applies).map Link.modifier ++ rest).Sublist args.modifiers := by
    rw [hms]
    exact (List.filter_sublist.map Link.modifier).append (List.Sublist.refl rest)
  obtain ⟨specifiers, hsublist, hcheck⟩ := Reference.signature.exists_check_of_sublist hfewer
  refine ⟨ls, rest, u, w', hms, hchain, hrest, ?_, ?_, ⟨specifiers, hsublist, hcheck, ?_⟩, ?_⟩
  · exact evaluate_of_chain rfl rfl hms hchain hrest
  · exact fun l hl happlies => set.after_of_not_applies (hchain.notNull l hl) happlies
  · have hrun := evaluate_of_chain (r := ⟨r.name, specifiers⟩) hcheck rfl rfl hchain.applying hrest
    exact hrun
  · intro hne set' scope' w''
    obtain rfl := hrest hne
    exact set'.applyAll_null_eq rest hrest w''

end Setting

end Stencil
