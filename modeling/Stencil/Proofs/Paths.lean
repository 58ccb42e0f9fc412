import Stencil.Proofs.Indices
import Stencil.Proofs.Numerals

/-!
# Paths

`#name at(2) at("key")…#` follows a path of steps into a value: to an item of a list, to an entry of
a map.  Its value is the one that the steps lead to.  If one of them leads nowhere, the reference is
null and a problem is noted, and another one if there are steps behind it, which are not taken.

* `Step`, `Step.written`    a step, and its index as it is written;
* `Step.next?`, `follow`    where a step leads, and where several lead;
* `Fitting`                 steps of the kinds of the values that they meet;
* `Setting.apply_step`      what a step does;
* `Setting.applyAll_follow`, `Setting.applyAll_missing`   what several steps do, up to the first one
                            that leads nowhere and from there on;
* `Setting.evaluates_path`  what a path does.
-/

namespace Stencil

/-! ## indices that are numbers or in quotation marks -/

theorem Text.bare_natDigits (i : Nat) : Bare (natDigits i) := by
  refine IsName.bare (isName_of_isAlphanum (natDigits_ne_nil i) ?_)
  rw [List.all_eq_true]
  intro c hc
  simp [Char.isAlphanum, isDigit_of_mem_natDigits hc]

theorem Text.nested_quoted {key : Text} (h : key.Nested) : Nested ('\"' :: (key ++ ['\"'])) :=
  (nestedIn_other rfl).mpr ((nestedIn_append h).mpr (nested_singleton rfl))

theorem literalIndex_natDigits (i : Nat) :
    literalIndex (natDigits i) = .number (.ofDecimal i 0) := by
  rw [literalIndex, Number.read?_natDigits]

theorem literalIndex_quoted (key : Text) :
    literalIndex ('\"' :: (key ++ ['\"'])) = .string key := by
  rw [literalIndex, Number.read?_quoted]
  show Value.string ((Text.dropEnd? '\"' (key ++ ['\"'])).getD _) = _
  rw [Text.dropEnd?_concat]
  rfl

/-! ## steps -/

/-- a step into a value: to an item of a list, or to an entry of a map -/
inductive Step
  | item (i : Nat)
  | entry (key : Text)

namespace Step

def index : Step → Text
  | item i => natDigits i
  | entry key => '\"' :: (key ++ ['\"'])

/-- the index as it is written in a reference, a key with its escapes -/
def written : Step → Text
  | item i => natDigits i
  | entry key => '\"' :: (escape key ++ ['\"'])

/-- whether a step can be written: the parentheses of its key match one another -/
def Plain : Step → Prop
  | item _ => True
  | entry key => key.Nested

/-- where a step leads -/
def next? : Step → Value → Option Value
  | item i, .list items => items[i]?
  | entry key, .map entries => Table.get? entries key
  | _, _ => none

/-- whether a step is of the kind of a value.  An index above `exactBound` is rounded, to a number that
is not below that bound either; it fits the lists that are not longer, and there is no memory for a
longer one. -/
def fits : Step → Value → Bool
  | item i, .list items => i ≤ exactBound || items.length ≤ exactBound
  | entry _, .map _ => true
  | _, _ => false

instance : (s : Step) → Decidable s.Plain
  | item _ => inferInstanceAs (Decidable True)
  | entry key => inferInstanceAs (Decidable key.Nested)

theorem isNull_of_next? {s : Step} {v w : Value} (h : s.next? v = some w) : v.isNull = false := by
  cases v with
  | null => cases s <;> cases h
  | _ => rfl

/-! ## indices of steps -/

theorem isIndex_index (s : Step) : s.index.IsIndex := by
  cases s with
  | item i => exact (Text.bare_natDigits i).isIndex
  | entry key => exact Text.isIndex_concat rfl rfl key

theorem startsReference_index (s : Step) : startsReference s.index = false := by
  cases s with
  | item i => exact (Text.bare_natDigits i).startsReference
  | entry key => rfl

theorem written_eq (s : Step) : s.written = escape s.index := by
  cases s with
  | item i => exact (escape_of_plain (Text.bare_natDigits i).chars).symm
  | entry key =>
    rw [index, escape, if_neg (by decide), escape_append]
    rfl

theorem unescape_written (s : Step) : unescape s.written = s.index := by
  rw [written_eq, unescape_escape]

theorem nested_written {s : Step} (h : s.Plain) : s.written.Nested := by
  rw [written_eq]
  refine Text.Nested.escape ?_
  cases s with
  | item i => exact (Text.bare_natDigits i).nested
  | entry key => exact Text.nested_quoted h

end Step

/-! ## paths -/

/-- a name with the steps of a path behind it: `#name at(2) at("key")…#` -/
def pathTo (n : Text) (steps : List Step) : Text := referenceTo n (steps.map Step.written)

def follow (v : Value) : List Step → Option Value
  | [] => some v
  | s :: ss => s.next? v >>= fun w => follow w ss

/-- whether steps fit the values that they meet, unless these are null -/
def Fitting (v : Value) : List Step → Prop
  | [] => True
  | s :: ss => (v.isNull = false → s.fits v = true) ∧ ∀ w ∈ s.next? v, Fitting w ss

instance decidableFitting (v : Value) : (ss : List Step) → Decidable (Fitting v ss)
  | [] => inferInstanceAs (Decidable True)
  | s :: ss =>
    have (w : Value) : Decidable (Fitting w ss) := decidableFitting w ss
    inferInstanceAs (Decidable ((v.isNull = false → s.fits v = true) ∧ ∀ w ∈ s.next? v, Fitting w ss))

theorem follow_cons_eq_some {s : Step} {ss : List Step} {v w : Value}
    (h : follow v (s :: ss) = some w) : ∃ u, s.next? v = some u ∧ follow u ss = some w :=
  Option.bind_eq_some_iff.mp h

theorem Fitting.of_follow {before after : List Step} {v w : Value}
    (h : Fitting v (before ++ after)) (hw : follow v before = some w) : Fitting w after := by
  induction before generalizing v with
  | nil =>
    obtain rfl := Option.some.inj hw
    exact h
  | cons s before ih =>
    obtain ⟨u, hu, hw⟩ := follow_cons_eq_some hw
    exact ih (h.2 u hu) hw

/-! ## what steps do -/

namespace Setting

variable {σ : Type} (set : Setting σ) (scope : Scope) (s : Subject)

theorem pickItem_ofInt (items : List Value) (expr : Text) (k : Nat) :
    (pickItem s items expr (.number (.ofInt k)) : Run σ Value) = (match items[k]? with
      | some v => pure v
      | none => do
        .note (.indexOutOfRange (.ofInt k) s items.length)
        pure .null) := by
  have hround : (Number.ofInt k).roundAway = .ofInt k := Number.roundAway_natCast k
  have hsame : (Number.ofInt k).eq (.ofInt k) = true := Number.eq_ofInt k
  have hfinite : (Value.number (.ofInt k)).toNumber?.filter Number.isFinite = some (.ofInt k) := rfl
  rw [pickItem, hfinite]
  simp only [hround, hsame, Number.toInt?_ofInt]
  rfl

theorem pickItem_ofDecimal {items : List Value} {i : Nat}
    (hfit : (Step.item i).fits (.list items) = true) (expr : Text) :
    ∃ p : Problem, p.severity = .warning ∧
      (pickItem s items expr (.number (.ofDecimal i 0)) : Run σ Value) = (match items[i]? with
        | some v => pure v
        | none => do
          .note p
          pure .null) := by
  rcases Number.ofDecimal_zero i with ⟨-, hread⟩ | ⟨hlarge, hread⟩
  · rw [hread, pickItem_ofInt]
    exact ⟨_, rfl, rfl⟩
  have hlength : items.length ≤ exactBound := by
    simp only [Step.fits, Bool.or_eq_true, decide_eq_true_eq] at hfit
    omega
  rw [List.getElem?_eq_none (hlength.trans hlarge.le)]
  rcases hread with hread | ⟨k, hk, hread⟩
  · rw [hread]
    exact ⟨.indexNotNumber expr s, rfl, rfl⟩
  · rw [hread, pickItem_ofInt, List.getElem?_eq_none (hlength.trans hk)]
    exact ⟨_, rfl, rfl⟩

/-- **One step** into a value that it fits: what it leads to, and if it leads nowhere, one problem and
null -/
theorem apply_step {t : Step} {v : Value} (hfit : t.fits v = true) :
    ∃ p : Problem, p.severity = .warning ∧
      set.apply s (.index t.index) (set.indexOf (.index t.index) scope) v scope =
        (match t.next? v with
        | some w => pure w
        | none => do
          .note p
          pure .null) := by
  rw [set.indexOf_literal t.isIndex_index t.startsReference_index]
  cases t with
  | item i =>
    cases v with
    | list items =>
      rw [Step.index, literalIndex_natDigits]
      exact pickItem_ofDecimal s hfit _
    | _ => cases hfit
  | entry key =>
    cases v with
    | map entries =>
      rw [Step.index, literalIndex_quoted]
      exact ⟨.noKey s key, rfl, rfl⟩
    | _ => cases hfit

theorem applyAll_null {v : Value} (hv : v.isNull = true) (m : Modifier) (ms : List Modifier) :
    set.applyAll s (m :: ms) v scope = (do
      .note (.nullBefore s m)
      pure .null) := by
  cases v with
  | null =>
    rw [applyAll]
    rfl
  | _ => cases hv

theorem applyAll_follow {before after : List Step} {v w : Value}
    (hfit : Fitting v (before ++ after)) (h : follow v before = some w) :
    set.applyAll s ((before ++ after).map fun t => .index t.index) v scope =
      set.applyAll s (after.map fun t => .index t.index) w scope := by
  induction before generalizing v with
  | nil =>
    obtain rfl := Option.some.inj h
    rfl
  | cons t before ih =>
    obtain ⟨u, hu, hw⟩ := follow_cons_eq_some h
    have hnull := Step.isNull_of_next? hu
    obtain ⟨p, -, hp⟩ := set.apply_step scope s (hfit.1 hnull)
    rw [hu] at hp
    rw [List.cons_append, List.map_cons, set.applyAll_cons hnull, hp, pure_bind]
    exact ih (hfit.2 u hu) hw

/-- where a step leads nowhere, the steps behind it are not taken -/
theorem applyAll_missing {t : Step} {after : List Step} {v : Value} (hfit : Fitting v (t :: after))
    (h : t.next? v = none) :
    ∃ ps : List Problem, (∀ p ∈ ps, p.severity = .warning) ∧
      ps.length = (if v.isNull = true ∨ after = [] then 1 else 2) ∧
      set.applyAll s ((t :: after).map fun t => .index t.index) v scope = (do
        .noteAll ps
        pure .null) := by
  cases hnull : v.isNull with
  | true =>
    rw [List.map_cons, set.applyAll_null scope s hnull]
    exact ⟨[.nullBefore s (.index t.index)], List.forall_mem_singleton.mpr rfl, rfl, rfl⟩
  | false =>
    obtain ⟨p, hwarning, hp⟩ := set.apply_step scope s (hfit.1 hnull)
    rw [h] at hp
    rw [List.map_cons, set.applyAll_cons hnull, hp]
    cases after with
    | nil =>
      refine ⟨[p], List.forall_mem_singleton.mpr hwarning, rfl, ?_⟩
      simp only [List.map_nil, applyAll_nil, bind_pure]
      rfl
    | cons t' after =>
      refine ⟨[p, .nullBefore s (.index t'.index)], ?_, rfl, ?_⟩
      · exact List.forall_mem_cons.mpr ⟨hwarning, List.forall_mem_singleton.mpr rfl⟩
      · have hnone : Value.null.isNull = true := rfl
        simp only [List.map_cons, set.applyAll_null scope s hnone, bind_assoc, pure_bind]
        rfl

variable {scope}

theorem evaluates_pathTo {n : Text} (hn : n.Writable) {v : Value} (hv : scope.get? n = some v)
    {steps : List Step} (h : ∀ t ∈ steps, t.Plain) :
    set.Evaluates (pathTo n steps) scope
      (set.applyAll (.reference n) (steps.map fun t => .index t.index) v scope) := by
  have hindices : ∀ i ∈ steps.map Step.written, i.Nested ∧ (unescape i).IsIndex := by
    rw [List.forall_mem_map]
    intro t ht
    rw [t.unescape_written]
    exact ⟨Step.nested_written (h t ht), t.isIndex_index⟩
  have hpath := set.evaluates_referenceTo hn hv hindices
  rw [pathTo]
  simpa only [List.map_map, Function.comp_def, Step.unescape_written] using hpath

/-- **Paths.**  A path with a step for each value on the way has the value that the steps lead to,
and notes no problem.  If one of the steps leads nowhere the value is null: with one problem if that
is the last step, or if the value in front of it is null already, and else with two. -/
theorem evaluates_path {n : Text} (hn : n.Writable) {v : Value} (hv : scope.get? n = some v)
    {steps : List Step} (h : ∀ t ∈ steps, t.Plain) (hfit : Fitting v steps) :
    (∀ w, follow v steps = some w → set.Evaluates (pathTo n steps) scope (pure w)) ∧
      ∀ before t after u, steps = before ++ t :: after → follow v before = some u →
        t.next? u = none →
          ∃ ps : List Problem, (∀ p ∈ ps, p.severity = .warning) ∧
            ps.length = (if u.isNull = true ∨ after = [] then 1 else 2) ∧
            set.Evaluates (pathTo n steps) scope (do
              .noteAll ps
              pure .null) := by
  have hpath := set.evaluates_pathTo hn hv h
  constructor
  · intro w hw
    rw [← List.append_nil steps] at hfit
    have hsteps := set.applyAll_follow scope (.reference n) hfit hw
    rw [List.append_nil, List.map_nil, applyAll_nil] at hsteps
    rwa [hsteps] at hpath
  · rintro before t after u rfl hu hnext
    obtain ⟨ps, hwarning, hlength, hmissing⟩ :=
      set.applyAll_missing scope (.reference n) (hfit.of_follow hu) hnext
    rw [set.applyAll_follow scope (.reference n) hfit hu, hmissing] at hpath
    exact ⟨ps, hwarning, hlength, hpath⟩

end Setting

/-- a path through a map and a list to the entry of an empty key, and one that leaves the list -/
theorem evaluates_path_nested :
    let set := (Engine.new {} Host.bare () .congruence).setting
    let key : Text := "a \"#\\ (b)".toList
    let inner : Value := .map [([], .string "x".toList)]
    let v : Value := .map [(key, .list [.null, inner])]
    let scope : Scope := [("n".toList, v)]
    let inside : List Step := [.entry key, .item 1, .entry []]
    let outside : List Step := [.entry key, .item 2, .entry []]
    pathTo "n".toList inside = "#n at(\"a \"\\#\\\\ (b)\") at(1) at(\"\")#".toList ∧
      follow v inside = some (.string "x".toList) ∧
      set.Evaluates (pathTo "n".toList inside) scope (pure (.string "x".toList)) ∧
      ∃ ps : List Problem, ps.length = 2 ∧
        set.Evaluates (pathTo "n".toList outside) scope (do
          .noteAll ps
          pure .null) := by
  intro set key inner v scope inside outside
  have hname : Text.Writable "n".toList := by decide
  have hvalue : scope.get? "n".toList = some v := rfl
  have hkeys : (∀ t ∈ inside, t.Plain) ∧ ∀ t ∈ outside, t.Plain := by decide +kernel
  have hfit : Fitting v inside ∧ Fitting v outside := by decide +kernel
  have hreached : follow v inside = some (.string "x".toList) := rfl
  have htaken := (set.evaluates_path hname hvalue hkeys.1 hfit.1).1 _ hreached
  have hmissing := (set.evaluates_path hname hvalue hkeys.2 hfit.2).2
  obtain ⟨ps, -, hlength, hleft⟩ := hmissing [.entry key] (.item 2) [.entry []]
    (.list [.null, inner]) rfl rfl rfl
  exact ⟨by decide +kernel, hreached, htaken, ps, hlength, hleft⟩

end Stencil
