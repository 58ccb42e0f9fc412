import Stencil.Proofs.Arguments

/-!
# Another text behind the units

Units stay the same when the text behind them is exchanged for another one, as long as no group that
was open is closed now, nothing becomes an escape, and a `#` without an end stays without one.

* `walk_exchange`            the units up to the end of a reference;
* `walk_eq_none_iff_units`   whether a `#` is reached, told by the units of a head;
* `Text.Alike`               a text that can stand for another one behind a head;
* `argumentUnits_exchange`   the units of a head.
-/

namespace Stencil

theorem splitGroup_eq_none_of_append {s t : Text} (h : splitGroup 0 (s ++ t) = none) :
    splitGroup 0 s = none := by
  refine Option.eq_none_iff_forall_ne_some.mpr fun ⟨g, r⟩ hg => ?_
  have hlong := (closes_of_splitGroup hg).splitGroup_append (r ++ t)
  rw [← List.append_assoc, append_of_splitGroup hg, h] at hlong
  cases hlong

/-! ## the end of a reference -/

theorem head?_append_exchange {s r r' : Text}
    (hd : ∀ d ∈ r'.head?, needsEscape d = true → d ∈ r.head?) :
    ∀ d ∈ (s ++ r').head?, needsEscape d = true → d ∈ (s ++ r).head? := by
  cases s with
  | nil => exact hd
  | cons c s => exact fun d hs _ => hs

/-- a reference ends where it ended, if each parenthesis in it that had no partner has none now -/
theorem walk_exchange {t r r' : Text} {us : List Text} (h : walk t = some (us, r))
    (hg : ∀ s, '(' :: s <:+ us.flatten → splitGroup 0 (s ++ '#' :: r) = none →
      splitGroup 0 (s ++ '#' :: r') = none) :
    walk (us.flatten ++ '#' :: r') = some (us, r') := by
  fun_induction walk t generalizing us with
  | case1 => cases h
  | case2 t =>
    obtain ⟨rfl, rfl⟩ := Prod.mk.inj (Option.some.inj h)
    show walk ('#' :: r') = _
    rw [walk, if_pos rfl]
  | case3 c t hc ih =>
    obtain ⟨⟨us', r''⟩, hw, he⟩ := Option.map_eq_some_iff.mp h
    obtain ⟨rfl, rfl⟩ := Prod.mk.inj he
    have hrest := append_of_walk hw
    have hnext := ih hw fun s hs => hg s (hs.trans (List.suffix_append _ _))
    have hfirst := firstUnit_nextUnit c t
    revert hg hfirst hrest
    generalize (nextUnit c t).1 = u, (nextUnit c t).2 = rest
    rintro hg rfl hfirst
    have hopen : u = ['('] → splitGroup 0 (us'.flatten ++ '#' :: r'') = none →
        splitGroup 0 (us'.flatten ++ '#' :: r') = none := by
      rintro rfl
      exact hg us'.flatten List.suffix_rfl
    obtain ⟨v, rfl, hunit⟩ := hfirst.exchange hopen (head?_append_exchange fun d hd _ => hd)
    rw [List.flatten_cons, List.append_assoc, List.cons_append, walk_cons hc, hunit.nextUnit_eq,
      hnext]
    rfl

/-- in front of a text with the same parentheses a reference ends where it ended -/
theorem walk_exchange_of_brackets {t r r' : Text} {us : List Text} (h : walk t = some (us, r))
    (hr : brackets r = brackets r') : walk (us.flatten ++ '#' :: r') = some (us, r') := by
  refine walk_exchange h fun s _ hs => splitGroup_eq_none_congr ?_ hs
  rw [brackets_append, brackets_append, brackets_cons rfl, brackets_cons rfl, hr]

theorem walk_alone {t r : Text} {us : List Text} (h : walk t = some (us, r)) :
    walk (us.flatten ++ ['#']) = some (us, []) := by
  refine walk_exchange h fun s _ hs => splitGroup_eq_none_of_append (t := r) ?_
  rwa [List.append_assoc]

/-! ## the units of a head -/

theorem FirstUnit.head?_eq {c : Char} {t u r : Text} (h : FirstUnit c t u r) :
    u.head? = some c := by
  cases h <;> rfl

/-- a `#` is reached if one of the units of a head starts with it -/
theorem walk_eq_none_iff_units {t : Text} :
    walk t = none ↔ ∀ u ∈ argumentUnits t, u.head? ≠ some '#' := by
  fun_induction argumentUnits t with
  | case1 => exact ⟨fun _ u hu => absurd hu List.not_mem_nil, fun _ => by rw [walk]⟩
  | case2 t us r h ih =>
    rw [walk, if_pos rfl]
    exact ⟨fun h => (Option.some_ne_none _ h).elim, fun h => (h _ List.mem_cons_self rfl).elim⟩
  | case3 t h ih =>
    rw [walk, if_pos rfl]
    exact ⟨fun h => (Option.some_ne_none _ h).elim, fun h => (h _ List.mem_cons_self rfl).elim⟩
  | case4 c t hc ih =>
    have hhead : (nextUnit c t).1.head? ≠ some '#' := by
      rw [(firstUnit_nextUnit c t).head?_eq]
      exact fun h => hc (Option.some.inj h)
    rw [walk_cons hc, Option.map_eq_none_iff, ih, List.forall_mem_cons]
    exact ⟨fun h => ⟨hhead, h⟩, fun h => h.2⟩

/-- the units of a head tell what they stand in front of -/
theorem eq_of_argumentUnits {us : List Text} {t r : Text}
    (h : argumentUnits t = us ++ argumentUnits r) : t = us.flatten ++ r := by
  rw [← flatten_argumentUnits t, h, List.flatten_append, flatten_argumentUnits]

/-- a text that can stand in the place of `r` behind a head: it has the same parentheses, a `#` is
reached in it if one was, and nothing at its start is escaped by what stands in front -/
structure Text.Alike (r r' : Text) : Prop where
  brackets : brackets r = brackets r'
  hash : walk r = none ↔ walk r' = none
  first : ∀ d ∈ r'.head?, needsEscape d = true → d ∈ r.head?

/-- behind units that stay the same no `#` is reached where none was -/
theorem walk_eq_none_exchange {us : List Text} {r r' : Text}
    (h : argumentUnits (us.flatten ++ r) = us ++ argumentUnits r)
    (h' : argumentUnits (us.flatten ++ r') = us ++ argumentUnits r')
    (hr : walk r = none ↔ walk r' = none) (hw : walk (us.flatten ++ r) = none) :
    walk (us.flatten ++ r') = none := by
  rw [walk_eq_none_iff_units, h, List.forall_mem_append, ← walk_eq_none_iff_units] at hw
  rw [walk_eq_none_iff_units, h', List.forall_mem_append, ← walk_eq_none_iff_units]
  exact ⟨hw.1, hr.mp hw.2⟩

theorem argumentUnits_exchange {us : List Text} {r r' : Text}
    (h : argumentUnits (us.flatten ++ r) = us ++ argumentUnits r) (hr : r.Alike r') :
    argumentUnits (us.flatten ++ r') = us ++ argumentUnits r' := by
  induction us with
  | nil => rfl
  | cons u us ih =>
    have hbrackets : brackets (us.flatten ++ r) = brackets (us.flatten ++ r') := by
      rw [brackets_append, brackets_append, hr.brackets]
    rw [List.flatten_cons, List.append_assoc] at h ⊢
    generalize ht : u ++ (us.flatten ++ r) = t at h
    cases t with
    | nil =>
      rw [argumentUnits] at h
      cases h
    | cons c t =>
      rw [List.cons_append] at h ⊢
      by_cases hc : c = '#'
      · subst hc
        cases hw : walk t with
        | some p =>
          obtain ⟨vs, rest⟩ := p
          rw [argumentUnits_reference hw] at h
          obtain ⟨rfl, hrest⟩ := List.cons.inj h
          obtain rfl := eq_of_argumentUnits hrest
          have hwalk := walk_exchange_of_brackets hw hbrackets
          have hunits := argumentUnits_reference hwalk
          rw [ih hrest] at hunits
          rw [← hunits, List.append_assoc]
          rfl
        | none =>
          rw [argumentUnits_unended hw] at h
          obtain ⟨rfl, hrest⟩ := List.cons.inj h
          obtain rfl := eq_of_argumentUnits hrest
          have hnone := walk_eq_none_exchange hrest (ih hrest) hr.hash hw
          exact (argumentUnits_unended hnone).trans (congrArg _ (ih hrest))
      · rw [argumentUnits_cons hc] at h
        obtain ⟨rfl, hrest⟩ := List.cons.inj h
        have hfirst := firstUnit_nextUnit c t
        rw [eq_of_argumentUnits hrest] at hfirst hrest
        obtain ⟨v, hv, hunit⟩ := hfirst.exchange
          (fun _ hs => splitGroup_eq_none_congr hbrackets hs) (head?_append_exchange hr.first)
        rw [hv] at hunit ⊢
        rw [List.cons_append, argumentUnits_cons hc, hunit.nextUnit_eq, ih hrest]

end Stencil
