import Stencil.Proofs.Matching
import Stencil.Proofs.Spacing

/-!
# Where a reference ends

What scanning reads, said without the scanner: which units a text is walked in, at which `#` a
reference ends, which words stand in it, and which text between two references is one literal piece.

* `StepsOver`             the unit at the start of a text, by matching parentheses
                          (`stepsOver_iff`);
* `Reaches`               the units up to the `#` that ends a reference (`reaches_iff`);
* `LiteralUpTo`           a text without a `#` of its own (`Segment.scan_literal`);
* `Segment.Scanned`       the segments of a text;
* `Segment.scanned_iff`   scanning gives the segments of the text, and no others.
-/

namespace Stencil

/-! ## units -/

/-- `u` is the unit at the start of a text, and `r` the text behind it -/
inductive StepsOver : (t u r : Text) → Prop
  | group {g r : Text} (h : g.Nested) : StepsOver ('(' :: (g ++ ')' :: r)) ('(' :: (g ++ [')'])) r
  | escape {d : Char} {r : Text} (h : needsEscape d = true) : StepsOver ('\\' :: d :: r) ['\\', d] r
  | single {c : Char} {r : Text} (hg : c = '(' → ¬∃ g s : Text, g.Nested ∧ r = g ++ ')' :: s)
      (he : c = '\\' → ∀ d ∈ r.head?, needsEscape d = false) : StepsOver (c :: r) [c] r

theorem stepsOver_iff_firstUnit {c : Char} {t u r : Text} :
    StepsOver (c :: t) u r ↔ FirstUnit c t u r := by
  constructor
  · intro h
    cases h with
    | group h => exact .group (splitGroup_eq_some_iff.mpr ⟨_, h, rfl, rfl⟩)
    | escape h => exact .escape h
    | single hg he =>
      by_cases ho : c = '('
      · subst ho
        exact .opening (splitGroup_eq_none_iff.mpr (hg rfl))
      · by_cases hb : c = '\\'
        · subst hb
          exact .backslash (he rfl)
        · exact .plain ho hb
  · intro h
    cases h with
    | group h =>
      obtain ⟨g, hg, rfl, rfl⟩ := splitGroup_eq_some_iff.mp h
      exact .group hg
    | opening h => exact .single (fun _ => splitGroup_eq_none_iff.mp h) fun hc => absurd hc (by decide)
    | escape h => exact .escape h
    | backslash h => exact .single (fun hc => absurd hc (by decide)) fun _ => h
    | plain ho hb => exact .single (fun hc => absurd hc ho) fun hc => absurd hc hb

theorem stepsOver_iff {c : Char} {t u r : Text} :
    StepsOver (c :: t) u r ↔ nextUnit c t = (u, r) := by
  rw [stepsOver_iff_firstUnit]
  constructor
  · exact FirstUnit.nextUnit_eq
  · intro h
    have hfirst := firstUnit_nextUnit c t
    rwa [h] at hfirst

/-! ## the end of a reference -/

/-- walking over the units `us` a text reaches a `#`, behind which `r` stands -/
inductive Reaches : Text → List Text → Text → Prop
  | hash {r : Text} : Reaches ('#' :: r) [] r
  | step {t u s r : Text} {us : List Text} (hc : t.head? ≠ some '#') (hu : StepsOver t u s)
      (h : Reaches s us r) : Reaches t (u :: us) r

theorem reaches_iff {t r : Text} {us : List Text} :
    Reaches t us r ↔ walk t = some (us, r) := by
  constructor
  · intro h
    induction h with
    | hash => rw [walk, if_pos rfl]
    | @step t u s r us hc hu _ ih =>
      cases t with
      | nil => cases hu
      | cons c t =>
        have hne : c ≠ '#' := fun he => hc (congrArg some he)
        rw [walk_cons hne, stepsOver_iff.mp hu, ih]
        rfl
  · intro h
    fun_induction walk t generalizing us with
    | case1 => cases h
    | case2 t =>
      obtain ⟨rfl, rfl⟩ := Prod.mk.inj (Option.some.inj h)
      exact .hash
    | case3 c t hc ih =>
      obtain ⟨⟨us', r'⟩, hw, he⟩ := Option.map_eq_some_iff.mp h
      obtain ⟨rfl, rfl⟩ := Prod.mk.inj he
      exact .step (fun hh => hc (Option.some.inj hh)) (stepsOver_iff.mpr rfl) (ih hw)

theorem walk_eq_none_iff {t : Text} : walk t = none ↔ ¬∃ us r, Reaches t us r := by
  rw [Option.eq_none_iff_forall_ne_some]
  constructor
  · rintro h ⟨us, r, hr⟩
    exact h (us, r) (reaches_iff.mp hr)
  · rintro h ⟨us, r⟩ hw
    exact h ⟨us, r, reaches_iff.mpr hw⟩

theorem nil_notMem_of_walk {t r : Text} {us : List Text} (h : walk t = some (us, r)) :
    [] ∉ us := by
  fun_induction walk t generalizing us with
  | case1 => cases h
  | case2 t =>
    obtain ⟨rfl, rfl⟩ := Prod.mk.inj (Option.some.inj h)
    exact List.not_mem_nil
  | case3 c t hc ih =>
    obtain ⟨⟨us', r'⟩, hw, he⟩ := Option.map_eq_some_iff.mp h
    obtain ⟨rfl, rfl⟩ := Prod.mk.inj he
    exact List.not_mem_cons_of_ne_of_not_mem (nextUnit_ne_nil c t).symm (ih hw)

/-! ## literal text -/

/-- read from its left, each escape as one unit, the text `s` in front of `t` has no `#` of its own -/
inductive LiteralUpTo : (s t : Text) → Prop
  | nil {t : Text} : LiteralUpTo [] t
  | escape {d : Char} {s t : Text} (hd : needsEscape d = true) (h : LiteralUpTo s t) :
      LiteralUpTo ('\\' :: d :: s) t
  | single {c : Char} {s t : Text} (hc : c ≠ '#')
      (he : c = '\\' → ∀ d ∈ (s ++ t).head?, needsEscape d = false) (h : LiteralUpTo s t) :
      LiteralUpTo (c :: s) t

/-- a character that starts no escape, in front of a text of which `s` is the first part -/
theorem unescape_single {c : Char} {s t : Text}
    (he : c = '\\' → ∀ d ∈ (s ++ t).head?, needsEscape d = false) :
    unescape (c :: s) = c :: unescape s := by
  by_cases hb : c = '\\'
  · cases s with
    | nil => rfl
    | cons d s =>
      have hd : ¬needsEscape d = true := Bool.eq_false_iff.mp (he hb d rfl)
      exact if_neg fun h => hd h.2
  · exact unescape_cons_of_ne s hb

namespace Segment

theorem scan_single {c : Char} {t : Text} (hc : c ≠ '#')
    (he : c = '\\' → ∀ d ∈ t.head?, needsEscape d = false) :
    scan (c :: t) = consLiteral c (scan t) := by
  by_cases hb : c = '\\'
  · subst hb
    cases t with
    | nil =>
      rw [scan_nil, scan, if_neg hc]
      rfl
    | cons d r =>
      have hd : ¬needsEscape d = true := Bool.eq_false_iff.mp (he rfl d rfl)
      rw [scan, if_neg hc]
      exact if_neg fun h => hd h.2
  · exact scan_cons (by simp [needsEscape, hc, hb]) t

theorem scan_literal {s t : Text} (h : LiteralUpTo s t) :
    scan (s ++ t) = (unescape s).foldr consLiteral (scan t) := by
  induction h with
  | nil => rfl
  | escape hd _ ih =>
    rw [unescape_pair _ hd, List.foldr_cons, ← ih]
    exact scan_escape_cons _ hd _
  | single hc he _ ih =>
    rw [List.cons_append, scan_single hc he, ih, unescape_single he]
    rfl

/-! ## segments -/

/-- the segments of a text: literal pieces up to the next `#` or to the end, and references up to
the `#` that is reached first -/
inductive Scanned : Text → List Segment → Prop
  | done : Scanned [] []
  | literal {s t : Text} {ss : List Segment} (hs : s ≠ []) (hl : LiteralUpTo s t)
      (ht : ∀ c ∈ t.head?, c = '#') (h : Scanned t ss) : Scanned (s ++ t) (.literal (unescape s) :: ss)
  | unclosed {t : Text} (h : ¬∃ us r, Reaches t us r) : Scanned ('#' :: t) [.unclosed t]
  | empty {t r : Text} {us : List Text} {ss : List Segment} (hr : Reaches t us r)
      (hw : Spaced us []) (h : Scanned r ss) : Scanned ('#' :: t) (.empty :: ss)
  | reference {t r : Text} {us name : List Text} {specifiers : List (List Text)} {ss : List Segment}
      (hr : Reaches t us r) (hw : Spaced us (name :: specifiers)) (h : Scanned r ss) :
      Scanned ('#' :: t)
        (.reference ⟨unescape name.flatten, specifiers.map fun w => unescape w.flatten⟩ :: ss)

theorem ofUnits_eq {t r : Text} {us : List Text} {ws : List (List Text)}
    (h : walk t = some (us, r)) (hw : Spaced us ws) :
    ofUnits us = match ws.map fun w => unescape w.flatten with
      | [] => .empty
      | name :: specifiers => .reference ⟨name, specifiers⟩ := by
  rw [ofUnits, Reference.ofUnits?, hw.words_eq (nil_notMem_of_walk h), List.map_map]
  cases ws with
  | nil => rfl
  | cons w ws => rfl

theorem foldr_consLiteral {s : Text} (hs : s ≠ []) {ss : List Segment}
    (h : ∀ x, ss.head? ≠ some (.literal x)) :
    s.foldr consLiteral ss = .literal s :: ss := by
  induction s with
  | nil => exact absurd rfl hs
  | cons c s ih =>
    cases s with
    | nil =>
      show consLiteral c ss = _
      unfold consLiteral
      split
      · exact absurd rfl (h _)
      · rfl
    | cons d s =>
      rw [List.foldr_cons, ih (List.cons_ne_nil d s)]
      rfl

theorem head?_scan_ne_literal {t : Text} (h : ∀ c ∈ t.head?, c = '#') (x : Text) :
    (scan t).head? ≠ some (.literal x) := by
  cases t with
  | nil =>
    rw [scan_nil]
    intro he
    cases he
  | cons c t =>
    obtain rfl := h c rfl
    cases hw : walk t with
    | none =>
      rw [scan_of_unended hw]
      intro he
      cases he
    | some p =>
      rw [scan_of_walk hw]
      intro he
      unfold ofUnits at he
      split at he <;> cases he

theorem unescape_ne_nil {s : Text} (h : s ≠ []) : unescape s ≠ [] := by
  intro hu
  refine h (eq_nil_of_reescape ?_)
  rw [reescape, hu]
  rfl

theorem Scanned.scan_eq {t : Text} {ss : List Segment} (h : Scanned t ss) : scan t = ss := by
  induction h with
  | done => exact scan_nil
  | literal hs hl ht _ ih =>
    rw [scan_literal hl, foldr_consLiteral (unescape_ne_nil hs) (head?_scan_ne_literal ht), ih]
  | unclosed h => exact scan_of_unended (walk_eq_none_iff.mpr h)
  | empty hr hw _ ih =>
    rw [scan_of_walk (reaches_iff.mp hr), ih, ofUnits_eq (reaches_iff.mp hr) hw]
    rfl
  | reference hr hw _ ih =>
    rw [scan_of_walk (reaches_iff.mp hr), ih, ofUnits_eq (reaches_iff.mp hr) hw]
    rfl

/-- a literal unit in front makes the first literal piece longer, or is one of its own -/
theorem Scanned.append_unit {u t : Text} {c : Char} {ss : List Segment} (h : Scanned t ss)
    (hu : ∀ s r, s ++ r = t → LiteralUpTo s r →
      LiteralUpTo (u ++ s) r ∧ unescape (u ++ s) = c :: unescape s) :
    Scanned (u ++ t) (consLiteral c ss) := by
  obtain ⟨hunit, hchar⟩ := hu [] t rfl .nil
  rw [List.append_nil] at hunit hchar
  have hne : u ≠ [] := by
    rintro rfl
    cases hchar
  have alone (h : Scanned t ss) (ht : ∀ d ∈ t.head?, d = '#') :
      Scanned (u ++ t) (.literal [c] :: ss) := by
    have hpiece := Scanned.literal hne hunit ht h
    rwa [hchar] at hpiece
  cases h with
  | done => exact alone .done fun d hd => absurd hd (by simp)
  | @literal s t ss hs hl ht h =>
    obtain ⟨hlit, hchars⟩ := hu s t rfl hl
    have hpiece := Scanned.literal (fun hnil => hs (List.append_eq_nil_iff.mp hnil).2) hlit ht h
    rwa [hchars, List.append_assoc] at hpiece
  | unclosed h => exact alone (.unclosed h) fun d hd => (Option.some.inj hd).symm
  | empty hr hw h => exact alone (.empty hr hw h) fun d hd => (Option.some.inj hd).symm
  | reference hr hw h => exact alone (.reference hr hw h) fun d hd => (Option.some.inj hd).symm

theorem Scanned.cons {c : Char} {t : Text} {ss : List Segment} (h : Scanned t ss) (hc : c ≠ '#')
    (he : c = '\\' → ∀ d ∈ t.head?, needsEscape d = false) :
    Scanned (c :: t) (consLiteral c ss) := by
  refine h.append_unit (u := [c]) fun s r ht hl => ?_
  rw [← ht] at he
  exact ⟨.single hc he hl, unescape_single he⟩

theorem scanned_scan (t : Text) : Scanned t (scan t) := by
  fun_induction scan t with
  | case1 => exact .done
  | case2 t hw => exact .unclosed (walk_eq_none_iff.mp hw)
  | case3 t us r hw ih =>
    obtain ⟨ws, hws⟩ := exists_spaced us
    have hr := reaches_iff.mpr hw
    rw [ofUnits_eq hw hws]
    cases ws with
    | nil => exact .empty hr hws ih
    | cons w ws => exact .reference hr hws ih
  | case4 c hc => exact Scanned.done.cons hc fun _ d hd => absurd hd (by simp)
  | case5 c hc d r h ih =>
    obtain ⟨rfl, hd⟩ := h
    exact ih.append_unit (u := ['\\', d]) fun s r _ hl => ⟨.escape hd hl, unescape_pair s hd⟩
  | case6 c hc d r h ih =>
    refine ih.cons hc fun hb e he => ?_
    obtain rfl : d = e := Option.some.inj he
    exact Bool.eq_false_iff.mpr fun hd => h ⟨hb, hd⟩

/-- **Scanning finds where each reference ends**: the segments of a text, as the end of a reference
and the runs of its words tell them, are what scanning gives -/
theorem scanned_iff {t : Text} {ss : List Segment} : Scanned t ss ↔ scan t = ss := by
  constructor
  · exact Scanned.scan_eq
  · rintro rfl
    exact scanned_scan t

end Segment

end Stencil
