import Stencil.Proofs.Scanning

/-!
# Units in another text

A unit of a reference stays a unit when its escapes are written anew and another text stands behind
it.  Only a parenthesis looks further than the next character, and all it sees there are parentheses.

* `brackets`                  the parentheses of a text;
* `Closes`                    a text that closes a group, as a relation (`closes_of_splitGroup`,
                              `Closes.splitGroup_append`), kept by `Closes.escape` and
                              `Closes.unescape`;
* `splitGroup_eq_none_congr`  whether a group is closed, told by the parentheses;
* `reescape`                  a text with its escapes written anew;
* `FirstUnit`                 the first unit of a text, as a relation (`firstUnit_nextUnit`,
                              `FirstUnit.nextUnit_eq`);
* `FirstUnit.exchange`, `FirstUnit.append_behind`   the same unit in front of another text;
* `FirstUnit.reescape`        the same unit with its escapes written anew, in front of another text.
-/

namespace Stencil

/-! ## parentheses -/

def isBracket (c : Char) : Bool := c == '(' || c == ')'

def brackets (t : Text) : Text := t.filter isBracket

theorem brackets_append (s t : Text) : brackets (s ++ t) = brackets s ++ brackets t :=
  List.filter_append s t

theorem brackets_cons {c : Char} (h : isBracket c = false) (t : Text) :
    brackets (c :: t) = brackets t := by
  have hc : ¬isBracket c = true := Bool.eq_false_iff.mp h
  exact List.filter_cons_of_neg hc

theorem brackets_cons_append (c : Char) (t : Text) :
    brackets (c :: t) = brackets [c] ++ brackets t := brackets_append [c] t

theorem isBracket_of_needsEscape {c : Char} (h : needsEscape c = true) : isBracket c = false := by
  simp only [needsEscape, Bool.or_eq_true, beq_iff_eq] at h
  rcases h with rfl | rfl <;> rfl

theorem brackets_escape (t : Text) : brackets (escape t) = brackets t := by
  induction t with
  | nil => rfl
  | cons c t ih =>
    rw [escape, brackets_cons_append c t, ← ih, ← brackets_cons_append]
    split
    · have hback : isBracket '\\' = false := rfl
      exact brackets_cons hback _
    · rfl

theorem brackets_unescape (t : Text) : brackets (unescape t) = brackets t := by
  fun_induction unescape t with
  | case1 => rfl
  | case2 c => rfl
  | case3 c d t h ih =>
    obtain ⟨rfl, hd⟩ := h
    have hback : isBracket '\\' = false := rfl
    rw [brackets_cons hback, brackets_cons_append, ih, ← brackets_cons_append]
  | case4 c d t h ih =>
    rw [brackets_cons_append, ih, ← brackets_cons_append]

/-! ## groups -/

theorem splitGroup_close (t : Text) : splitGroup 0 (')' :: t) = some ([')'], t) := rfl

theorem splitGroup_down (depth : Nat) (t : Text) : splitGroup (depth + 1) (')' :: t) =
    (splitGroup depth t).map fun (g, r) => (')' :: g, r) := rfl

theorem splitGroup_up (depth : Nat) (t : Text) : splitGroup depth ('(' :: t) =
    (splitGroup (depth + 1) t).map fun (g, r) => ('(' :: g, r) := by
  rw [splitGroup.eq_def]
  rfl

theorem splitGroup_other {c : Char} (h : isBracket c = false) (depth : Nat) (t : Text) :
    splitGroup depth (c :: t) = (splitGroup depth t).map fun (g, r) => (c :: g, r) := by
  simp only [isBracket, Bool.or_eq_false_iff, beq_eq_false_iff_ne] at h
  rw [splitGroup.eq_def]
  simp only [if_neg h.1, if_neg h.2]

/-- a text that closes the group we are in with its last character, `depth` further groups being
open inside it -/
inductive Closes : Nat → Text → Prop
  | last : Closes 0 [')']
  | down {depth : Nat} {g : Text} (h : Closes depth g) : Closes (depth + 1) (')' :: g)
  | up {depth : Nat} {g : Text} (h : Closes (depth + 1) g) : Closes depth ('(' :: g)
  | other {depth : Nat} {c : Char} {g : Text} (hc : isBracket c = false) (h : Closes depth g) :
      Closes depth (c :: g)

theorem closes_of_splitGroup {depth : Nat} {t g r : Text} (h : splitGroup depth t = some (g, r)) :
    Closes depth g := by
  fun_induction splitGroup depth t generalizing g with
  | case1 => cases h
  | case2 t =>
    obtain ⟨rfl, -⟩ := Prod.mk.inj (Option.some.inj h)
    exact .last
  | case3 t depth ih =>
    obtain ⟨⟨g', r'⟩, hg, he⟩ := Option.map_eq_some_iff.mp h
    obtain ⟨rfl, rfl⟩ := Prod.mk.inj he
    exact .down (ih hg)
  | case4 depth c t hc ih =>
    obtain ⟨⟨g', r'⟩, hg, he⟩ := Option.map_eq_some_iff.mp h
    obtain ⟨rfl, rfl⟩ := Prod.mk.inj he
    have hg' := ih hg
    by_cases ho : c = '('
    · subst ho
      exact .up hg'
    · rw [if_neg ho] at hg'
      have hbracket : isBracket c = false := by simp [isBracket, hc, ho]
      exact .other hbracket hg'

namespace Closes

variable {depth : Nat} {g : Text}

theorem splitGroup_append (h : Closes depth g) (more : Text) :
    splitGroup depth (g ++ more) = some (g, more) := by
  induction h with
  | last => exact splitGroup_close more
  | down _ ih =>
    rw [List.cons_append, splitGroup_down, ih]
    rfl
  | up _ ih =>
    rw [List.cons_append, splitGroup_up, ih]
    rfl
  | other hc _ ih =>
    rw [List.cons_append, splitGroup_other hc, ih]
    rfl

theorem escape (h : Closes depth g) : Closes depth (escape g) := by
  induction h with
  | last => exact .last
  | down _ ih => exact .down ih
  | up _ ih => exact .up ih
  | other hc _ ih =>
    rw [Stencil.escape]
    split
    · exact .other rfl (.other hc ih)
    · exact .other hc ih

theorem unescape (h : Closes depth g) : Closes depth (unescape g) := by
  -- along the recursion of `unescape`, as an escape takes two characters of the group at once
  fun_induction Stencil.unescape g generalizing depth with
  | case1 => exact h
  | case2 c => exact h
  | case3 c d t hc ih =>
    obtain ⟨rfl, hd⟩ := hc
    have hother := isBracket_of_needsEscape hd
    cases h with
    | other _ h =>
      cases h with
      | other _ h => exact .other hother (ih h)
      | last => cases hother
      | down h => cases hother
      | up h => cases hother
  | case4 c d t _ ih =>
    cases h with
    | down h => exact .down (ih h)
    | up h => exact .up (ih h)
    | other hc h => exact .other hc (ih h)

/-- no escape reaches beyond the end of a group -/
theorem unescape_append (h : Closes depth g) (more : Text) :
    Stencil.unescape (g ++ more) = Stencil.unescape g ++ Stencil.unescape more := by
  fun_induction Stencil.unescape g generalizing depth with
  | case1 => rfl
  | case2 c =>
    cases h with
    | last => exact unescape_cons_of_ne more (by decide)
    | down h => cases h
    | up h => cases h
    | other _ h => cases h
  | case3 c d t hc ih =>
    obtain ⟨rfl, hd⟩ := hc
    have hrest : ∃ depth, Closes depth t := by
      cases h with
      | other _ h =>
        cases h with
        | last => cases hd
        | down h => cases hd
        | up h => cases hd
        | other _ h => exact ⟨_, h⟩
    obtain ⟨_, h⟩ := hrest
    show Stencil.unescape ('\\' :: d :: (t ++ more)) = _
    rw [unescape_pair _ hd, ih h]
    rfl
  | case4 c d t hc ih =>
    have hrest : ∃ depth, Closes depth (d :: t) := by
      cases h with
      | down h => exact ⟨_, h⟩
      | up h => exact ⟨_, h⟩
      | other _ h => exact ⟨_, h⟩
    obtain ⟨_, h⟩ := hrest
    have hcons : Stencil.unescape (c :: d :: t ++ more) = c :: Stencil.unescape (d :: t ++ more) :=
      if_neg hc
    rw [hcons, ih h]
    rfl

end Closes

/-- whether a group is closed depends on the parentheses only -/
theorem isSome_splitGroup_brackets (depth : Nat) (t : Text) :
    (splitGroup depth (brackets t)).isSome = (splitGroup depth t).isSome := by
  induction t generalizing depth with
  | nil => rfl
  | cons c t ih =>
    cases hc : isBracket c with
    | false => rw [brackets_cons hc, ih, splitGroup_other hc, Option.isSome_map]
    | true =>
      simp only [isBracket, Bool.or_eq_true, beq_iff_eq] at hc
      rcases hc with rfl | rfl
      · have hcons : brackets ('(' :: t) = '(' :: brackets t := rfl
        rw [hcons, splitGroup_up, splitGroup_up, Option.isSome_map, Option.isSome_map, ih]
      · have hcons : brackets (')' :: t) = ')' :: brackets t := rfl
        rw [hcons]
        cases depth with
        | zero => rfl
        | succ depth =>
          rw [splitGroup_down, splitGroup_down, Option.isSome_map, Option.isSome_map, ih]

theorem splitGroup_eq_none_congr {s t : Text} (h : brackets s = brackets t)
    (hs : splitGroup 0 s = none) : splitGroup 0 t = none := by
  rw [← Option.not_isSome_iff_eq_none, ← isSome_splitGroup_brackets] at hs ⊢
  rwa [← h]

/-! ## units -/

/-- the text `c :: t` has the first unit `u`, with `r` after it -/
inductive FirstUnit : (c : Char) → (t u r : Text) → Prop
  | group {t g r : Text} (h : splitGroup 0 t = some (g, r)) : FirstUnit '(' t ('(' :: g) r
  | opening {t : Text} (h : splitGroup 0 t = none) : FirstUnit '(' t ['('] t
  | escape {d : Char} {r : Text} (h : needsEscape d = true) : FirstUnit '\\' (d :: r) ['\\', d] r
  | backslash {t : Text} (h : ∀ d ∈ t.head?, needsEscape d = false) : FirstUnit '\\' t ['\\'] t
  | plain {c : Char} {t : Text} (ho : c ≠ '(') (hb : c ≠ '\\') : FirstUnit c t [c] t

theorem firstUnit_nextUnit (c : Char) (t : Text) :
    FirstUnit c t (nextUnit c t).1 (nextUnit c t).2 := by
  rw [nextUnit.eq_def]
  split
  · rename_i hc
    subst hc
    split
    · rename_i h
      exact .group h
    · rename_i h
      exact .opening h
  · rename_i ho
    by_cases hb : c = '\\'
    · subst hb
      split
      · exact .backslash fun d hd => absurd hd (by simp)
      · rename_i d r
        split
        · rename_i h
          exact .escape h.2
        · rename_i h
          refine .backslash fun e he => ?_
          obtain rfl : d = e := Option.some.inj he
          exact Bool.eq_false_iff.mpr fun hd => h ⟨rfl, hd⟩
    · split
      · exact .plain ho hb
      · rw [if_neg fun h => hb h.1]
        exact .plain ho hb

namespace FirstUnit

variable {c : Char} {t u r : Text}

theorem nextUnit_eq (h : FirstUnit c t u r) : nextUnit c t = (u, r) := by
  rw [nextUnit.eq_def]
  cases h with
  | group h => rw [if_pos rfl, h]
  | opening h => rw [if_pos rfl, h]
  | escape h =>
    rw [if_neg (by decide)]
    exact if_pos ⟨rfl, h⟩
  | backslash h =>
    rw [if_neg (by decide)]
    cases t with
    | nil => rfl
    | cons d t =>
      have hd : ¬needsEscape d = true := Bool.eq_false_iff.mp (h d rfl)
      exact if_neg fun hc => hd hc.2
  | plain ho hb =>
    rw [if_neg ho]
    cases t with
    | nil => rfl
    | cons d t => exact if_neg fun hc => hb hc.1

/-- no escape reaches from a unit into the text after it -/
theorem unescape_append (h : FirstUnit c t u r) {w : Text} (hw : w <+: r) :
    unescape (u ++ w) = unescape u ++ unescape w := by
  cases h with
  | group h =>
    have hopen : ('(' : Char) ≠ '\\' := by decide
    rw [List.cons_append, unescape_cons_of_ne _ hopen, unescape_cons_of_ne _ hopen,
      (closes_of_splitGroup h).unescape_append, List.cons_append]
  | opening h => exact unescape_cons_of_ne w (by decide)
  | escape h =>
    rename_i d
    rw [unescape_pair [] h]
    exact unescape_pair w h
  | backslash h =>
    cases w with
    | nil => rfl
    | cons d w =>
      obtain ⟨s, rfl⟩ := hw
      have hd : ¬needsEscape d = true := Bool.eq_false_iff.mp (h d rfl)
      exact if_neg fun hc => hd hc.2
  | plain ho hb => exact unescape_cons_of_ne w hb

/-- a unit stays the same with another text behind it, as long as no parenthesis finds its partner
now and nothing becomes an escape -/
theorem exchange {r' : Text} (h : FirstUnit c t u r)
    (hg : u = ['('] → splitGroup 0 r = none → splitGroup 0 r' = none)
    (hd : ∀ d ∈ r'.head?, needsEscape d = true → d ∈ r.head?) :
    ∃ v, u = c :: v ∧ FirstUnit c (v ++ r') u r' := by
  cases h with
  | group h =>
    exact ⟨_, rfl, .group ((closes_of_splitGroup h).splitGroup_append r')⟩
  | opening h => exact ⟨[], rfl, .opening (hg rfl h)⟩
  | escape h => exact ⟨_, rfl, .escape h⟩
  | backslash h =>
    refine ⟨[], rfl, .backslash fun d hr' => ?_⟩
    cases hn : needsEscape d with
    | false => rfl
    | true =>
      have hr := h d (hd d hr' hn)
      rwa [hn] at hr
  | plain ho hb => exact ⟨[], rfl, .plain ho hb⟩

theorem append_behind {more : Text} (h : FirstUnit c t u r)
    (hg : u = ['('] → splitGroup 0 r = none → splitGroup 0 (r ++ more) = none)
    (hd : ∀ d ∈ more.head?, needsEscape d = false) : FirstUnit c (t ++ more) u (r ++ more) := by
  have hfirst : ∀ d ∈ (r ++ more).head?, needsEscape d = true → d ∈ r.head? := by
    intro d hmore hn
    cases r with
    | nil => exact absurd hn (Bool.eq_false_iff.mp (hd d hmore))
    | cons e r => exact hmore
  obtain ⟨v, rfl, hunit⟩ := h.exchange hg hfirst
  have htext := nextUnit_append c t
  rw [h.nextUnit_eq] at htext
  have ht : v ++ r = t := List.tail_eq_of_cons_eq htext
  rwa [← List.append_assoc, ht] at hunit

end FirstUnit

theorem nextUnit_blank (t : Text) : nextUnit ' ' t = ([' '], t) :=
  (FirstUnit.plain (by decide) (by decide)).nextUnit_eq

theorem walk_cons {c : Char} (h : c ≠ '#') (t : Text) :
    walk (c :: t) = (walk (nextUnit c t).2).map fun (us, r) => ((nextUnit c t).1 :: us, r) := by
  rw [walk, if_neg h]

theorem walk_blank (t : Text) : walk (' ' :: t) = (walk t).map fun (us, r) => ([' '] :: us, r) := by
  rw [walk_cons (by decide), nextUnit_blank]

/-! ## escapes written anew -/

/-- a text with its escapes resolved and written anew, so that every `#` and every backslash of its
meaning has one -/
def reescape (t : Text) : Text := escape (unescape t)

theorem unescape_reescape (t : Text) : unescape (reescape t) = unescape t :=
  unescape_escape (unescape t)

theorem brackets_reescape (t : Text) : brackets (reescape t) = brackets t := by
  rw [reescape, brackets_escape, brackets_unescape]

theorem eq_nil_of_reescape {t : Text} (h : reescape t = []) : t = [] := by
  have hu : unescape t = [] := by
    rw [← unescape_reescape, h]
    rfl
  cases t with
  | nil => rfl
  | cons c t =>
    cases t with
    | nil => cases hu
    | cons d t =>
      rw [unescape] at hu
      split at hu <;> cases hu

namespace FirstUnit

variable {c : Char} {t u r : Text}

theorem reescape_append (h : FirstUnit c t u r) {w : Text} (hw : w <+: r) :
    reescape (u ++ w) = reescape u ++ reescape w := by
  rw [reescape, h.unescape_append hw, escape_append]
  rfl

/-- with its escapes written anew, a unit is the first of any text that has the same parentheses
after it -/
theorem reescape (h : FirstUnit c t u r) (hc : c ≠ '#') {more : Text}
    (hm : brackets more = brackets r) :
    ∃ v, Stencil.reescape u = c :: v ∧ FirstUnit c (v ++ more) (c :: v) more := by
  cases h with
  | group h =>
    rename_i g
    have hg : Closes 0 (Stencil.reescape g) := (closes_of_splitGroup h).unescape.escape
    refine ⟨Stencil.reescape g, ?_, .group (hg.splitGroup_append more)⟩
    rw [Stencil.reescape, unescape_cons_of_ne _ (by decide)]
    rfl
  | opening h => exact ⟨[], rfl, .opening (splitGroup_eq_none_congr hm.symm h)⟩
  | escape h =>
    rename_i d
    refine ⟨[d], ?_, .escape h⟩
    rw [Stencil.reescape, unescape_pair [] h, unescape, Stencil.escape, if_pos h]
    rfl
  | backslash h =>
    -- written anew, a backslash that stood for itself is an escape
    exact ⟨['\\'], rfl, .escape rfl⟩
  | plain ho hb =>
    have he : needsEscape c = false := by simp [needsEscape, hc, hb]
    refine ⟨[], ?_, .plain ho hb⟩
    rw [Stencil.reescape, unescape, Stencil.escape, he]
    rfl

end FirstUnit

end Stencil
