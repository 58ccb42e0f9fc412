import Stencil.Text.Case
import Mathlib.Data.List.Pairwise
import Mathlib.Data.List.SplitBy

/-!
# Capitals run by run

A text falls into runs of white space and runs of other characters.  Capitalising reads a text
character by character and remembers only what kind of character came last, and yet it treats each
run as a whole: a run of white space stays as it is, and of any other run the first character is put
in upper case.  So white space anywhere cuts the work in two.

* `Text.RunsOf`                 the longest runs of a text, one after the other;
* `Text.runs`                   the same, computed (`Text.runs_eq_iff`);
* `Text.capitalizeFrom_run`     capitalising one run;
* `Text.capitalizeFrom_space`   white space between two texts;
* `Text.capitalizeWords_runs`   capitalising all runs of a text.
-/

namespace Stencil.Text

/-! ## runs -/

/-- the longest runs of white space and of other characters that a text falls into; behind a run
stands a character of the other kind, or nothing -/
inductive RunsOf : Text → List Text → Prop
  | nil : RunsOf [] []
  | cons {k : Bool} {r t : Text} {rs : List Text} (hne : r ≠ []) (hr : ∀ c ∈ r, isSpace c = k)
      (ht : ∀ c ∈ t.head?, isSpace c ≠ k) (h : RunsOf t rs) : RunsOf (r ++ t) (r :: rs)

/-- the longest runs of white space and of other characters -/
def runs (t : Text) : List Text := t.splitBy fun c d => isSpace c == isSpace d

theorem RunsOf.runs_eq {t : Text} {rs : List Text} (h : RunsOf t rs) : runs t = rs := by
  induction h with
  | nil => rfl
  | @cons k r t rs hne hr ht _ ih =>
    have hinside : r.IsChain fun c d => isSpace c == isSpace d := by
      apply List.Pairwise.isChain
      apply List.pairwise_of_forall_mem_list
      intro c hc d hd
      rw [hr c hc, hr d hd]
      exact beq_self_eq_true k
    have hbehind : ∀ c ∈ r.getLast?, ∀ d ∈ t.head?, (isSpace c == isSpace d) = false := by
      intro c hc d hd
      rw [hr c (List.mem_of_mem_getLast? hc)]
      exact beq_false_of_ne (ht d hd).symm
    rw [runs, List.splitBy_append hbehind, List.splitBy_of_isChain hne hinside]
    exact congrArg (r :: ·) ih

theorem exists_runsOf (t : Text) : ∃ rs, RunsOf t rs := by
  induction t with
  | nil => exact ⟨[], .nil⟩
  | cons c t ih =>
    obtain ⟨rs, h⟩ := ih
    have halone : ∀ d ∈ [c], isSpace d = isSpace c := by
      intro d hd
      rw [List.mem_singleton.mp hd]
    cases h with
    | nil => exact ⟨_, .cons (List.cons_ne_nil c []) halone (by simp) .nil⟩
    | @cons k r t rs hne hr ht h =>
      by_cases hc : isSpace c = k
      · have hlonger : ∀ d ∈ c :: r, isSpace d = k := List.forall_mem_cons.mpr ⟨hc, hr⟩
        exact ⟨_, .cons (List.cons_ne_nil c r) hlonger ht h⟩
      · have hother : ∀ d ∈ (r ++ t).head?, isSpace d ≠ isSpace c := by
          intro d hd
          rw [List.head?_append_of_ne_nil r hne] at hd
          rw [hr d (List.mem_of_mem_head? hd)]
          exact fun he => hc he.symm
        exact ⟨_, .cons (List.cons_ne_nil c []) halone hother (.cons hne hr ht h)⟩

theorem runs_eq_iff {t : Text} {rs : List Text} : runs t = rs ↔ RunsOf t rs := by
  constructor
  · rintro rfl
    obtain ⟨rs, h⟩ := exists_runsOf t
    rwa [h.runs_eq]
  · exact RunsOf.runs_eq

/-! ## capitals -/

/-- a run with its first character in upper case, unless it is white space -/
def capitalizeRun (r : Text) : Text := if r.all isSpace then r else capitalizeFirst r

theorem capitalizeRun_cons {k : Bool} {c : Char} {r : Text} (h : ∀ d ∈ c :: r, isSpace d = k) :
    capitalizeRun (c :: r) = (if k then [c] else upperOf c) ++ r := by
  cases k with
  | true => exact if_pos (List.all_eq_true.mpr h)
  | false =>
    have hnot : ¬(c :: r).all isSpace = true := by
      intro hall
      have hc := List.all_eq_true.mp hall c List.mem_cons_self
      rw [h c List.mem_cons_self] at hc
      cases hc
    exact if_neg hnot

theorem capitalizeFrom_inside {k : Bool} {r : Text} (h : ∀ c ∈ r, isSpace c = k) (t : Text) :
    capitalizeFrom k (r ++ t) = r ++ capitalizeFrom k t := by
  induction r with
  | nil => rfl
  | cons c r ih =>
    obtain ⟨hc, hr⟩ := List.forall_mem_cons.mp h
    show (if k && !isSpace c then upperOf c else [c]) ++ capitalizeFrom (isSpace c) (r ++ t) = _
    rw [hc, ih hr]
    cases k <;> rfl

/-- a run in front of a text, where a word may start unless the run is white space -/
theorem capitalizeFrom_run {k fresh : Bool} {r : Text} (hne : r ≠ [])
    (h : ∀ c ∈ r, isSpace c = k) (hf : k = true ∨ fresh = true) (t : Text) :
    capitalizeFrom fresh (r ++ t) = capitalizeRun r ++ capitalizeFrom k t := by
  obtain ⟨c, r, rfl⟩ := List.exists_cons_of_ne_nil hne
  obtain ⟨hc, hr⟩ := List.forall_mem_cons.mp h
  show (if fresh && !isSpace c then upperOf c else [c]) ++ capitalizeFrom (isSpace c) (r ++ t) = _
  rw [capitalizeRun_cons h, hc, capitalizeFrom_inside hr, List.append_assoc]
  rcases hf with rfl | rfl
  · rw [Bool.not_true, Bool.and_false]
    rfl
  · cases k <;> rfl

theorem RunsOf.capitalizeFrom_eq {t : Text} {rs : List Text} (h : RunsOf t rs) {fresh : Bool}
    (hf : ∀ c ∈ t.head?, isSpace c = true ∨ fresh = true) :
    capitalizeFrom fresh t = rs.flatMap capitalizeRun := by
  induction h generalizing fresh with
  | nil => rfl
  | @cons k r t rs hne hr ht _ ih =>
    obtain ⟨c, hc⟩ := Option.isSome_iff_exists.mp (List.isSome_head?.mpr hne)
    have hfirst : k = true ∨ fresh = true := by
      rw [← hr c (List.mem_of_mem_head? hc)]
      apply hf
      rw [List.head?_append_of_ne_nil r hne]
      exact hc
    -- behind a run that is no white space the next one is
    have hnext : ∀ d ∈ t.head?, isSpace d = true ∨ k = true := by
      intro d hd
      have hother := ht d hd
      cases k with
      | true => exact .inr rfl
      | false => exact .inl (eq_true_of_ne_false hother)
    rw [capitalizeFrom_run hne hr hfirst, ih hnext, List.flatMap_cons]

theorem capitalizeFrom_space {w : Char} (hw : isSpace w = true) (fresh : Bool) (s t : Text) :
    capitalizeFrom fresh (s ++ w :: t) = capitalizeFrom fresh s ++ w :: capitalizeFrom true t := by
  induction s generalizing fresh with
  | nil =>
    show (if fresh && !isSpace w then upperOf w else [w]) ++ capitalizeFrom (isSpace w) t = _
    rw [hw, Bool.not_true, Bool.and_false]
    rfl
  | cons c s ih =>
    rw [List.cons_append, capitalizeFrom, ih, capitalizeFrom, List.append_assoc]

/-- **Capitalising the words of a text** leaves its runs of white space and puts the first character
of every other run in upper case; and it can be done on the two sides of any white space. -/
theorem capitalizeWords_runs (t : Text) :
    capitalizeWords t = (runs t).flatMap capitalizeRun ∧
      ∀ (w : Char) (u : Text), isSpace w = true →
        capitalizeWords (t ++ w :: u) = capitalizeWords t ++ w :: capitalizeWords u := by
  constructor
  · have h : RunsOf t (runs t) := runs_eq_iff.mp rfl
    exact h.capitalizeFrom_eq fun _ _ => .inr rfl
  · intro w u hw
    exact capitalizeFrom_space hw true t u

/-- blanks at the end, several in a row, and a letter whose upper case is two -/
theorem capitalizeWords_runs_sharp :
    let t : Text := "a\u2003\u2003ßc ".toList
    runs t = ["a".toList, "\u2003\u2003".toList, "ßc".toList, " ".toList] ∧
      capitalizeWords t = "A\u2003\u2003SSc ".toList ∧ isSpace '\u00a0' = true ∧
      capitalizeWords (t ++ '\u00a0' :: "éa".toList) = "A\u2003\u2003SSc \u00a0Éa".toList := by
  intro t
  have hspace : isSpace '\u00a0' = true := rfl
  have hruns : runs t = ["a".toList, "\u2003\u2003".toList, "ßc".toList, " ".toList] := by
    decide +kernel
  obtain ⟨hwords, happend⟩ := capitalizeWords_runs t
  have hfirst : capitalizeWords t = "A\u2003\u2003SSc ".toList := by
    rw [hwords, hruns]
    decide +kernel
  have hlast : capitalizeWords "éa".toList = "Éa".toList := by decide +kernel
  refine ⟨hruns, hfirst, hspace, ?_⟩
  rw [happend '\u00a0' _ hspace, hfirst, hlast]
  rfl

end Stencil.Text
