import Stencil.Proofs.Plain

/-!
# Arguments in front of plain words

The head of a command can be cut at a blank as soon as what stands behind it can neither close a
group nor end a reference that is open in front of it.

* `Text.Inert`              a text that changes nothing in the units in front of it, such as a plain
                            word behind a blank (`Text.Plain.inert`);
* `FirstUnit.append`, `walk_append`, `argumentUnits_append`   units with such a text behind them;
* `words_append_blank`      words on both sides of a blank;
* `splitArguments_append`   the arguments of a head with such a text behind a blank;
* `splitArguments_cons`, `splitArguments_concat`   a plain word in front of a head, and behind it.
-/

namespace Stencil

/-- a text without parentheses and without `#`, whose first character is not escaped by a backslash
in front of it -/
structure Text.Inert (t : Text) : Prop where
  noBrackets : brackets t = []
  noHash : '#' ∉ t
  first : ∀ d ∈ t.head?, needsEscape d = false

theorem isBracket_of_isSpecial {c : Char} (h : isSpecial c = false) : isBracket c = false := by
  refine Bool.eq_false_iff.mpr fun hb => ?_
  simp only [isBracket, Bool.or_eq_true, beq_iff_eq] at hb
  rcases hb with rfl | rfl <;> cases h

theorem Text.Plain.inert {w : Text} (h : w.Plain) : Text.Inert (' ' :: w) := by
  refine ⟨?_, ?_, ?_⟩
  · refine List.filter_eq_nil_iff.mpr fun c hc => Bool.eq_false_iff.mp ?_
    rcases List.mem_cons.mp hc with rfl | hc
    · rfl
    · exact isBracket_of_isSpecial (h.chars c hc)
  · intro hc
    rcases List.mem_cons.mp hc with hc | hc
    · cases hc
    · exact ne_hash_of_isSpecial (h.chars _ hc) rfl
  · intro d hd
    obtain rfl : ' ' = d := Option.some.inj hd
    rfl

/-! ## units -/

theorem walk_eq_none {t : Text} (h : '#' ∉ t) : walk t = none := by
  refine Option.eq_none_iff_forall_ne_some.mpr fun ⟨us, r⟩ hw => h ?_
  rw [← append_of_walk hw]
  exact List.mem_append_right _ List.mem_cons_self

theorem argumentUnits_reference {t r : Text} {us : List Text} (h : walk t = some (us, r)) :
    argumentUnits ('#' :: t) = ('#' :: us.flatten ++ ['#']) :: argumentUnits r := by
  rw [argumentUnits.eq_def]
  simp only [if_true]
  split
  · rename_i us' r' hw
    rw [h] at hw
    obtain ⟨rfl, rfl⟩ := Prod.mk.inj (Option.some.inj hw)
    rfl
  · rename_i hw
    rw [h] at hw
    cases hw

theorem argumentUnits_unended {t : Text} (h : walk t = none) :
    argumentUnits ('#' :: t) = ['#'] :: argumentUnits t := by
  rw [argumentUnits.eq_def]
  simp only [if_true]
  split
  · rename_i hw
    rw [h] at hw
    cases hw
  · rfl

section
variable {more : Text} (hm : more.Inert)
include hm

/-- no unit reaches into such a text, and none is cut short by it -/
theorem FirstUnit.append {c : Char} {t u r : Text} (h : FirstUnit c t u r) :
    FirstUnit c (t ++ more) u (r ++ more) := by
  refine h.append_behind (fun _ hr => ?_) hm.first
  have hb : brackets r = brackets (r ++ more) := by
    rw [brackets_append, hm.noBrackets, List.append_nil]
  exact splitGroup_eq_none_congr hb hr

theorem nextUnit_append_inert (c : Char) (t : Text) :
    nextUnit c (t ++ more) = ((nextUnit c t).1, (nextUnit c t).2 ++ more) :=
  ((firstUnit_nextUnit c t).append hm).nextUnit_eq

theorem walk_append (t : Text) :
    walk (t ++ more) = (walk t).map fun (us, r) => (us, r ++ more) := by
  fun_induction walk t with
  | case1 => exact walk_eq_none hm.noHash
  | case2 t => rw [List.cons_append, walk, if_pos rfl]; rfl
  | case3 c t hc ih =>
    rw [List.cons_append, walk_cons hc, nextUnit_append_inert hm, ih, Option.map_map,
      Option.map_map]
    rfl

theorem argumentUnits_append (t : Text) :
    argumentUnits (t ++ more) = argumentUnits t ++ argumentUnits more := by
  fun_induction argumentUnits t with
  | case1 => rfl
  | case2 t us r h ih =>
    have hw : walk (t ++ more) = some (us, r ++ more) := by
      rw [walk_append hm, h]
      rfl
    rw [List.cons_append, argumentUnits_reference hw, ih]
    rfl
  | case3 t h ih =>
    have hw : walk (t ++ more) = none := by
      rw [walk_append hm, h]
      rfl
    rw [List.cons_append, argumentUnits_unended hw, ih, List.cons_append]
  | case4 c t h ih =>
    rw [List.cons_append, argumentUnits_cons h, nextUnit_append_inert hm, ih, List.cons_append]

end

/-! ## words -/

theorem consWord_append (w : Text) (vs ws : List Text) :
    consWord w (vs ++ ws) = consWord w vs ++ ws := by
  unfold consWord
  split
  · rfl
  · rfl

theorem wordsFrom_append_blank (us vs : List Text) :
    wordsFrom (us ++ [' '] :: vs) = ((wordsFrom us).1, (wordsFrom us).2 ++ words vs) := by
  induction us with
  | nil => rw [List.nil_append, wordsFrom_blank]; rfl
  | cons u us ih =>
    rw [List.cons_append, wordsFrom, wordsFrom, ih]
    split
    · rw [consWord_append]
    · rfl

theorem words_append_blank (us vs : List Text) :
    words (us ++ [' '] :: vs) = words us ++ words vs := by
  rw [words, wordsFrom_append_blank, consWord_append]
  rfl

/-! ## arguments -/

/-- **A head is cut at a blank**: in front of the blank anything may stand, behind it no parenthesis
and no `#` -/
theorem splitArguments_append (s : Text) {t : Text} (h : Text.Inert (' ' :: t)) :
    splitArguments (s ++ ' ' :: t) = splitArguments s ++ splitArguments t := by
  rw [splitArguments, argumentUnits_append h, argumentUnits_blank, words_append_blank]
  rfl

theorem splitArguments_concat (s : Text) {w : Text} (h : w.Plain) :
    splitArguments (s ++ ' ' :: w) = splitArguments s ++ [w] := by
  have hword := splitArguments_joinWords (List.forall_mem_singleton.mpr h)
  rw [Text.joinWords_singleton] at hword
  rw [splitArguments_append s h.inert, hword]

theorem splitArguments_cons {w : Text} (h : w.Plain) (t : Text) :
    splitArguments (w ++ ' ' :: t) = w :: splitArguments t := by
  rw [splitArguments, argumentUnits_plain h.chars, argumentUnits_blank, words_append_blank,
    words_characters h]
  rfl

end Stencil
