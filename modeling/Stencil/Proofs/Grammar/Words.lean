import Stencil.Proofs.Grammar.Units
import Stencil.Proofs.Spacing

/-!
# The words of the grammar

The rules that read words with blanks between them read the words of the units.

* `Grammar.UnitByUnit`        an expression reads units one at a time, but no blank;
* `Grammar.WordRule`          a rule that reads one such unit or more;
* `Grammar.reads_spacedOut`   words with blanks around them.
-/

namespace Stencil

namespace Grammar

open Expression Rule Reads

/-! ## blanks -/

theorem reads_blank {c : Char} (h : Text.isBlank c = true) (t : Text) :
    template.Reads (.rule .blank) (c :: t) (some ⟨[c], [], t⟩) := by
  simp only [Text.isBlank, Bool.or_eq_true, beq_iff_eq] at h
  rcases h with rfl | rfl
  · exact .silent rfl (.left .char)
  · exact .silent rfl (.right (.noChar (by simp)) .char)

theorem noBlank {t : Text} (h : ∀ c ∈ t.head?, Text.isBlank c = false) :
    template.Reads (.rule .blank) t none := by
  have hne {c : Char} (hc : Text.isBlank c = true) : t.head? ≠ some c := by
    intro ht
    rw [h c ht] at hc
    cases hc
  exact .noRule (.right (.noChar (hne rfl)) (.noChar (hne rfl)))

theorem noBlank_cons {c : Char} (h : Text.isBlank c = false) (t : Text) :
    template.Reads (.rule .blank) (c :: t) none := by
  refine noBlank fun d hd => ?_
  obtain rfl : c = d := Option.some.inj hd
  exact h

theorem head?_ne_of_isBlank {c d : Char} (hc : Text.isBlank c = true) (hd : Text.isBlank d = false)
    (t : Text) : (c :: t).head? ≠ some d := by
  intro h
  rw [Option.some.inj h, hd] at hc
  cases hc

theorem reads_blanks {s r : Text} (hs : s.Blanks) (hr : ∀ c ∈ r.head?, Text.isBlank c = false) :
    template.Reads (many (.rule .blank)) (s ++ r) (some ⟨s, [], r⟩) := by
  induction s with
  | nil => exact .stop (noBlank hr)
  | cons c s ih =>
    have hrest := ih fun d hd => hs d (List.mem_cons_of_mem c hd)
    exact (reads_blank (hs c List.mem_cons_self) (s ++ r)).more hrest

theorem reads_someBlanks {s r : Text} (hs : s.Blanks) (hne : s ≠ [])
    (hr : ∀ c ∈ r.head?, Text.isBlank c = false) :
    template.Reads (oneOrMore (.rule .blank)) (s ++ r) (some ⟨s, [], r⟩) := by
  obtain ⟨c, s, rfl⟩ := List.exists_cons_of_ne_nil hne
  have hrest := reads_blanks (fun d hd => hs d (List.mem_cons_of_mem c hd)) hr
  exact .seq (reads_blank (hs c List.mem_cons_self) (s ++ r)) hrest

/-! ## words -/

/-- in front of `r`, where it fails, `e` reads each of the units that is no blank by itself -/
inductive UnitByUnit (e : Expression Rule) (r : Text) : List Text → Prop
  | nil (h : template.Reads e r none) : UnitByUnit e r []
  | cons {u : Text} {us : List Text}
      (h : isBlankUnit u = false →
        template.Reads e (u ++ (us.flatten ++ r)) (some ⟨u, [], us.flatten ++ r⟩))
      (h' : UnitByUnit e r us) : UnitByUnit e r (u :: us)

/-- the rule `n` reads one unit of `e` or more, and `e` reads no blank -/
structure WordRule (n : Rule) (e : Expression Rule) : Prop where
  body : n.body = oneOrMore e
  pair : n.isSilent = false
  noBlank : ∀ c t, Text.isBlank c = true → template.Reads e (c :: t) none

def wordPairs (n : Rule) (ws : List (List Text)) : List (Pair Rule) :=
  ws.map fun w => .mk n w.flatten []

theorem textsOf_wordPairs (n : Rule) (ws : List (List Text)) :
    Pair.textsOf n (wordPairs n ws) = ws.map List.flatten := by
  have hall : ∀ p ∈ wordPairs n ws, decide (p.rule = n) = true := by
    intro p hp
    obtain ⟨w, -, rfl⟩ := List.mem_map.mp hp
    exact decide_eq_true rfl
  rw [Pair.textsOf, List.filter_eq_self.mpr hall, wordPairs, List.map_map]
  rfl

section
variable {n : Rule} {e : Expression Rule} {r : Text}

theorem UnitByUnit.of_append {v us : List Text} (h : UnitByUnit e r (v ++ us)) :
    UnitByUnit e r us := by
  induction v with
  | nil => exact h
  | cons u v ih =>
    cases h with
    | cons _ h => exact ih h

theorem UnitByUnit.atEnd {us : List Text} (h : UnitByUnit e r us) : template.Reads e r none := by
  induction h with
  | nil h => exact h
  | cons _ _ ih => exact ih

theorem UnitByUnit.atBlank {us : List Text} (h : UnitByUnit e r us) (hn : WordRule n e)
    (hu : ∀ u ∈ us.head?, isBlankUnit u = true) : template.Reads e (us.flatten ++ r) none := by
  cases us with
  | nil => exact h.atEnd
  | cons u us =>
    obtain ⟨c, rfl, hc⟩ := isBlankUnit_iff.mp (hu u rfl)
    exact hn.noBlank c (us.flatten ++ r) hc

section
variable {u : Text} {w us : List Text} (hw : ∀ v ∈ u :: w, isBlankUnit v = false)
include hw

theorem UnitByUnit.first (h : UnitByUnit e r (u :: w ++ us)) :
    template.Reads e (u ++ (w.flatten ++ (us.flatten ++ r)))
      (some ⟨u, [], w.flatten ++ (us.flatten ++ r)⟩) := by
  rw [List.cons_append] at h
  cases h with
  | cons h _ =>
    have hunit := h (hw u List.mem_cons_self)
    rwa [List.flatten_append, List.append_assoc] at hunit

theorem UnitByUnit.noBlank (h : UnitByUnit e r (u :: w ++ us)) (hn : WordRule n e) :
    ∀ c ∈ ((u :: w).flatten ++ (us.flatten ++ r)).head?, Text.isBlank c = false := by
  have hunit := h.first hw
  rw [List.flatten_cons, List.append_assoc]
  intro c hc
  generalize u ++ (w.flatten ++ (us.flatten ++ r)) = t at hunit hc
  obtain ⟨t, rfl⟩ := List.head?_eq_some_iff.mp hc
  refine Bool.eq_false_iff.mpr fun hblank => ?_
  cases hunit.unique (hn.noBlank c t hblank)

end

section
variable {w us : List Text} (hn : WordRule n e) (hus : ∀ u ∈ us.head?, isBlankUnit u = true)
include hn hus

theorem UnitByUnit.many (h : UnitByUnit e r (w ++ us)) (hw : ∀ u ∈ w, isBlankUnit u = false) :
    template.Reads (.many e) (w.flatten ++ (us.flatten ++ r))
      (some ⟨w.flatten, [], us.flatten ++ r⟩) := by
  induction w with
  | nil => exact .stop (h.atBlank hn hus)
  | cons u w ih =>
    have hrest : UnitByUnit e r (w ++ us) := h.of_append (v := [u])
    have hmore := (h.first hw).more (ih hrest fun v hv => hw v (List.mem_cons_of_mem u hv))
    rw [List.flatten_cons, List.append_assoc]
    exact hmore

theorem UnitByUnit.word (h : UnitByUnit e r (w ++ us)) (hne : w ≠ [])
    (hw : ∀ u ∈ w, isBlankUnit u = false) :
    template.Reads (.rule n) (w.flatten ++ (us.flatten ++ r))
      (some ⟨w.flatten, [.mk n w.flatten []], us.flatten ++ r⟩) := by
  obtain ⟨u, w, rfl⟩ := List.exists_cons_of_ne_nil hne
  have hrest : UnitByUnit e r (w ++ us) := h.of_append (v := [u])
  have hmore := hrest.many hn hus fun v hv => hw v (List.mem_cons_of_mem u hv)
  have hword := (h.first hw).seq hmore
  rw [← List.append_assoc, ← List.flatten_cons] at hword
  refine .pair hn.pair ?_
  rw [show template.body n = _ from hn.body]
  exact hword

end

theorem noWord {t : Text} (hn : WordRule n e) (h : template.Reads e t none) :
    template.Reads (.rule n) t none := by
  refine .noRule ?_
  rw [show template.body n = _ from hn.body]
  exact .noFirst h

/-- the words behind a blank, and the blanks that are left over behind them -/
theorem reads_laterWords {us : List Text} {ws : List (List Text)} (h : Spaced us ws)
    (hn : WordRule n e) (hu : UnitByUnit e r us) (hr : ∀ c ∈ r.head?, Text.isBlank c = false)
    (hhead : ∀ u ∈ us.head?, isBlankUnit u = true) :
    ∃ s bs : Text, us.flatten = s ++ bs ∧ bs.Blanks ∧
      template.Reads (.many (.seq (oneOrMore (.rule .blank)) (.rule n))) (us.flatten ++ r)
        (some ⟨s, wordPairs n ws, bs ++ r⟩) := by
  induction h with
  | @blanks bs h =>
    refine ⟨[], bs.flatten, rfl, blanks_flatten h, .stop ?_⟩
    by_cases hne : bs.flatten = []
    · rw [hne]
      exact .noFirst (.noFirst (noBlank hr))
    · exact .noSecond (reads_someBlanks (blanks_flatten h) hne hr) (noWord hn hu.atEnd)
  | @word bs w us ws hb hne hw hus _ ih =>
    have hword : UnitByUnit e r (w ++ us) := (List.append_assoc bs w us ▸ hu).of_append
    obtain ⟨s, bs', htext, hbs', hlater⟩ := ih hword.of_append hus
    have hbs := flatten_blanks_ne_nil hb hne hw hhead
    obtain ⟨u, w, rfl⟩ := List.exists_cons_of_ne_nil hne
    have hblanks := reads_someBlanks (blanks_flatten hb) hbs (hword.noBlank hw hn)
    have hround := (hblanks.seq (hword.word hn hus hne hw)).more hlater
    refine ⟨bs.flatten ++ (u :: w).flatten ++ s, bs', ?_, hbs', ?_⟩
    · simp only [List.flatten_append, htext, List.append_assoc]
    · rw [List.flatten_append, List.flatten_append, List.append_assoc, List.append_assoc]
      exact hround

/-- the words of a text that starts with one, or with none, and the blanks that are left over -/
theorem reads_separated {us : List Text} {ws : List (List Text)} (h : Spaced us ws)
    (hn : WordRule n e) (hu : UnitByUnit e r us) (hr : ∀ c ∈ r.head?, Text.isBlank c = false) :
    ∃ front s bs : Text, us.flatten = front ++ (s ++ bs) ∧ front.Blanks ∧ bs.Blanks ∧
      (∀ c ∈ (s ++ (bs ++ r)).head?, Text.isBlank c = false) ∧
      template.Reads (separated n) (s ++ (bs ++ r)) (some ⟨s, wordPairs n ws, bs ++ r⟩) := by
  cases h with
  | blanks h =>
    refine ⟨us.flatten, [], [], (List.append_nil _).symm, blanks_flatten h, ?_, hr, ?_⟩
    · exact fun c hc => absurd hc List.not_mem_nil
    · exact .noOpt (.noFirst (noWord hn hu.atEnd))
  | @word bs w us ws hb hne hw hus h =>
    have hword : UnitByUnit e r (w ++ us) := (List.append_assoc bs w us ▸ hu).of_append
    obtain ⟨s, bs', htext, hbs', hlater⟩ := reads_laterWords h hn hword.of_append hr hus
    have hread := (hword.word hn hus hne hw).seq hlater
    obtain ⟨u, w, rfl⟩ := List.exists_cons_of_ne_nil hne
    have hblank := hword.noBlank hw hn
    have hrest : (u :: w).flatten ++ (us.flatten ++ r) = (u :: w).flatten ++ s ++ (bs' ++ r) := by
      simp only [htext, List.append_assoc]
    rw [hrest] at hread hblank
    refine ⟨bs.flatten, (u :: w).flatten ++ s, bs', ?_, blanks_flatten hb, hbs', hblank, .opt hread⟩
    simp only [List.flatten_append, htext, List.append_assoc]

/-- **Words with blanks around them are read**, and then what stands behind them -/
theorem reads_spacedOut {us : List Text} {ws : List (List Text)} (h : Spaced us ws)
    (hn : WordRule n e) (hu : UnitByUnit e r us) (hr : ∀ c ∈ r.head?, Text.isBlank c = false)
    {close : Expression Rule} {o : Option (Parsed Rule)} (hclose : template.Reads close r o) :
    template.Reads (spacedOut n close) (us.flatten ++ r)
      (o.map (.after us.flatten (wordPairs n ws))) := by
  obtain ⟨front, s, bs, htext, hfront, hbs, hblank, hwords⟩ := reads_separated h hn hu hr
  have hread := (reads_blanks hfront hblank).seq_map
    (hwords.seq_map ((reads_blanks hbs hr).seq_map hclose))
  simp only [Option.map_map, Function.comp_def, Parsed.after_after, List.nil_append,
    List.append_nil] at hread
  rw [htext, List.append_assoc, List.append_assoc]
  exact hread

end

end Grammar

end Stencil
