import Stencil.Command.Arguments
import Stencil.Proofs.Units

/-!
# Plain words

A word none of whose characters opens a group, ends a reference, starts an escape or separates words
is read as it is written: between two `#` it is the name of a reference, and in the head of a command
it is an argument.

* `Text.Plain`                a word of such characters;
* `characters`                the characters of a text, each as a unit;
* `walk_plain_append`, `argumentUnits_plain`   the units of a plain word;
* `Segment.scan_plain`        a plain word between two `#`;
* `splitArguments_joinWords`  plain words with blanks between them.
-/

namespace Stencil

/-- the characters that do not stand for themselves in a reference or in the head of a command -/
def isSpecial (c : Char) : Bool := Text.isBlank c || needsEscape c || c == '(' || c == ')'

/-- a word of characters that stand for themselves -/
structure Text.Plain (w : Text) : Prop where
  ne_nil : w ≠ []
  chars : ∀ c ∈ w, isSpecial c = false

instance (w : Text) : Decidable w.Plain :=
  decidable_of_iff (w ≠ [] ∧ w.all (!isSpecial ·) = true)
    ⟨fun h => ⟨h.1, by simpa using h.2⟩, fun h => ⟨h.ne_nil, by simpa using h.chars⟩⟩

section
variable {c : Char} (h : isSpecial c = false)
include h

theorem needsEscape_of_isSpecial : needsEscape c = false := by
  simp only [isSpecial, Bool.or_eq_false_iff] at h
  exact h.1.1.2

theorem ne_hash_of_isSpecial : c ≠ '#' := by
  rintro rfl
  cases h

theorem isBlankUnit_of_isSpecial : isBlankUnit [c] = false := by
  simp only [isSpecial, Text.isBlank, Bool.or_eq_false_iff, beq_eq_false_iff_ne] at h
  simp [isBlankUnit, h.1.1.1.1, h.1.1.1.2]

theorem nextUnit_of_isSpecial (t : Text) : nextUnit c t = ([c], t) := by
  have hopen : c ≠ '(' := by
    rintro rfl
    cases h
  have hback : c ≠ '\\' := by
    rintro rfl
    cases h
  exact (FirstUnit.plain hopen hback).nextUnit_eq

end

/-! ## escapes -/

theorem escape_of_plain {w : Text} (h : ∀ c ∈ w, isSpecial c = false) : escape w = w := by
  induction w with
  | nil => rfl
  | cons c w ih =>
    have hc := needsEscape_of_isSpecial (h c List.mem_cons_self)
    rw [escape, hc, ih fun d hd => h d (List.mem_cons_of_mem c hd)]
    rfl

theorem unescape_of_plain {w : Text} (h : ∀ c ∈ w, isSpecial c = false) : unescape w = w := by
  have hw := unescape_escape w
  rwa [escape_of_plain h] at hw

/-! ## units -/

def characters (t : Text) : List Text := t.map fun c => [c]

theorem characters_cons (c : Char) (t : Text) : characters (c :: t) = [c] :: characters t := rfl

theorem walk_plain_append {w : Text} (h : ∀ c ∈ w, isSpecial c = false) (t : Text) :
    walk (w ++ t) = (walk t).map fun (us, r) => (characters w ++ us, r) := by
  induction w with
  | nil => exact Option.map_id_apply.symm
  | cons c w ih =>
    have hc := h c List.mem_cons_self
    rw [List.cons_append, walk_cons (ne_hash_of_isSpecial hc), nextUnit_of_isSpecial hc,
      ih fun d hd => h d (List.mem_cons_of_mem c hd), Option.map_map]
    rfl

theorem walk_plain {w : Text} (h : ∀ c ∈ w, isSpecial c = false) (rest : Text) :
    walk (w ++ '#' :: rest) = some (characters w, rest) := by
  rw [walk_plain_append h, walk, if_pos rfl]
  show some (characters w ++ [], rest) = _
  rw [List.append_nil]

theorem argumentUnits_cons {c : Char} (h : c ≠ '#') (t : Text) :
    argumentUnits (c :: t) = (nextUnit c t).1 :: argumentUnits (nextUnit c t).2 := by
  rw [argumentUnits.eq_def]
  exact if_neg h

theorem argumentUnits_plain {w : Text} (h : ∀ c ∈ w, isSpecial c = false) (t : Text) :
    argumentUnits (w ++ t) = characters w ++ argumentUnits t := by
  induction w with
  | nil => rfl
  | cons c w ih =>
    have hc := h c List.mem_cons_self
    rw [List.cons_append, argumentUnits_cons (ne_hash_of_isSpecial hc), nextUnit_of_isSpecial hc,
      ih fun d hd => h d (List.mem_cons_of_mem c hd)]
    rfl

theorem argumentUnits_blank (t : Text) : argumentUnits (' ' :: t) = [' '] :: argumentUnits t := by
  rw [argumentUnits_cons (by decide), nextUnit_blank]

/-! ## words -/

theorem wordsFrom_blank (us : List Text) : wordsFrom ([' '] :: us) = ([], words us) := rfl

theorem wordsFrom_cons {u : Text} (h : isBlankUnit u = false) (us : List Text) :
    wordsFrom (u :: us) = (u ++ (wordsFrom us).1, (wordsFrom us).2) := by
  rw [wordsFrom, h]
  rfl

theorem wordsFrom_characters {w : Text} (h : ∀ c ∈ w, isSpecial c = false) (us : List Text) :
    wordsFrom (characters w ++ us) = (w ++ (wordsFrom us).1, (wordsFrom us).2) := by
  induction w with
  | nil => rfl
  | cons c w ih =>
    have hc := isBlankUnit_of_isSpecial (h c List.mem_cons_self)
    rw [characters_cons, List.cons_append, wordsFrom_cons hc,
      ih fun d hd => h d (List.mem_cons_of_mem c hd)]
    rfl

theorem consWord_of_ne_nil {w : Text} (h : w ≠ []) (ws : List Text) : consWord w ws = w :: ws :=
  if_neg h

theorem words_characters {w : Text} (h : w.Plain) : words (characters w) = [w] := by
  have hw := wordsFrom_characters h.chars []
  rw [List.append_nil] at hw
  rw [words, hw]
  show consWord (w ++ []) [] = _
  rw [List.append_nil, consWord_of_ne_nil h.ne_nil]

/-! ## references -/

theorem Reference.ofUnits?_plain {w : Text} (h : w.Plain) :
    ofUnits? (characters w) = some ⟨w, []⟩ := by
  rw [ofUnits?, words_characters h, List.map_singleton, unescape_of_plain h.chars]

namespace Segment

theorem scan_plain {w : Text} (h : w.Plain) (rest : Text) :
    scan ('#' :: (w ++ '#' :: rest)) = .reference ⟨w, []⟩ :: scan rest := by
  rw [scan_of_walk (walk_plain h.chars rest), ofUnits, Reference.ofUnits?_plain h]

end Segment

/-! ## arguments -/

theorem wordsFrom_joinWords {w : Text} {ws : List Text} (h : ∀ v ∈ w :: ws, v.Plain) :
    wordsFrom (argumentUnits (Text.joinWords (w :: ws))) = (w, ws) := by
  induction ws generalizing w with
  | nil =>
    have hw := h w List.mem_cons_self
    have hunits := argumentUnits_plain hw.chars []
    rw [List.append_nil, argumentUnits] at hunits
    rw [Text.joinWords_singleton, hunits, wordsFrom_characters hw.chars]
    show (w ++ [], []) = _
    rw [List.append_nil]
  | cons v ws ih =>
    have hw := h w List.mem_cons_self
    have hlater : ∀ u ∈ v :: ws, u.Plain := fun u hu => h u (List.mem_cons_of_mem w hu)
    rw [Text.joinWords_cons_cons, argumentUnits_plain hw.chars, argumentUnits_blank,
      wordsFrom_characters hw.chars, wordsFrom_blank, words, ih hlater]
    show (w ++ [], consWord v ws) = _
    rw [List.append_nil, consWord_of_ne_nil (hlater v List.mem_cons_self).ne_nil]

theorem splitArguments_joinWords {ws : List Text} (h : ∀ w ∈ ws, w.Plain) :
    splitArguments (Text.joinWords ws) = ws := by
  cases ws with
  | nil =>
    show words (argumentUnits []) = []
    rw [argumentUnits]
    rfl
  | cons w ws =>
    rw [splitArguments, words, wordsFrom_joinWords h]
    exact consWord_of_ne_nil (h w List.mem_cons_self).ne_nil ws

end Stencil
