import Stencil.Reference.Escape
import Stencil.Text.Blank

/-!
# Units of a reference

Inside a reference a text is read unit by unit. A unit is a group in matching parentheses, an
escape, or a single character; a parenthesis without a partner is a single character.

* `splitGroup`   the rest of a group, up to the parenthesis that closes it;
* `nextUnit`     the first unit of a text, and the text after it;
* `walk`         the units up to the `#` that ends a reference, and the text after it;
* `words`        the runs of units between blanks, each put together.
-/

namespace Stencil

/-! ## groups -/

/-- the text up to and with the parenthesis that closes the group we are in, `depth` further groups
being open inside it, and the text after it -/
def splitGroup (depth : Nat) : Text → Option (Text × Text)
  | [] => none
  | c :: t =>
    if c = ')' then
      match depth with
      | 0 => some ([c], t)
      | d + 1 => (splitGroup d t).map fun (g, r) => (c :: g, r)
    else (splitGroup (if c = '(' then depth + 1 else depth) t).map fun (g, r) => (c :: g, r)

theorem append_of_splitGroup {depth : Nat} {t g r : Text} (h : splitGroup depth t = some (g, r)) :
    g ++ r = t := by
  induction t generalizing depth g with
  | nil => simp [splitGroup] at h
  | cons c t ih =>
    simp only [splitGroup] at h
    split at h
    · split at h
      · simp only [Option.some.injEq, Prod.mk.injEq] at h
        obtain ⟨rfl, rfl⟩ := h
        rfl
      · obtain ⟨⟨g', r'⟩, hg, he⟩ := Option.map_eq_some_iff.mp h
        simp only [Prod.mk.injEq] at he
        obtain ⟨rfl, rfl⟩ := he
        rw [List.cons_append, ih hg]
    · obtain ⟨⟨g', r'⟩, hg, he⟩ := Option.map_eq_some_iff.mp h
      simp only [Prod.mk.injEq] at he
      obtain ⟨rfl, rfl⟩ := he
      rw [List.cons_append, ih hg]

/-! ## units -/

/-- the first unit of the text `c :: t`, and the text after it -/
def nextUnit (c : Char) (t : Text) : Text × Text :=
  if c = '(' then
    match splitGroup 0 t with
    | some (g, r) => (c :: g, r)
    | none => ([c], t)
  else
    match t with
    | [] => ([c], [])
    | d :: r => if c = '\\' ∧ needsEscape d then ([c, d], r) else ([c], t)

theorem nextUnit_append (c : Char) (t : Text) : (nextUnit c t).1 ++ (nextUnit c t).2 = c :: t := by
  unfold nextUnit
  split
  · split
    · rename_i h
      rw [List.cons_append, append_of_splitGroup h]
    · rfl
  · split
    · rfl
    · split <;> rfl

theorem nextUnit_ne_nil (c : Char) (t : Text) : (nextUnit c t).1 ≠ [] := by
  unfold nextUnit
  split
  · split <;> simp
  · split
    · simp
    · split <;> simp

theorem length_nextUnit (c : Char) (t : Text) : (nextUnit c t).2.length ≤ t.length := by
  have h := congrArg List.length (nextUnit_append c t)
  have hp := List.length_pos_iff.mpr (nextUnit_ne_nil c t)
  simp only [List.length_append, List.length_cons] at h
  omega

/-- the units up to the `#` that ends a reference, and the text after it; none if no `#` is met -/
def walk (t : Text) : Option (List Text × Text) :=
  match t with
  | [] => none
  | c :: t =>
    if c = '#' then some ([], t)
    else (walk (nextUnit c t).2).map fun (us, r) => ((nextUnit c t).1 :: us, r)
termination_by t.length
decreasing_by exact Nat.lt_succ_of_le (length_nextUnit c t)

/-- a walk loses nothing -/
theorem append_of_walk {t r : Text} {us : List Text} (h : walk t = some (us, r)) :
    us.flatten ++ '#' :: r = t := by
  fun_induction walk t generalizing us with
  | case1 => simp at h
  | case2 t =>
    simp only [Option.some.injEq, Prod.mk.injEq] at h
    obtain ⟨rfl, rfl⟩ := h
    rfl
  | case3 c t hc ih =>
    obtain ⟨⟨us', r'⟩, hw, he⟩ := Option.map_eq_some_iff.mp h
    simp only [Prod.mk.injEq] at he
    obtain ⟨rfl, rfl⟩ := he
    rw [List.flatten_cons, List.append_assoc, ih hw, nextUnit_append]

theorem length_of_walk {t r : Text} {us : List Text} (h : walk t = some (us, r)) :
    us.flatten.length + r.length < t.length := by
  rw [← append_of_walk h]
  simp only [List.length_append, List.length_cons]
  omega

/-! ## words -/

/-- a unit that separates words -/
def isBlankUnit (u : Text) : Bool := u == [' '] || u == ['\t']

def consWord (w : Text) (ws : List Text) : List Text := if w = [] then ws else w :: ws

/-- the word that the units start with, empty if a blank comes first, and the words after it -/
def wordsFrom : List Text → Text × List Text
  | [] => ([], [])
  | u :: us =>
    if isBlankUnit u then ([], consWord (wordsFrom us).1 (wordsFrom us).2)
    else (u ++ (wordsFrom us).1, (wordsFrom us).2)

def words (us : List Text) : List Text := consWord (wordsFrom us).1 (wordsFrom us).2

def spacedLength : List Text → Nat
  | [] => 0
  | t :: ts => t.length + 1 + spacedLength ts

@[simp] theorem spacedLength_nil : spacedLength [] = 0 := rfl

@[simp] theorem spacedLength_cons (t : Text) (ts : List Text) :
    spacedLength (t :: ts) = t.length + 1 + spacedLength ts := rfl

theorem spacedLength_consWord (w : Text) (ws : List Text) :
    spacedLength (consWord w ws) ≤ w.length + 1 + spacedLength ws := by
  unfold consWord
  split
  · omega
  · exact Nat.le_of_eq (spacedLength_cons w ws)

theorem length_of_isBlankUnit {u : Text} (h : isBlankUnit u) : u.length = 1 := by
  simp only [isBlankUnit, Bool.or_eq_true, beq_iff_eq] at h
  rcases h with h | h <;> subst h <;> rfl

theorem spacedLength_wordsFrom (us : List Text) :
    (wordsFrom us).1.length + spacedLength (wordsFrom us).2 ≤ us.flatten.length := by
  induction us with
  | nil => simp [wordsFrom]
  | cons u us ih =>
    simp only [wordsFrom, List.flatten_cons, List.length_append]
    split
    · rename_i h
      have hu := length_of_isBlankUnit h
      have hw := spacedLength_consWord (wordsFrom us).1 (wordsFrom us).2
      simp only [List.length_nil]
      omega
    · simp only [List.length_append]
      omega

/-- words are kept apart by blanks -/
theorem spacedLength_words (us : List Text) : spacedLength (words us) ≤ us.flatten.length + 1 := by
  have hw := spacedLength_consWord (wordsFrom us).1 (wordsFrom us).2
  have hf := spacedLength_wordsFrom us
  unfold words
  omega

end Stencil
