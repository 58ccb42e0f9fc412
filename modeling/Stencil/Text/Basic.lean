/-!
# Text as a list of characters

Every text of the library is a list of characters, so that scanning is recursion on the list.

* `Text`              a list of characters;
* `Text.shown`        the same text as a `String`, for messages;
* `Text.compare`      the order of texts, character by character, by code point;
* `Text.cutAt c t`    what stands before and after the first `c`;
* `Text.join`         texts put together with a separator between neighbours;
* `Text.joinWords`, `Text.joinLines`   the same with a blank or a line break between neighbours;
* `Text.utf8Size`     the number of bytes of the text in UTF-8;
* `Text.inRanges`     whether a character lies in one of some ranges of code points.
-/

namespace Stencil

/-- a text is the list of its characters -/
abbrev Text := List Char

namespace Text

def shown (t : Text) : String := String.ofList t

/-! ## order -/

/-- texts are ordered like words in a dictionary, characters by code point -/
def compare : Text → Text → Ordering
  | [], [] => .eq
  | [], _ :: _ => .lt
  | _ :: _, [] => .gt
  | a :: s, b :: t => if a = b then compare s t else if a < b then .lt else .gt

@[simp] theorem compare_self (t : Text) : compare t t = .eq := by
  induction t with
  | nil => rfl
  | cons a t ih => simp [compare, ih]

theorem eq_of_compare_eq {s t : Text} (h : compare s t = .eq) : s = t := by
  induction s generalizing t with
  | nil => cases t with
    | nil => rfl
    | cons b t => simp [compare] at h
  | cons a s ih => cases t with
    | nil => simp [compare] at h
    | cons b t =>
      by_cases hab : a = b
      · simp only [compare, hab, if_true] at h
        rw [hab, ih h]
      · simp only [compare, hab, if_false] at h
        split at h <;> simp at h

/-! ## cutting -/

theorem notMem_of_mem_splitOn {c : Char} {t p : Text} (h : p ∈ t.splitOn c) : c ∉ p := by
  induction t generalizing p with
  | nil =>
    rw [List.mem_singleton.mp h]
    exact List.not_mem_nil
  | cons a t ih =>
    obtain ⟨q, qs, hq⟩ := List.exists_cons_of_ne_nil (List.splitOn_ne_nil c t)
    rw [List.splitOn_cons_eq_if_modifyHead, hq] at h
    rw [hq] at ih
    split at h
    · rcases List.mem_cons.mp h with rfl | h
      · exact List.not_mem_nil
      · exact ih h
    · rename_i ha
      rcases List.mem_cons.mp h with rfl | h
      · rw [List.mem_cons, not_or]
        exact ⟨fun e => ha (beq_iff_eq.mpr e.symm), ih List.mem_cons_self⟩
      · exact ih (List.mem_cons_of_mem q h)

/-- what stands before and what stands after the first occurrence of a character -/
def cutAt (c : Char) : Text → Option (Text × Text)
  | [] => none
  | a :: t => if a = c then some ([], t) else (cutAt c t).map fun (p, r) => (a :: p, r)

theorem eq_of_cutAt {c : Char} {t p r : Text} (h : cutAt c t = some (p, r)) : t = p ++ c :: r := by
  induction t generalizing p with
  | nil => simp [cutAt] at h
  | cons a t ih =>
    by_cases hac : a = c
    · simp only [cutAt, hac, if_true, Option.some.injEq, Prod.mk.injEq] at h
      obtain ⟨rfl, rfl⟩ := h
      simp [hac]
    · simp only [cutAt, hac, if_false, Option.map_eq_some_iff] at h
      obtain ⟨⟨p', r'⟩, h', he⟩ := h
      simp only [Prod.mk.injEq] at he
      obtain ⟨rfl, rfl⟩ := he
      rw [ih h', List.cons_append]

theorem cutAt_of_notMem {c : Char} {t : Text} (h : c ∉ t) : cutAt c t = none := by
  induction t with
  | nil => rfl
  | cons a t ih =>
    have ha : a ≠ c := fun e => h (e ▸ List.mem_cons_self)
    rw [cutAt, if_neg ha, ih fun hm => h (List.mem_cons_of_mem a hm)]
    rfl

theorem cutAt_append {c : Char} {p : Text} (h : c ∉ p) (r : Text) :
    cutAt c (p ++ c :: r) = some (p, r) := by
  induction p with
  | nil => exact if_pos rfl
  | cons a p ih =>
    have ha : a ≠ c := fun e => h (e ▸ List.mem_cons_self)
    rw [List.cons_append, cutAt, if_neg ha, ih fun hm => h (List.mem_cons_of_mem a hm)]
    rfl

/-- what stands before and what stands after the first occurrence of two characters in a row -/
def cutAtPair (c d : Char) : Text → Option (Text × Text)
  | [] => none
  | [_] => none
  | a :: b :: t =>
    if a = c ∧ b = d then some ([], t)
    else (cutAtPair c d (b :: t)).map fun (p, r) => (a :: p, r)

theorem eq_of_cutAtPair {c d : Char} {t p r : Text} (h : cutAtPair c d t = some (p, r)) :
    t = p ++ c :: d :: r := by
  induction t generalizing p with
  | nil => simp [cutAtPair] at h
  | cons a t ih =>
    cases t with
    | nil => simp [cutAtPair] at h
    | cons b t =>
      by_cases hab : a = c ∧ b = d
      · simp only [cutAtPair, hab, and_self, if_true, Option.some.injEq, Prod.mk.injEq] at h
        obtain ⟨rfl, rfl⟩ := h
        rw [hab.1, hab.2]
        rfl
      · simp only [cutAtPair, hab, if_false, Option.map_eq_some_iff] at h
        obtain ⟨⟨p', r'⟩, h', he⟩ := h
        simp only [Prod.mk.injEq] at he
        obtain ⟨rfl, rfl⟩ := he
        rw [ih h', List.cons_append]

theorem cutAtPair_append {c d : Char} {p : Text} (h : c ∉ p) (r : Text) :
    cutAtPair c d (p ++ c :: d :: r) = some (p, r) := by
  induction p with
  | nil => exact if_pos ⟨rfl, rfl⟩
  | cons a p ih =>
    have ha : c ≠ a := fun e => h (e ▸ List.mem_cons_self)
    have hp : c ∉ p := fun hm => h (List.mem_cons_of_mem a hm)
    obtain ⟨b, t, hbt⟩ : ∃ b t, p ++ c :: d :: r = b :: t := by
      cases p with
      | nil => exact ⟨c, d :: r, rfl⟩
      | cons b p => exact ⟨b, p ++ c :: d :: r, rfl⟩
    have hrest := ih hp
    rw [hbt] at hrest
    rw [List.cons_append, hbt, cutAtPair, if_neg fun hcd => ha hcd.1.symm, hrest]
    rfl

/-- what stands before and what stands after the last occurrence of a character -/
def cutAtLast (c : Char) (t : Text) : Option (Text × Text) :=
  (cutAt c t.reverse).map fun (p, r) => (r.reverse, p.reverse)

theorem eq_of_cutAtLast {c : Char} {t p r : Text} (h : cutAtLast c t = some (p, r)) :
    t = p ++ c :: r := by
  obtain ⟨⟨p', r'⟩, h', he⟩ := Option.map_eq_some_iff.mp h
  simp only [Prod.mk.injEq] at he
  obtain ⟨rfl, rfl⟩ := he
  have ht := congrArg List.reverse (eq_of_cutAt h')
  rw [List.reverse_reverse, List.reverse_append, List.reverse_cons, List.append_assoc] at ht
  exact ht

theorem cutAtLast_append {c : Char} {r : Text} (h : c ∉ r) (p : Text) :
    cutAtLast c (p ++ c :: r) = some (p, r) := by
  have hr : c ∉ r.reverse := fun hm => h (List.mem_reverse.mp hm)
  have ht : (p ++ c :: r).reverse = r.reverse ++ c :: p.reverse := by simp
  rw [cutAtLast, ht, cutAt_append hr]
  simp

/-- the text without its last character, if that is the given one -/
def dropEnd? (c : Char) (t : Text) : Option Text :=
  if t.getLast? = some c then some t.dropLast else none

theorem eq_of_dropEnd? {c : Char} {t s : Text} (h : dropEnd? c t = some s) : t = s ++ [c] := by
  unfold dropEnd? at h
  split at h
  · rename_i hl
    obtain ⟨r, rfl⟩ := List.getLast?_eq_some_iff.mp hl
    simp only [List.dropLast_concat, Option.some.injEq] at h
    rw [h]
  · simp at h

theorem dropEnd?_concat (c : Char) (s : Text) : dropEnd? c (s ++ [c]) = some s := by
  simp [dropEnd?]

/-! ## joining -/

def join (sep : Text) (ts : List Text) : Text := List.intercalate sep ts

theorem join_cons_cons (c : Char) (t u : Text) (ts : List Text) :
    join [c] (t :: u :: ts) = t ++ c :: join [c] (u :: ts) := by
  simp [join, List.intercalate]

def joinWords (ts : List Text) : Text := join [' '] ts

def joinLines (ts : List Text) : Text := join ['\n'] ts

@[simp] theorem joinLines_nil : joinLines [] = [] := rfl

@[simp] theorem joinLines_singleton (t : Text) : joinLines [t] = t := List.append_nil t

theorem joinLines_cons_cons (t u : Text) (ts : List Text) :
    joinLines (t :: u :: ts) = t ++ '\n' :: joinLines (u :: ts) :=
  join_cons_cons '\n' t u ts

theorem joinWords_singleton (t : Text) : joinWords [t] = t := List.append_nil t

theorem joinWords_cons_cons (t u : Text) (ts : List Text) :
    joinWords (t :: u :: ts) = t ++ ' ' :: joinWords (u :: ts) :=
  join_cons_cons ' ' t u ts

theorem joinWords_append_cons (s t : Text) (ts : List Text) :
    joinWords ((s ++ t) :: ts) = s ++ joinWords (t :: ts) := by
  cases ts with
  | nil => rw [joinWords_singleton, joinWords_singleton]
  | cons u ts => rw [joinWords_cons_cons, joinWords_cons_cons, List.append_assoc]

theorem notMem_joinWords {c : Char} (hc : c ≠ ' ') {ts : List Text} (h : ∀ t ∈ ts, c ∉ t) :
    c ∉ joinWords ts := by
  induction ts with
  | nil => exact List.not_mem_nil
  | cons t ts ih =>
    obtain ⟨ht, hts⟩ := List.forall_mem_cons.mp h
    cases ts with
    | nil => rwa [joinWords_singleton]
    | cons u us =>
      rw [joinWords_cons_cons, List.mem_append, List.mem_cons, not_or, not_or]
      exact ⟨ht, hc, ih hts⟩

theorem joinLines_append {ts us : List Text} (ht : ts ≠ []) (hu : us ≠ []) :
    joinLines (ts ++ us) = joinLines ts ++ '\n' :: joinLines us := by
  obtain ⟨u, us, rfl⟩ := List.exists_cons_of_ne_nil hu
  induction ts with
  | nil => exact absurd rfl ht
  | cons t ts ih =>
    cases ts with
    | nil => exact (joinLines_cons_cons t u us).trans (by rw [joinLines_singleton])
    | cons s ts =>
      rw [List.cons_append, List.cons_append, joinLines_cons_cons, ← List.cons_append,
        ih (List.cons_ne_nil s ts), joinLines_cons_cons, List.append_assoc]
      rfl

theorem splitOn_joinLines {ts : List Text} (h : ts ≠ []) :
    (joinLines ts).splitOn '\n' = ts.flatMap (List.splitOn '\n') := by
  induction ts with
  | nil => exact absurd rfl h
  | cons t ts ih =>
    rw [List.flatMap_cons]
    cases ts with
    | nil => rw [joinLines_singleton]; exact (List.append_nil _).symm
    | cons u ts =>
      rw [joinLines_cons_cons, List.splitOn_append_cons_self, ih (List.cons_ne_nil u ts)]

/-! ## size -/

def utf8Size : Text → Nat
  | [] => 0
  | c :: t => c.utf8Size + utf8Size t

/-! ## classes of characters -/

def inRanges (ranges : List (Nat × Nat)) (c : Char) : Bool :=
  ranges.any fun r => r.1 ≤ c.toNat && c.toNat ≤ r.2

end Text

end Stencil
