import Stencil.Json.Reader
import Stencil.Proofs.Json.Numbers
import Stencil.Proofs.Json.Texts

/-!
# Steps over written values

What the machine that reads JSON does with texts as the writer puts them together: there are no
fillers in them, a comma stands in front of each part but the first, and a value that is no list and
no map is read in one step.

* `Json.commas`               some texts, each with a comma in front;
* `Json.run_go`               a step and what comes after it;
* `Json.run_quote`, `Json.run_number`   a text, a whole number;
* `Json.Opens`                a text that starts with a value;
* `Json.run_openList`, `Json.run_nextItem`, `Json.run_closeList`   the steps of a list;
* `Json.run_openMap`, `Json.run_nextEntry`, `Json.run_closeMap`    the steps of a map.
-/

namespace Stencil

/-! ## the texts between the parts -/

namespace Json

def commas (ts : List Text) : Text := ts.flatMap fun t => ',' :: t

theorem commas_cons (u : Text) (us : List Text) (t : Text) :
    commas (u :: us) ++ t = ',' :: (u ++ (commas us ++ t)) := by
  rw [commas, List.flatMap_cons, List.append_assoc]
  rfl

theorem join_cons (t : Text) (ts : List Text) : Text.join [','] (t :: ts) = t ++ commas ts := by
  induction ts generalizing t with
  | nil => simp [Text.join, commas]
  | cons u ts ih =>
    rw [Text.join_cons_cons, ih]
    rfl

theorem numberEnds_bracket : NumberEnds [']'] :=
  numberEnds_cons rfl (by decide) (by decide) (by decide) []

theorem numberEnds_brace : NumberEnds ['\x7d'] :=
  numberEnds_cons rfl (by decide) (by decide) (by decide) []

theorem numberEnds_commas (ts : List Text) {c : Char} (h : NumberEnds [c]) (t : Text) :
    NumberEnds (commas ts ++ c :: t) := by
  cases ts with
  | nil => exact ⟨h.notDigit, h.notMark⟩
  | cons u ts => exact numberEnds_cons rfl (by decide) (by decide) (by decide) _

theorem skip_cons {c : Char} (h : isFiller c = false) (t : Text) : skip (c :: t) = c :: t :=
  List.dropWhile_cons_of_neg (Bool.eq_false_iff.mp h)

/-! ## steps of the machine -/

theorem run_go {phase p : Phase} {stack s : List Frame} {t r : Text}
    (h : step phase stack t = .go p s r) : run phase stack t = run p s r := by
  rw [run]
  split
  · rename_i hn
    rw [h] at hn
    cases hn
  · rename_i hn
    rw [h] at hn
    obtain ⟨rfl, rfl, rfl⟩ := Next.go.inj hn
    rfl

theorem run_done (v : Value) : run (.close v) [] [] = .ok v := by
  rw [run]
  split
  · rename_i r hn
    exact (Next.halt.inj hn).symm
  · rename_i hn
    cases hn

theorem run_null (stack : List Frame) (t : Text) :
    run .expect stack ("null".toList ++ t) = run (.close .null) stack t := run_go rfl

theorem run_bool (b : Bool) (stack : List Frame) (t : Text) :
    run .expect stack ((if b then "true".toList else "false".toList) ++ t) =
      run (.close (.bool b)) stack t := by
  cases b with
  | false => exact run_go rfl
  | true => exact run_go rfl

theorem run_quote (s : Text) (stack : List Frame) (t : Text) :
    run .expect stack (quote s ++ t) = run (.close (.string s)) stack t := by
  refine run_go ?_
  have hquote : quote s ++ t = '\"' :: (s.flatMap escapeChar ++ '\"' :: t) := by
    rw [quote, List.cons_append, List.cons_append, List.append_assoc]
    rfl
  rw [hquote, step, skip_cons rfl]
  show closeWith stack ((readQuoted _).map _) = _
  rw [readQuoted_quote]
  rfl

theorem stepExpect_number {c : Char} (h : c = '-' ∨ c.isDigit = true) (stack : List Frame)
    (t : Text) : stepExpect stack (c :: t) =
      closeWith stack ((readNumber (c :: t)).map fun (n, u) => (.number n, u)) := by
  have hne (d : Char) (hd : d ≠ '-' ∧ d.isDigit = false) : c ≠ d := by
    rintro rfl
    rcases h with h | h
    · exact hd.1 h
    · rw [hd.2] at h
      cases h
  unfold stepExpect
  simp only [if_neg (hne 'n' (by decide)), if_neg (hne 't' (by decide)),
    if_neg (hne 'f' (by decide)), if_neg (hne '\"' (by decide)), if_neg (hne '[' (by decide)),
    if_neg (hne '\x7b' (by decide)), if_pos h]

theorem isFiller_of_number {c : Char} (h : c = '-' ∨ c.isDigit = true) : isFiller c = false := by
  refine Bool.eq_false_iff.mpr fun hf => ?_
  simp only [isFiller, Bool.or_eq_true, beq_iff_eq] at hf
  rcases h with rfl | h
  · revert hf
    decide
  · rcases hf with ((rfl | rfl) | rfl) | rfl <;> cases h

theorem run_number {n : Number} (hn : n.isShortWhole = true) (stack : List Frame) {t : Text}
    (ht : NumberEnds t) :
    run .expect stack (number n ++ t) = run (.close (.number n.unsignZero)) stack t := by
  obtain ⟨k, hk, hq⟩ := Number.exists_of_isShortWhole hn
  obtain ⟨c, r, hr, hc⟩ := exists_start_intDigits k t
  refine run_go ?_
  rw [number_eq hk hq, hr, step, skip_cons (isFiller_of_number hc), stepExpect_number hc, ← hr,
    readNumber_intDigits hk ht, Number.unsignZero_eq hq]
  rfl

/-! ## steps into lists and maps, and out of them -/

/-- a text that starts with a value -/
def Opens (t : Text) : Prop := ∃ c r, t = c :: r ∧ isFiller c = false ∧ c ≠ ']'

section
variable {stack : List Frame} {t : Text}

theorem run_emptyList (h : stack.length + 1 < depthBound) :
    run .expect stack ('[' :: ']' :: t) = run (.close (.list [])) stack t := by
  refine run_go ?_
  rw [step, skip_cons rfl]
  exact if_neg (Nat.not_le.mpr h)

theorem run_openList (h : stack.length + 1 < depthBound) (ht : Opens t) :
    run .expect stack ('[' :: t) = run .expect (.items [] :: stack) t := by
  obtain ⟨c, r, rfl, hf, hc⟩ := ht
  refine run_go ?_
  rw [step, skip_cons rfl]
  refine (if_neg (Nat.not_le.mpr h)).trans ?_
  rw [skip_cons hf]
  split
  · rename_i hnil
    cases hnil
  · rename_i hclose
    exact absurd (List.cons.inj hclose).1 hc
  · rfl

theorem run_nextItem (v : Value) (done : List Value) (ht : Opens t) :
    run (.close v) (.items done :: stack) (',' :: t) =
      run .expect (.items (v :: done) :: stack) t := by
  obtain ⟨c, r, rfl, hf, hc⟩ := ht
  refine run_go ?_
  rw [step, skip_cons rfl, stepClose, skip_cons hf]
  split
  · rename_i hnil
    cases hnil
  · rename_i hclose
    exact absurd (List.cons.inj hclose).1 hc
  · rfl

theorem run_closeList (v : Value) (done : List Value) :
    run (.close v) (.items done :: stack) (']' :: t) =
      run (.close (.list (v :: done).reverse)) stack t := run_go rfl

theorem readKey_quote (k : Text) :
    readKey (k.flatMap escapeChar ++ '\"' :: ':' :: t) = .ok (k, t) := by
  rw [readKey, readQuoted_quote]
  rfl

theorem quote_append (k : Text) :
    quote k ++ ':' :: t = '\"' :: (k.flatMap escapeChar ++ '\"' :: ':' :: t) := by
  rw [quote, List.cons_append, List.cons_append, List.append_assoc]
  rfl

theorem run_emptyMap (h : stack.length + 1 < depthBound) :
    run .expect stack ('\x7b' :: '\x7d' :: t) = run (.close (.map [])) stack t := by
  refine run_go ?_
  rw [step, skip_cons rfl]
  exact if_neg (Nat.not_le.mpr h)

theorem run_openMap (h : stack.length + 1 < depthBound) (k : Text) :
    run .expect stack ('\x7b' :: (quote k ++ ':' :: t)) =
      run .expect (.entries [] k :: stack) t := by
  refine run_go ?_
  rw [step, skip_cons rfl, quote_append]
  refine (if_neg (Nat.not_le.mpr h)).trans ?_
  rw [skip_cons rfl]
  simp only [readKey_quote]

theorem run_nextEntry (v : Value) (done : Table Value) (key k : Text) :
    run (.close v) (.entries done key :: stack) (',' :: (quote k ++ ':' :: t)) =
      run .expect (.entries (done.insert key v) k :: stack) t := by
  refine run_go ?_
  rw [step, skip_cons rfl, quote_append, stepClose, skip_cons rfl]
  simp only [readKey_quote]

theorem run_closeMap (v : Value) (done : Table Value) (key : Text) :
    run (.close v) (.entries done key :: stack) ('\x7d' :: t) =
      run (.close (.map (done.insert key v))) stack t := run_go rfl

end

end Json

end Stencil
