import Stencil.Proofs.Grammar.Heads
import Stencil.Proofs.LineKinds

/-!
# Command lines by the grammar

The body of an inline command is read up to the `$` behind which only the word of its end and one
more `$` stand.  So the rule for it finds the first two and the last two `$` of a line if there are
four, and fails if there are fewer; then the rule for a block takes the line as a whole.

* `Grammar.reads_inlineBody`, `Grammar.reads_inlineBody_of_count`   the body of an inline command;
* `Grammar.reads_inlineCommand`, `Grammar.noInlineCommand`   the rule for an inline command;
* `Grammar.reads_blockCommand`   the rule for a block;
* `LineShape.shapes_iff`         the kind of a line by the grammar;
* `LineShape.kinds_agree`        the kind of a line by the grammar and by its `$`.
-/

namespace Stencil

namespace Grammar

open Expression

/-! ## between two dollar signs -/

section
variable {s : Text} (hs : '$' ∉ s)
include hs

theorem reads_upTo (r : Text) :
    template.Reads (.many (butNot (.char '$'))) (s ++ '$' :: r) (some ⟨s, [], '$' :: r⟩) := by
  induction s with
  | nil => exact .stop (.noButNot .char)
  | cons c s ih =>
    have hc := List.ne_and_not_mem_of_not_mem_cons hs
    have hchar : template.Reads (.char '$') (c :: (s ++ '$' :: r)) none :=
      .noChar (by simp [hc.1.symm])
    exact (Reads.butNot hchar).more (ih hc.2)

theorem reads_toEnd : template.Reads (.many (butNot (.char '$'))) s (some ⟨s, [], []⟩) := by
  induction s with
  | nil => exact .stop (.butNot_nil (.noChar (by simp)))
  | cons c s ih =>
    have hc := List.ne_and_not_mem_of_not_mem_cons hs
    have hchar : template.Reads (.char '$') (c :: s) none := .noChar (by simp [hc.1.symm])
    exact (Reads.butNot hchar).more (ih hc.2)

end

/-! ## the end of an inline command -/

def inlineEnd : Expression Rule :=
  .seq (.char '$') (.seq (.rule .terminator) (.seq (.char '$') (.rule .endOfInput)))

theorem noInlineEnd {t : Text} (h : t.head? ≠ some '$') : template.Reads inlineEnd t none :=
  .noFirst (.noChar h)

theorem reads_inlineEnd {word : Text} (h : '$' ∉ word) :
    ∃ p, template.Reads inlineEnd ('$' :: (word ++ ['$'])) (some p) :=
  ⟨_, .seq .char (.seq (.pair rfl (reads_upTo h [])) (.seq .char reads_endOfInput))⟩

/-- the last `$` of a line is no end of an inline command -/
theorem noInlineEnd_last {t : Text} (h : '$' ∉ t) : template.Reads inlineEnd ('$' :: t) none := by
  apply Reads.noSecond .char
  apply Reads.noSecond (.pair rfl (reads_toEnd h))
  exact .noFirst (.noChar (by simp))

/-- neither is any `$` in front of the last but one -/
theorem noInlineEnd_early {s r : Text} (h : '$' ∉ s) (hr : r ≠ []) :
    template.Reads inlineEnd ('$' :: (s ++ '$' :: r)) none := by
  obtain ⟨c, r, rfl⟩ := List.exists_cons_of_ne_nil hr
  apply Reads.noSecond .char
  apply Reads.noSecond (.pair rfl (reads_upTo h (c :: r)))
  exact .noSecond .char (noEndOfInput c r)

/-! ## the body of an inline command -/

theorem reads_inlineBody (body : Text) {word : Text} (h : '$' ∉ word) :
    template.Reads (.many (butNot inlineEnd)) (body ++ '$' :: (word ++ ['$']))
      (some ⟨body, [], '$' :: (word ++ ['$'])⟩) := by
  induction body with
  | nil =>
    obtain ⟨p, hend⟩ := reads_inlineEnd h
    exact .stop (.noButNot hend)
  | cons c body ih =>
    have hend : template.Reads inlineEnd (c :: (body ++ '$' :: (word ++ ['$']))) none := by
      by_cases hc : c = '$'
      · have hmem : '$' ∈ body ++ '$' :: (word ++ ['$']) :=
          List.mem_append_right body List.mem_cons_self
        obtain ⟨s, r, htext, hs⟩ := List.eq_append_cons_of_mem hmem
        rw [hc, htext]
        refine noInlineEnd_early hs fun hr => ?_
        -- two more `$` stand behind `body`
        have hcount := congrArg (List.count '$') htext
        simp only [hr, List.count_append, List.count_cons_self, List.count_nil,
          List.count_eq_zero.mpr hs] at hcount
        omega
      · exact noInlineEnd (by simp [hc])
    exact (Reads.butNot hend).more ih

theorem reads_inlineBody_of_count {t : Text} (h : t.count '$' ≤ 1) :
    template.Reads (.many (butNot inlineEnd)) t (some ⟨t, [], []⟩) := by
  induction t with
  | nil => exact .stop (.butNot_nil (noInlineEnd (by simp)))
  | cons c t ih =>
    by_cases hc : c = '$'
    · subst hc
      rw [List.count_cons_self] at h
      have hzero : t.count '$' = 0 := by omega
      exact (Reads.butNot (noInlineEnd_last (List.count_eq_zero.mp hzero))).more (ih (by omega))
    · rw [List.count_cons_of_ne hc] at h
      exact (Reads.butNot (noInlineEnd (by simp [hc]))).more (ih h)

/-! ## commands -/

theorem reads_inlineCommand {head word : Text} (hhead : '$' ∉ head) (body : Text)
    (hword : '$' ∉ word) :
    template.Reads (.rule .inlineCommand) (partedLine head body word)
      (some ⟨partedLine head body word, [.mk .inlineCommand (partedLine head body word)
        [.mk .head head [], .mk .inlineBody body [], .mk .terminator word []]], []⟩) := by
  have hlast : template.Reads (.seq (.rule .terminator) (.char '$')) (word ++ ['$']) _ :=
    .seq (.pair rfl (reads_upTo hword [])) .char
  have hbody : template.Reads (.rule .inlineBody) _ _ := .pair rfl (reads_inlineBody body hword)
  have hread : template.Reads (template.body .inlineCommand)
      ('$' :: (head ++ '$' :: (body ++ '$' :: (word ++ ['$'])))) _ :=
    .seq .char (.seq (.pair rfl (reads_upTo hhead _)) (.seq .char (.seq hbody (.seq .char hlast))))
  have hline : partedLine head body word =
      '$' :: (head ++ '$' :: (body ++ '$' :: (word ++ ['$']))) := by
    simp [partedLine]
  rw [hline]
  exact .whole rfl hread

/-- with fewer than four `$` there is no end of an inline command -/
theorem noInlineCommand {s : Text} (h : s.count '$' ≤ 1) :
    template.Reads (.rule .inlineCommand) (commandLine s) none := by
  have hmem : '$' ∈ s ++ ['$'] := List.mem_append_right s List.mem_cons_self
  obtain ⟨head, r, htext, hhead⟩ := List.eq_append_cons_of_mem hmem
  have hcount : r.count '$' ≤ 1 := by
    have hcount := congrArg (List.count '$') htext
    simp only [List.count_append, List.count_cons_self, List.count_nil,
      List.count_eq_zero.mpr hhead] at hcount
    omega
  have hbody : template.Reads (.rule .inlineBody) r _ := .pair rfl (reads_inlineBody_of_count hcount)
  rw [commandLine, htext]
  apply Reads.noRule
  apply Reads.noSecond .char
  apply Reads.noSecond (.pair rfl (reads_upTo hhead r))
  apply Reads.noSecond .char
  apply Reads.noSecond hbody
  exact .noFirst (.noChar (by simp))

theorem reads_blockHead (s : Text) :
    template.Reads (.many (butNot (.seq (.char '$') (.rule .endOfInput)))) (s ++ ['$'])
      (some ⟨s, [], ['$']⟩) := by
  induction s with
  | nil => exact .stop (.noButNot (.seq .char reads_endOfInput))
  | cons c s ih =>
    have hend : template.Reads (.seq (.char '$') (.rule .endOfInput)) (c :: (s ++ ['$'])) none := by
      by_cases hc : c = '$'
      · obtain ⟨d, t, ht⟩ := List.exists_cons_of_ne_nil (List.append_ne_nil_of_right_ne_nil s
          (List.cons_ne_nil '$' []))
        rw [hc, ht]
        exact .noSecond .char (noEndOfInput d t)
      · exact .noFirst (.noChar (by simp [hc]))
    exact (Reads.butNot hend).more ih

theorem reads_blockCommand (s : Text) :
    template.Reads (.rule .blockCommand) (commandLine s)
      (some ⟨commandLine s, [.mk .blockCommand (commandLine s) [.mk .blockHead s []]], []⟩) :=
  .pair rfl (.seq .char (.seq (.pair rfl (reads_blockHead s)) .char))

end Grammar

namespace LineShape

variable {line : Text}

theorem exists_reads (h : line.Fenced) :
    ∃ o, Grammar.template.Reads (.rule .commandLine) line.trim o ∧ ofParsed line o = of line := by
  obtain ⟨s, hs⟩ := exists_inside h
  by_cases hcount : s.count '$' ≤ 1
  · have hthree : line.trim.count '$' ≤ 3 := by
      rw [hs, count_commandLine]
      omega
    have hread : Grammar.template.Reads (.rule .commandLine) (commandLine s) _ :=
      .whole rfl (.seq (.right (Grammar.noInlineCommand hcount) (Grammar.reads_blockCommand s))
        Grammar.reads_endOfInput)
    refine ⟨_, hs ▸ hread, ?_⟩
    rw [of_whole hs hthree]
    cases hargs : Head.ofText? s line false with
    | none => simp [ofParsed, Pair.textAt, Pair.text, hargs]
    | some head => simp [ofParsed, Pair.textAt, Pair.text, hargs]
  · obtain ⟨head, body, word, rfl, hhead, hword⟩ := exists_parts (t := s) (by omega)
    have hparted : line.trim = partedLine head body word := hs
    have hread : Grammar.template.Reads (.rule .commandLine) (partedLine head body word) _ :=
      .whole rfl (.seq (.left (Grammar.reads_inlineCommand hhead body hword))
        Grammar.reads_endOfInput)
    refine ⟨_, hparted ▸ hread, ?_⟩
    rw [of_parted hparted hhead hword]
    cases hargs : Head.ofText? head line true with
    | none => simp [ofParsed, Pair.textAt, Pair.text, hargs]
    | some head => simp [ofParsed, Pair.textAt, Pair.text, hargs]

/-- **The kind of a line by the grammar** is the kind that is told by its `$`, and no other -/
theorem shapes_iff {k : LineShape} : Shapes line k ↔ of line = k := by
  unfold Shapes
  by_cases hf : line.Fenced
  · obtain ⟨o, ho, hk⟩ := exists_reads hf
    rw [if_pos hf]
    constructor
    · rintro ⟨o', ho', rfl⟩
      rw [ho'.unique ho, hk]
    · rintro rfl
      exact ⟨o, ho, hk⟩
  · rw [if_neg hf, of_notFenced hf]
    exact eq_comm

/-- **What kind of line a line is**: by the grammar and by its `$` alike, a line has the tokens and the
problems of its kind, and the problems are warnings -/
theorem kinds_agree (line : Text) :
    (∀ ts ps, (∃ k, Shapes line k ∧ k.tokens line = ts ∧ k.problems = ps) ↔
      Classified line ts ps) ∧
    (∀ ts ps, (Token.ofLine line = ts ∧ Token.problemsOfLine line = ps) ↔ Classified line ts ps) ∧
    ∀ p ∈ Token.problemsOfLine line, p.severity = .warning := by
  refine ⟨fun ts ps => ?_, fun ts ps => classified_iff.symm, ?_⟩
  · rw [classified_iff]
    constructor
    · rintro ⟨k, hk, htokens, hproblems⟩
      obtain rfl := shapes_iff.mp hk
      exact ⟨htokens, hproblems⟩
    · rintro ⟨htokens, hproblems⟩
      exact ⟨of line, shapes_iff.mpr rfl, htokens, hproblems⟩
  · obtain ⟨ts, ps, h⟩ := exists_classified line
    rw [h.tokens_eq.2]
    exact h.isWarning

end LineShape

end Stencil
