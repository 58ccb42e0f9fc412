import Stencil.Proofs.LineShapes

/-!
# Kinds of lines

What kind of line a line is, told by its `$`: with at least four of them the text between the first
two is the head of a command, the text between the last two has to be the word of its end, and what
stands between is its text; with two or three of them all that stands between the first and the last
is the head.

* `LineShape.Classified`       the tokens and the problems of a line, by counting;
* `LineShape.exists_parts`, `LineShape.of_parted`   the parts of a line with four `$`;
* `LineShape.classified_iff`   reading a line gives these tokens and problems, and no others.
-/

namespace Stencil

def partedLine (head body word : Text) : Text :=
  '$' :: (head ++ '$' :: (body ++ '$' :: word) ++ ['$'])

namespace LineShape

/-- the tokens of a line and the problems that are noted on reading it -/
inductive Classified (line : Text) : List Token → List Problem → Prop
  | text (h : ¬line.Fenced) : Classified line [.text line] []
  | inline {head body word name : Text} {params : List Text} (hcount : 4 ≤ line.trim.count '$')
      (hline : line.trim = partedLine head body word) (hhead : '$' ∉ head) (hword : '$' ∉ word)
      (hend : word.trim = endName) (hargs : splitArguments head = name :: params) :
      Classified line [.command ⟨name, params, true, line⟩, .text body, .command Head.inlineEnd] []
  | noEnd {head body word : Text} (hcount : 4 ≤ line.trim.count '$')
      (hline : line.trim = partedLine head body word) (hhead : '$' ∉ head) (hword : '$' ∉ word)
      (hend : word.trim ≠ endName) :
      Classified line [.text line] [.noInlineEnd line.trim]
  | noName {head body word : Text} (hcount : 4 ≤ line.trim.count '$')
      (hline : line.trim = partedLine head body word) (hhead : '$' ∉ head) (hword : '$' ∉ word)
      (hend : word.trim = endName) (hargs : splitArguments head = []) :
      Classified line [.text line] [.emptyCommand line.trim]
  | block {head name : Text} {params : List Text} (hcount : line.trim.count '$' ≤ 3)
      (hline : line.trim = commandLine head) (hargs : splitArguments head = name :: params) :
      Classified line [.command ⟨name, params, false, line⟩] []
  | noBlockName {head : Text} (hcount : line.trim.count '$' ≤ 3)
      (hline : line.trim = commandLine head) (hargs : splitArguments head = []) :
      Classified line [.text line] [.emptyCommand line.trim]

/-! ## the parts of a line -/

theorem exists_parts {t : Text} (h : 2 ≤ t.count '$') :
    ∃ head body word : Text, t = head ++ '$' :: (body ++ '$' :: word) ∧ '$' ∉ head ∧ '$' ∉ word := by
  have hmem : '$' ∈ t := List.count_pos_iff.mp (by omega)
  obtain ⟨head, rest, rfl, hhead⟩ := List.eq_append_cons_of_mem hmem
  have hrest : '$' ∈ rest.reverse := by
    rw [List.mem_reverse]
    refine List.count_pos_iff.mp ?_
    rw [List.count_append, List.count_eq_zero.mpr hhead, List.count_cons_self] at h
    omega
  -- the last `$` of the rest is the first one from behind
  obtain ⟨word, body, hrev, hword⟩ := List.eq_append_cons_of_mem hrest
  refine ⟨head, body.reverse, word.reverse, ?_, hhead, fun hm => hword (List.mem_reverse.mp hm)⟩
  have heq := congrArg List.reverse hrev
  rw [List.reverse_reverse] at heq
  rw [heq]
  simp

theorem parts?_append {head word : Text} (hhead : '$' ∉ head) (hword : '$' ∉ word) (body : Text) :
    parts? (head ++ '$' :: (body ++ '$' :: word)) = some (head, body, word) := by
  rw [parts?, Text.cutAt_append hhead]
  show (Text.cutAtLast '$' (body ++ '$' :: word)).map _ = _
  rw [Text.cutAtLast_append hword]
  rfl

theorem exists_inside {line : Text} (h : line.Fenced) : ∃ s : Text, line.trim = commandLine s := by
  obtain ⟨hlength, hhead, hlast⟩ := h
  generalize line.trim = t at hlength hhead hlast ⊢
  obtain ⟨t, rfl⟩ := List.head?_eq_some_iff.mp hhead
  rcases List.eq_nil_or_concat t with rfl | ⟨s, c, rfl⟩
  · exact absurd hlength (by decide)
  · rw [List.concat_eq_append, ← List.cons_append, List.getLast?_concat] at hlast
    rw [Option.some.inj hlast]
    exact ⟨s, by rw [commandLine, List.concat_eq_append]⟩

theorem count_commandLine (s : Text) : (commandLine s).count '$' = s.count '$' + 2 := by
  rw [commandLine, List.count_cons_self, List.count_append]
  rfl

section
variable {line : Text}

/-- a line with three parts is text, unless the last part is the word of an end and the first one
has an argument -/
theorem of_parted {head body word : Text} (hline : line.trim = partedLine head body word)
    (hhead : '$' ∉ head) (hword : '$' ∉ word) :
    of line = if word.trim ≠ endName then .flawed (.noInlineEnd line.trim)
      else match Head.ofText? head line true with
        | none => .flawed (.emptyCommand line.trim)
        | some head => .inline head body := by
  have hinside : inside? line.trim = some (head ++ '$' :: (body ++ '$' :: word)) := by
    rw [hline, partedLine, inside?_fence]
  unfold of
  cases hargs : Head.ofText? head line true with
  | none => simp only [hinside, parts?_append hhead hword, hargs]
  | some head => simp only [hinside, parts?_append hhead hword, hargs]

/-- a line with fewer than four `$` is a command if it has an argument -/
theorem of_whole {s : Text} (hline : line.trim = commandLine s)
    (hcount : line.trim.count '$' ≤ 3) :
    of line = match Head.ofText? s line false with
      | none => .flawed (.emptyCommand line.trim)
      | some head => .block head := by
  have hinside : inside? line.trim = some s := by
    rw [hline, commandLine, inside?_fence]
  have hparts : parts? s = none := by
    rw [hline, count_commandLine] at hcount
    exact parts?_of_count (by omega)
  unfold of
  cases hargs : Head.ofText? s line false with
  | none => simp only [hinside, hparts, hargs]
  | some head => simp only [hinside, hparts, hargs]

end

/-! ## what is read -/

theorem Classified.tokens_eq {line : Text} {ts : List Token} {ps : List Problem}
    (h : Classified line ts ps) : Token.ofLine line = ts ∧ Token.problemsOfLine line = ps := by
  unfold Token.ofLine Token.problemsOfLine
  cases h with
  | text h =>
    rw [of_notFenced h]
    exact ⟨rfl, rfl⟩
  | inline hcount hline hhead hword hend hargs =>
    rw [of_parted hline hhead hword, if_neg (not_not_intro hend), Head.ofText?, hargs]
    exact ⟨rfl, rfl⟩
  | noEnd hcount hline hhead hword hend =>
    rw [of_parted hline hhead hword, if_pos hend]
    exact ⟨rfl, rfl⟩
  | noName hcount hline hhead hword hend hargs =>
    rw [of_parted hline hhead hword, if_neg (not_not_intro hend), Head.ofText?, hargs]
    exact ⟨rfl, rfl⟩
  | block hcount hline hargs =>
    rw [of_whole hline hcount, Head.ofText?, hargs]
    exact ⟨rfl, rfl⟩
  | noBlockName hcount hline hargs =>
    rw [of_whole hline hcount, Head.ofText?, hargs]
    exact ⟨rfl, rfl⟩

theorem exists_classified (line : Text) : ∃ ts ps, Classified line ts ps := by
  by_cases hf : line.Fenced
  · obtain ⟨s, hs⟩ := exists_inside hf
    by_cases hcount : line.trim.count '$' ≤ 3
    · cases hargs : splitArguments s with
      | nil => exact ⟨_, _, .noBlockName hcount hs hargs⟩
      | cons name params => exact ⟨_, _, .block hcount hs hargs⟩
    · have htwo : 2 ≤ s.count '$' := by
        rw [hs, count_commandLine] at hcount
        omega
      have hfour : 4 ≤ line.trim.count '$' := by omega
      obtain ⟨head, body, word, rfl, hhead, hword⟩ := exists_parts htwo
      by_cases hend : word.trim = endName
      · cases hargs : splitArguments head with
        | nil => exact ⟨_, _, .noName hfour hs hhead hword hend hargs⟩
        | cons name params => exact ⟨_, _, .inline hfour hs hhead hword hend hargs⟩
      · exact ⟨_, _, .noEnd hfour hs hhead hword hend⟩
  · exact ⟨_, _, .text hf⟩

theorem Classified.isWarning {line : Text} {ts : List Token} {ps : List Problem}
    (h : Classified line ts ps) : ∀ p ∈ ps, p.severity = .warning := by
  cases h with
  | text | inline | block => exact fun p hp => absurd hp List.not_mem_nil
  | noEnd | noName | noBlockName => exact List.forall_mem_singleton.mpr rfl

/-- **Lines are told apart by their `$`**: a line has the tokens and the problems that the number of
its `$` and their places say, and no others -/
theorem classified_iff {line : Text} {ts : List Token} {ps : List Problem} :
    Classified line ts ps ↔ Token.ofLine line = ts ∧ Token.problemsOfLine line = ps := by
  constructor
  · exact Classified.tokens_eq
  · rintro ⟨rfl, rfl⟩
    obtain ⟨ts, ps, h⟩ := exists_classified line
    obtain ⟨rfl, rfl⟩ := h.tokens_eq
    exact h

/-- a `$` in the body, with the word of an end behind it -/
example : Token.ofLine "$md pure$a $end b$ end$".toList =
    [.command ⟨"md".toList, ["pure".toList], true, "$md pure$a $end b$ end$".toList⟩,
      .text "a $end b".toList, .command Head.inlineEnd] := by decide +kernel

end LineShape

end Stencil
