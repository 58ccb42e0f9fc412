import Stencil.Proofs.Closing

/-!
# Lines of each shape

How a line has to be written to be text, a command, or a command with its text.

* `Text.Fenced`               a line that starts and ends with `$`, white space left aside;
* `LineShape.of_notFenced`    any other line is text;
* `commandLine`               the line of a command;
* `commandLineWith`           the line of a command with its text;
* `LineShape.of_commandLine`, `LineShape.of_commandLineWith`   what is read from them;
* `Template.read_joinLines`   a template put together from pieces that are lines or templates.
-/

namespace Stencil

/-! ## text -/

/-- a line that starts with a `$` and ends with another one, white space around them left aside -/
def Text.Fenced (line : Text) : Prop :=
  2 ≤ line.trim.length ∧ line.trim.head? = some '$' ∧ line.trim.getLast? = some '$'

instance (line : Text) : Decidable line.Fenced :=
  inferInstanceAs (Decidable (_ ∧ _ ∧ _))

theorem Text.notFenced_of_notMem {line : Text} (h : '$' ∉ line) : ¬line.Fenced :=
  fun hf => h ((infix_trim line).subset (List.mem_of_mem_head? hf.2.1))

namespace LineShape

theorem eq_of_inside? {t s : Text} (h : inside? t = some s) : t = '$' :: (s ++ ['$']) := by
  cases t with
  | nil => simp [inside?] at h
  | cons c t =>
    simp only [inside?] at h
    split at h
    · rename_i hc
      rw [hc, Text.eq_of_dropEnd? h]
    · simp at h

theorem of_notFenced {line : Text} (h : ¬line.Fenced) : of line = .text := by
  have hnone : inside? line.trim = none := by
    refine Option.eq_none_iff_forall_ne_some.mpr fun s hs => h ?_
    have ht := eq_of_inside? hs
    unfold Text.Fenced
    rw [ht]
    refine ⟨?_, rfl, ?_⟩
    · simp
    · rw [← List.cons_append, List.getLast?_concat]
  rw [of, hnone]

end LineShape

/-! ## commands -/

def commandLine (head : Text) : Text := '$' :: (head ++ ['$'])

def commandLineWith (head body : Text) : Text :=
  '$' :: (head ++ '$' :: (body ++ '$' :: endName) ++ ['$'])

namespace LineShape

theorem inside?_fence (s : Text) : inside? ('$' :: (s ++ ['$'])) = some s := by
  rw [inside?, if_pos rfl, Text.dropEnd?_concat]

theorem trim_fence (s : Text) : Text.trim ('$' :: (s ++ ['$'])) = '$' :: (s ++ ['$']) :=
  Text.trim_concat (by decide) (by decide) s

theorem count_of_parts? {t headText body word : Text} (h : parts? t = some (headText, body, word)) :
    2 ≤ t.count '$' := by
  obtain ⟨⟨front, rest⟩, hfront, h⟩ := Option.bind_eq_some_iff.mp h
  obtain ⟨⟨middle, last⟩, hlast, -⟩ := Option.map_eq_some_iff.mp h
  rw [Text.eq_of_cutAt hfront, Text.eq_of_cutAtLast hlast]
  simp only [List.count_append, List.count_cons_self]
  omega

theorem parts?_of_count {t : Text} (h : t.count '$' ≤ 1) : parts? t = none := by
  refine Option.eq_none_iff_forall_ne_some.mpr fun ⟨headText, body, word⟩ hp => ?_
  have hcount := count_of_parts? hp
  omega

section
variable {head name : Text} {params : List Text} (ha : splitArguments head = name :: params)
include ha

/-- a single `$` in a head does not part it from a text -/
theorem of_commandLine_of_count (h : head.count '$' ≤ 1) :
    of (commandLine head) = .block ⟨name, params, false, commandLine head⟩ := by
  have hhead : Head.ofText? head (commandLine head) false =
      some ⟨name, params, false, commandLine head⟩ := by
    rw [Head.ofText?, ha]
  unfold of
  rw [commandLine, trim_fence, inside?_fence, ← commandLine]
  simp only [parts?_of_count h, hhead]

end

section
variable {head name : Text} {params : List Text} (h : '$' ∉ head)
  (ha : splitArguments head = name :: params)
include h ha

theorem of_commandLine :
    of (commandLine head) = .block ⟨name, params, false, commandLine head⟩ := by
  refine of_commandLine_of_count ha ?_
  rw [List.count_eq_zero.mpr h]
  exact Nat.zero_le 1

/-- the text of a command may hold `$`, as it ends at the last one in front of the `end` -/
theorem of_commandLineWith (body : Text) : of (commandLineWith head body) =
    .inline ⟨name, params, true, commandLineWith head body⟩ body := by
  have hend : '$' ∉ endName := by decide
  have hparts : parts? (head ++ '$' :: (body ++ '$' :: endName)) = some (head, body, endName) := by
    rw [parts?, Text.cutAt_append h]
    show (Text.cutAtLast '$' (body ++ '$' :: endName)).map _ = _
    rw [Text.cutAtLast_append hend]
    rfl
  have hhead : Head.ofText? head (commandLineWith head body) true =
      some ⟨name, params, true, commandLineWith head body⟩ := by
    rw [Head.ofText?, ha]
  have htrim : endName.trim = endName := by decide
  unfold of
  rw [commandLineWith, trim_fence, inside?_fence, ← commandLineWith]
  simp only [hparts, htrim, hhead, ne_eq, not_true_eq_false, if_false]

end

end LineShape

/-! ## templates from lines -/

theorem Text.flatMap_splitOn {c : Char} {ts : List Text} (h : ∀ t ∈ ts, c ∉ t) :
    ts.flatMap (List.splitOn c) = ts := by
  induction ts with
  | nil => rfl
  | cons t ts ih =>
    rw [List.flatMap_cons, List.splitOn_eq_singleton (h t List.mem_cons_self),
      ih fun u hu => h u (List.mem_cons_of_mem t hu)]
    rfl

/-- a template put together from lines, or from templates, is read line by line -/
theorem Template.read_joinLines {ts : List Text} (h : ts ≠ []) :
    let lines := ts.flatMap (List.splitOn '\n')
    read (Text.joinLines ts) = ⟨(Levels.ofLines lines).nodes,
      lines.flatMap Token.problemsOfLine ++ (Levels.ofLines lines).problems⟩ := by
  intro lines
  show (⟨(Levels.ofLines (List.splitOn '\n' (Text.joinLines ts))).nodes,
    (List.splitOn '\n' (Text.joinLines ts)).flatMap Token.problemsOfLine ++
      (Levels.ofLines (List.splitOn '\n' (Text.joinLines ts))).problems⟩ : Template) = _
  rw [Text.splitOn_joinLines h]

end Stencil
