import Stencil.Proofs.Nesting
import Stencil.Reference.Segment

/-!
# Parts that stand in a text

What a reader cuts out of a text stands in the text in one piece (`<:+:`): lines, words, arguments,
the head and the text of a command, the entries of a list, and the argument of a modifier.  Only
resolving escapes can bring characters together that were apart, but no text without `#` and `\`
comes about in that way (`infix_of_infix_unescape`).
-/

namespace Stencil

/-! ## cutting -/

namespace Text

theorem infix_splitOn (c : Char) (t : Text) :
    ∃ p ps, t.splitOn c = p :: ps ∧ p <+: t ∧ ∀ q ∈ ps, q <:+: t := by
  induction t with
  | nil => exact ⟨[], [], rfl, List.prefix_rfl, by simp⟩
  | cons a t ih =>
    obtain ⟨p, ps, hs, hp, hps⟩ := ih
    by_cases ha : a = c
    · refine ⟨[], p :: ps, ?_, List.nil_prefix, fun q hq => List.infix_cons ?_⟩
      · rw [List.splitOn_cons_eq_if_modifyHead, if_pos (beq_iff_eq.mpr ha), hs]
      · rcases List.mem_cons.mp hq with rfl | hq
        · exact hp.isInfix
        · exact hps q hq
    · refine ⟨a :: p, ps, ?_, List.cons_prefix_cons.mpr ⟨rfl, hp⟩, ?_⟩
      · rw [List.splitOn_cons_eq_if_modifyHead, if_neg (mt beq_iff_eq.mp ha), hs]
        rfl
      · exact fun q hq => List.infix_cons (hps q hq)

theorem infix_of_mem_splitOn {c : Char} {t p : Text} (h : p ∈ t.splitOn c) : p <:+: t := by
  obtain ⟨q, qs, hs, hq, hqs⟩ := infix_splitOn c t
  rw [hs] at h
  rcases List.mem_cons.mp h with rfl | h
  · exact hq.isInfix
  · exact hqs p h

theorem infix_of_cutAt {c : Char} {t p r : Text} (h : cutAt c t = some (p, r)) :
    p <:+: t ∧ r <:+: t := by
  rw [eq_of_cutAt h]
  exact ⟨List.infix_append_left, List.infix_append_of_infix_right (List.infix_cons List.infix_rfl)⟩

theorem infix_of_cutAtPair {c d : Char} {t p r : Text} (h : cutAtPair c d t = some (p, r)) :
    p <:+: t ∧ r <:+: t := by
  rw [eq_of_cutAtPair h]
  exact ⟨List.infix_append_left,
    List.infix_append_of_infix_right (List.infix_cons (List.infix_cons List.infix_rfl))⟩

theorem infix_of_cutAtLast {c : Char} {t p r : Text} (h : cutAtLast c t = some (p, r)) :
    p <:+: t ∧ r <:+: t := by
  rw [eq_of_cutAtLast h]
  exact ⟨List.infix_append_left, List.infix_append_of_infix_right (List.infix_cons List.infix_rfl)⟩

theorem infix_of_dropEnd? {c : Char} {t s : Text} (h : dropEnd? c t = some s) : s <:+: t := by
  rw [eq_of_dropEnd? h]
  exact List.infix_append_left

end Text

/-! ## words -/

theorem infix_wordsFrom (us : List Text) :
    (wordsFrom us).1 <+: us.flatten ∧ ∀ w ∈ (wordsFrom us).2, w <:+: us.flatten := by
  induction us with
  | nil => exact ⟨List.prefix_rfl, by simp [wordsFrom]⟩
  | cons u us ih =>
    rw [wordsFrom, List.flatten_cons]
    split
    · refine ⟨List.nil_prefix, fun w hw => List.infix_append_of_infix_right ?_⟩
      unfold consWord at hw
      split at hw
      · exact ih.2 w hw
      · rcases List.mem_cons.mp hw with rfl | hw
        · exact ih.1.isInfix
        · exact ih.2 w hw
    · refine ⟨?_, fun w hw => List.infix_append_of_infix_right (ih.2 w hw)⟩
      exact (List.prefix_append_right_inj u).mpr ih.1

theorem infix_of_mem_words {us : List Text} {w : Text} (h : w ∈ words us) : w <:+: us.flatten := by
  obtain ⟨hf, hs⟩ := infix_wordsFrom us
  unfold words consWord at h
  split at h
  · exact hs w h
  · rcases List.mem_cons.mp h with rfl | h
    · exact hf.isInfix
    · exact hs w h

theorem infix_of_mem_splitArguments {head a : Text} (h : a ∈ splitArguments head) :
    a <:+: head := by
  have hw := infix_of_mem_words h
  rwa [flatten_argumentUnits] at hw

theorem infix_of_walk {t r : Text} {us : List Text} (h : walk t = some (us, r)) :
    us.flatten <:+: t ∧ r <:+: t := by
  rw [← append_of_walk h]
  exact ⟨List.infix_append_left, List.infix_append_of_infix_right (List.infix_cons List.infix_rfl)⟩

/-! ## escapes -/

section
variable {x : Text} (hx : '#' ∉ x) (hb : '\\' ∉ x)
include hx hb

theorem notMem_of_needsEscape {d : Char} (hd : needsEscape d = true) : d ∉ x := by
  simp only [needsEscape, Bool.or_eq_true, beq_iff_eq] at hd
  rcases hd with rfl | rfl
  · exact hx
  · exact hb

theorem prefix_of_prefix_unescape {t : Text} (h : x <+: unescape t) : x <+: t := by
  fun_induction unescape t generalizing x with
  | case1 => exact h
  | case2 c => exact h
  | case3 c d t hc ih =>
    cases x with
    | nil => exact List.nil_prefix
    | cons a x =>
      -- what an escape leaves is `#` or `\`, with which `x` does not start
      obtain ⟨rfl, _⟩ := List.cons_prefix_cons.mp h
      exact absurd List.mem_cons_self (notMem_of_needsEscape hx hb hc.2)
  | case4 c d t hc ih =>
    cases x with
    | nil => exact List.nil_prefix
    | cons a x =>
      obtain ⟨rfl, hp⟩ := List.cons_prefix_cons.mp h
      have hx' : '#' ∉ x := fun hm => hx (List.mem_cons_of_mem _ hm)
      have hb' : '\\' ∉ x := fun hm => hb (List.mem_cons_of_mem _ hm)
      exact List.cons_prefix_cons.mpr ⟨rfl, ih hx' hb' hp⟩

/-- what has neither `#` nor `\` and stands in a text with its escapes resolved stands in the text
as it was written -/
theorem infix_of_infix_unescape {t : Text} (h : x <:+: unescape t) : x <:+: t := by
  fun_induction unescape t with
  | case1 => exact h
  | case2 c => exact h
  | case3 c d t hc ih =>
    rcases List.infix_cons_iff.mp h with h | h
    · cases x with
      | nil => exact List.nil_infix
      | cons a x =>
        obtain ⟨rfl, _⟩ := List.cons_prefix_cons.mp h
        exact absurd List.mem_cons_self (notMem_of_needsEscape hx hb hc.2)
    · exact List.infix_cons (List.infix_cons (ih h))
  | case4 c d t hc ih =>
    rcases List.infix_cons_iff.mp h with hp | h
    · have hu : unescape (c :: d :: t) = c :: unescape (d :: t) := if_neg hc
      rw [← hu] at hp
      exact (prefix_of_prefix_unescape hx hb hp).isInfix
    · exact List.infix_cons (ih h)

end

/-! ## lines -/

namespace LineShape

theorem infix_of_inside? {t s : Text} (h : inside? t = some s) : s <:+: t := by
  cases t with
  | nil => simp [inside?] at h
  | cons c t =>
    simp only [inside?] at h
    split at h
    · exact List.infix_cons (Text.infix_of_dropEnd? h)
    · simp at h

theorem infix_of_parts? {t head body word : Text} (h : parts? t = some (head, body, word)) :
    head <:+: t ∧ body <:+: t := by
  unfold parts? at h
  obtain ⟨⟨head', rest⟩, hc, h⟩ := Option.bind_eq_some_iff.mp h
  obtain ⟨⟨body', word'⟩, hl, h⟩ := Option.map_eq_some_iff.mp h
  simp only [Prod.mk.injEq] at h
  obtain ⟨rfl, rfl, rfl⟩ := h
  obtain ⟨hh, hr⟩ := Text.infix_of_cutAt hc
  exact ⟨hh, (Text.infix_of_cutAtLast hl).1.trans hr⟩

theorem infix_of_ofText? {text source : Text} {isInline : Bool} {head : Head}
    (h : Head.ofText? text source isInline = some head) : ∀ p ∈ head.params, p <:+: text := by
  unfold Head.ofText? at h
  split at h
  · simp at h
  · rename_i name params ha
    simp only [Option.some.injEq] at h
    subst h
    intro p hp
    apply infix_of_mem_splitArguments
    rw [ha]
    exact List.mem_cons_of_mem _ hp

end LineShape

/-- the texts that evaluating a token can read: a line, or the parameters of a command -/
def Token.texts : Token → List Text
  | text line => [line]
  | command head => head.params

def Token.textsAll (ts : List Token) : List Text := ts.flatMap Token.texts

namespace Token

theorem textsAll_cons (t : Token) (ts : List Token) :
    textsAll (t :: ts) = t.texts ++ textsAll ts := List.flatMap_cons

theorem textsAll_append (ts us : List Token) :
    textsAll (ts ++ us) = textsAll ts ++ textsAll us := List.flatMap_append

theorem infix_of_mem_texts_ofLine {line t : Text} (h : t ∈ textsAll (ofLine line)) :
    t <:+: line := by
  have self : t ∈ textsAll [.text line] → t <:+: line := by
    intro ht
    obtain rfl : t = line := List.mem_singleton.mp ht
    exact List.infix_rfl
  unfold ofLine LineShape.of at h
  split at h
  · exact self h
  · rename_i inside hi
    have hinside : inside <:+: line := (LineShape.infix_of_inside? hi).trans (Text.infix_trim line)
    split at h
    · split at h
      · exact self h
      · rename_i head hh
        rcases List.mem_append.mp h with h | h
        · exact (LineShape.infix_of_ofText? hh t h).trans hinside
        · simp at h
    · rename_i headText body word hparts
      obtain ⟨hhead, hbody⟩ := LineShape.infix_of_parts? hparts
      split at h
      · exact self h
      · split at h
        · exact self h
        · rename_i head hh
          rcases List.mem_append.mp h with h | h
          · exact (LineShape.infix_of_ofText? hh t h).trans (hhead.trans hinside)
          · rcases List.mem_append.mp h with h | h
            · rw [List.mem_singleton.mp h]
              exact hbody.trans hinside
            · simp [Head.inlineEnd, texts] at h

theorem infix_of_mem_texts_ofSource {source t : Text} (h : t ∈ textsAll (ofSource source)) :
    t <:+: source := by
  obtain ⟨token, htoken, ht⟩ := List.mem_flatMap.mp h
  obtain ⟨line, hline, hl⟩ := List.mem_flatMap.mp htoken
  have hmem : t ∈ textsAll (ofLine line) := List.mem_flatMap.mpr ⟨token, hl, ht⟩
  exact (infix_of_mem_texts_ofLine hmem).trans (Text.infix_of_mem_splitOn hline)

end Token

/-! ## trees -/

namespace Node

def texts (nodes : List Node) : List Text := Token.textsAll (flattenAll nodes)

theorem texts_cons_text (line : Text) (nodes : List Node) :
    texts (.text line :: nodes) = line :: texts nodes := by
  rw [texts, flattenAll_cons, flatten_text]
  rfl

theorem texts_cons_command (head : Head) (rawBody : Text) (body nodes : List Node) :
    texts (.command head rawBody body :: nodes) = head.params ++ texts body ++ texts nodes := by
  rw [texts, flattenAll_cons, flatten, Token.textsAll_append, Token.textsAll_cons,
    Token.textsAll_append]
  show head.params ++ (texts body ++ []) ++ texts nodes = _
  rw [List.append_nil]

end Node

namespace Levels

/-- what is cut off at an `end` is not among the texts -/
theorem mem_texts_of_mem_tokens_cut {depth : Nat} {source t : Text} {l : Levels}
    (h : t ∈ Token.textsAll ((l.cut source).tokens depth)) :
    ∃ d, t ∈ Token.textsAll (l.tokens d) := by
  cases depth with
  | zero => exact ⟨0, tokens_cut_zero source l ▸ h⟩
  | succ d =>
    rw [tokens_cut_succ, Token.textsAll_cons] at h
    exact ⟨d, h⟩

theorem mem_texts_of_mem_inlineNode {head : Head} {ts : List Token} {t : Text}
    (h : t ∈ Token.textsAll (Node.flatten (inlineNode head ts.head?))) :
    t ∈ Token.textsAll (.command head :: ts) := by
  have alone : t ∈ Token.textsAll (Node.flatten (.command head [] [])) → t ∈ head.params := by
    intro ht
    rw [Node.flatten, Node.flattenAll_nil] at ht
    exact (List.mem_append.mp ht).resolve_right (List.not_mem_nil)
  cases ts with
  | nil => exact List.mem_append_left _ (alone h)
  | cons u ts =>
    cases u with
    | command e => exact List.mem_append_left _ (alone h)
    | text line =>
      change t ∈ Token.textsAll (Node.flatten (.command head line [.text line])) at h
      rw [Node.flatten, Node.flattenAll_cons, Node.flattenAll_nil, Node.flatten_text] at h
      rcases List.mem_append.mp h with h | h
      · exact List.mem_append_left _ h
      · obtain rfl : t = line := List.mem_singleton.mp h
        exact List.mem_append_right _ (List.mem_append_left _ List.mem_cons_self)

/-- a tree has no texts but those of the tokens it was built from -/
theorem mem_texts_of_mem_tokens (ts : List Token) (depth : Nat) {t : Text}
    (h : t ∈ Token.textsAll ((ofTokens ts).tokens depth)) : t ∈ Token.textsAll ts := by
  -- `depth` is general: a command is closed by the next `end`, so one more is open behind it
  induction ts using ofTokens.induct generalizing depth with
  | case1 =>
    rw [ofTokens_nil, tokens_empty, Token.textsAll, List.mem_flatMap] at h
    obtain ⟨u, hu, ht⟩ := h
    rw [List.eq_of_mem_replicate hu] at ht
    simp [Token.texts, Head.bareEnd] at ht
  | case2 line ts ih =>
    rw [ofTokens_text, tokens_push, Node.flatten_text, Token.textsAll_append] at h
    rw [Token.textsAll_cons]
    rcases List.mem_append.mp h with h | h
    · exact List.mem_append_left _ (by simpa [Token.textsAll] using h)
    · exact List.mem_append_right _ (ih depth h)
  | case3 head ts he ih =>
    rw [ofTokens_end he] at h
    obtain ⟨d, h⟩ := mem_texts_of_mem_tokens_cut h
    exact List.mem_append_right _ (ih d h)
  | case4 head ts he hi ih =>
    rw [ofTokens, if_neg he, if_pos hi, tokens_push, Token.textsAll_append] at h
    rcases List.mem_append.mp h with h | h
    · exact mem_texts_of_mem_inlineNode h
    · obtain ⟨u, hu, ht⟩ := List.mem_flatMap.mp (ih depth h)
      exact List.mem_append_right _ (List.mem_flatMap.mpr ⟨u, List.mem_of_mem_drop hu, ht⟩)
  | case5 head ts he hi ih =>
    rw [ofTokens_block (Bool.not_eq_true _ ▸ he) (Bool.not_eq_true _ ▸ hi),
      tokens_wrap _ (Bool.not_eq_true _ ▸ hi), Token.textsAll_cons] at h
    rcases List.mem_append.mp h with h | h
    · exact List.mem_append_left _ h
    · exact List.mem_append_right _ (ih (depth + 1) h)

end Levels

/-- whatever stands in the tree of a template stands in the template -/
theorem infix_of_mem_texts {source t : Text} (h : t ∈ Node.texts (Node.ofSource source)) :
    t <:+: source := by
  refine Token.infix_of_mem_texts_ofSource (Levels.mem_texts_of_mem_tokens _ 0 ?_)
  rw [Levels.tokens_zero]
  exact h

end Stencil
