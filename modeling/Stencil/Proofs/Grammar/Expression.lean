import Stencil.Text.Basic

/-!
# Parsing expressions

A grammar of parsing expressions reads a text from its left: a choice takes the first alternative
that succeeds, a repetition takes as many rounds as it can, and neither is ever tried again.

* `Expression`             parsing expressions over the rules of a grammar;
* `Grammar`                an expression for each rule;
* `Pair`                   what a rule has read, with what the rules inside it have read;
* `Grammar.Reads`          what an expression makes of a text;
* `Grammar.Reads.unique`   there is only one such result;
* `Grammar.Reads.append`   what is read and what is left over make up the text.
-/

namespace Stencil

/-- parsing expressions over the rules `ρ` -/
inductive Expression (ρ : Type)
  | char (c : Char)
  | any
  | rule (n : ρ)
  | seq (e f : Expression ρ)
  | alt (e f : Expression ρ)
  | opt (e : Expression ρ)
  | many (e : Expression ρ)
  | notAhead (e : Expression ρ)

namespace Expression

variable {ρ : Type}

def oneOrMore (e : Expression ρ) : Expression ρ := seq e (many e)

/-- a character where `e` fails -/
def butNot (e : Expression ρ) : Expression ρ := seq (notAhead e) any

end Expression

/-- an expression for each rule; a silent rule leaves no pair of its own -/
structure Grammar (ρ : Type) where
  body : ρ → Expression ρ
  isSilent : ρ → Bool

/-- what a rule has read, and the pairs of the rules inside it -/
inductive Pair (ρ : Type)
  | mk (rule : ρ) (text : Text) (inner : List (Pair ρ))

namespace Pair

variable {ρ : Type}

def rule : Pair ρ → ρ
  | mk n _ _ => n

def text : Pair ρ → Text
  | mk _ t _ => t

end Pair

/-- the result of reading: what was read, the pairs of its rules, and what is left over -/
structure Parsed (ρ : Type) where
  text : Text
  pairs : List (Pair ρ)
  rest : Text

/-- the result of reading something in front -/
def Parsed.after {ρ : Type} (s : Text) (ps : List (Pair ρ)) (p : Parsed ρ) : Parsed ρ :=
  ⟨s ++ p.text, ps ++ p.pairs, p.rest⟩

theorem Parsed.after_after {ρ : Type} (s s' : Text) (ps ps' : List (Pair ρ)) (p : Parsed ρ) :
    (p.after s' ps').after s ps = p.after (s ++ s') (ps ++ ps') := by
  simp only [after, List.append_assoc]

namespace Grammar

/-- an expression reads a text with a result, or fails -/
inductive Reads {ρ : Type} (G : Grammar ρ) : Expression ρ → Text → Option (Parsed ρ) → Prop
  | char {c : Char} {t : Text} : Reads G (.char c) (c :: t) (some ⟨[c], [], t⟩)
  | noChar {c : Char} {t : Text} (h : t.head? ≠ some c) : Reads G (.char c) t none
  | any {c : Char} {t : Text} : Reads G .any (c :: t) (some ⟨[c], [], t⟩)
  | noAny : Reads G .any [] none
  | rule {n : ρ} {t s r : Text} {ps : List (Pair ρ)} (h : Reads G (G.body n) t (some ⟨s, ps, r⟩)) :
      Reads G (.rule n) t (some ⟨s, if G.isSilent n then ps else [.mk n s ps], r⟩)
  | noRule {n : ρ} {t : Text} (h : Reads G (G.body n) t none) : Reads G (.rule n) t none
  | seq {e f : Expression ρ} {t s r s' r' : Text} {ps ps' : List (Pair ρ)}
      (h : Reads G e t (some ⟨s, ps, r⟩)) (h' : Reads G f r (some ⟨s', ps', r'⟩)) :
      Reads G (.seq e f) t (some ⟨s ++ s', ps ++ ps', r'⟩)
  | noFirst {e f : Expression ρ} {t : Text} (h : Reads G e t none) : Reads G (.seq e f) t none
  | noSecond {e f : Expression ρ} {t s r : Text} {ps : List (Pair ρ)}
      (h : Reads G e t (some ⟨s, ps, r⟩)) (h' : Reads G f r none) : Reads G (.seq e f) t none
  | left {e f : Expression ρ} {t : Text} {p : Parsed ρ} (h : Reads G e t (some p)) :
      Reads G (.alt e f) t (some p)
  | right {e f : Expression ρ} {t : Text} {o : Option (Parsed ρ)} (h : Reads G e t none)
      (h' : Reads G f t o) : Reads G (.alt e f) t o
  | opt {e : Expression ρ} {t : Text} {p : Parsed ρ} (h : Reads G e t (some p)) :
      Reads G (.opt e) t (some p)
  | noOpt {e : Expression ρ} {t : Text} (h : Reads G e t none) :
      Reads G (.opt e) t (some ⟨[], [], t⟩)
  | more {e : Expression ρ} {t s r s' r' : Text} {ps ps' : List (Pair ρ)}
      (h : Reads G e t (some ⟨s, ps, r⟩)) (h' : Reads G (.many e) r (some ⟨s', ps', r'⟩)) :
      Reads G (.many e) t (some ⟨s ++ s', ps ++ ps', r'⟩)
  | stop {e : Expression ρ} {t : Text} (h : Reads G e t none) :
      Reads G (.many e) t (some ⟨[], [], t⟩)
  | notAhead {e : Expression ρ} {t : Text} (h : Reads G e t none) :
      Reads G (.notAhead e) t (some ⟨[], [], t⟩)
  | ahead {e : Expression ρ} {t : Text} {p : Parsed ρ} (h : Reads G e t (some p)) :
      Reads G (.notAhead e) t none

namespace Reads

variable {ρ : Type} {G : Grammar ρ} {e f : Expression ρ}

theorem unique {t : Text} {o o' : Option (Parsed ρ)} (h : G.Reads e t o) (h' : G.Reads e t o') :
    o = o' := by
  induction h generalizing o' with
  | char =>
    cases h' with
    | char => rfl
    | noChar h' => exact absurd rfl h'
  | noChar h =>
    cases h' with
    | char => exact absurd rfl h
    | noChar => rfl
  | any => cases h'; rfl
  | noAny => cases h'; rfl
  | rule _ ih =>
    cases h' with
    | rule h' => cases ih h'; rfl
    | noRule h' => cases ih h'
  | noRule _ ih =>
    cases h' with
    | rule h' => cases ih h'
    | noRule => rfl
  | seq _ _ ih ih' =>
    cases h' with
    | seq h h' =>
      cases ih h
      cases ih' h'
      rfl
    | noFirst h => cases ih h
    | noSecond h h' =>
      cases ih h
      cases ih' h'
  | noFirst _ ih =>
    cases h' with
    | seq h => cases ih h
    | noFirst | noSecond => rfl
  | noSecond _ _ ih ih' =>
    cases h' with
    | seq h h' =>
      cases ih h
      cases ih' h'
    | noFirst | noSecond => rfl
  | left _ ih =>
    cases h' with
    | left h => exact ih h
    | right h => cases ih h
  | right _ _ ih ih' =>
    cases h' with
    | left h => cases ih h
    | right _ h' => exact ih' h'
  | opt _ ih =>
    cases h' with
    | opt h => exact ih h
    | noOpt h => cases ih h
  | noOpt _ ih =>
    cases h' with
    | opt h => cases ih h
    | noOpt => rfl
  | more _ _ ih ih' =>
    cases h' with
    | more h h' =>
      cases ih h
      cases ih' h'
      rfl
    | stop h => cases ih h
  | stop _ ih =>
    cases h' with
    | more h => cases ih h
    | stop => rfl
  | notAhead _ ih =>
    cases h' with
    | notAhead => rfl
    | ahead h => cases ih h
  | ahead _ ih =>
    cases h' with
    | notAhead h => cases ih h
    | ahead => rfl

theorem append {t : Text} {p : Parsed ρ} (h : G.Reads e t (some p)) : p.text ++ p.rest = t := by
  generalize ho : some p = o at h
  induction h generalizing p with
  | char | any | noOpt | stop | notAhead =>
    obtain rfl := Option.some.inj ho
    rfl
  | noChar | noAny | noRule | noFirst | noSecond | ahead => cases ho
  | rule _ ih =>
    obtain rfl := Option.some.inj ho
    have := ih rfl
    exact this
  | seq _ _ ih ih' | more _ _ ih ih' =>
    obtain rfl := Option.some.inj ho
    have hfirst := ih rfl
    rw [← ih' rfl, ← List.append_assoc] at hfirst
    exact hfirst
  | left _ ih | opt _ ih => exact ih ho
  | right _ _ _ ih' => exact ih' ho

/-! ## derived forms -/

theorem seq_map {t s r : Text} {ps : List (Pair ρ)} {o : Option (Parsed ρ)}
    (h : G.Reads e t (some ⟨s, ps, r⟩)) (h' : G.Reads f r o) :
    G.Reads (.seq e f) t (o.map (.after s ps)) := by
  cases o with
  | none => exact .noSecond h h'
  | some p => exact .seq h h'

theorem silent {n : ρ} (hn : G.isSilent n = true) {t s r : Text} {ps : List (Pair ρ)}
    (h : G.Reads (G.body n) t (some ⟨s, ps, r⟩)) : G.Reads (.rule n) t (some ⟨s, ps, r⟩) := by
  have hrule := h.rule
  rwa [if_pos hn] at hrule

theorem pair {n : ρ} (hn : G.isSilent n = false) {t s r : Text} {ps : List (Pair ρ)}
    (h : G.Reads (G.body n) t (some ⟨s, ps, r⟩)) :
    G.Reads (.rule n) t (some ⟨s, [.mk n s ps], r⟩) := by
  have hrule := h.rule
  rwa [if_neg (Bool.eq_false_iff.mp hn)] at hrule

theorem whole {n : ρ} (hn : G.isSilent n = false) {t s : Text} {ps : List (Pair ρ)}
    (h : G.Reads (G.body n) t (some ⟨s, ps, []⟩)) :
    G.Reads (.rule n) t (some ⟨t, [.mk n t ps], []⟩) := by
  obtain rfl : s = t := (List.append_nil s).symm.trans h.append
  exact .pair hn h

theorem butNot {c : Char} {t : Text} (h : G.Reads e (c :: t) none) :
    G.Reads e.butNot (c :: t) (some ⟨[c], [], t⟩) := .seq (.notAhead h) .any

theorem noButNot {t : Text} {p : Parsed ρ} (h : G.Reads e t (some p)) : G.Reads e.butNot t none :=
  .noFirst (.ahead h)

theorem butNot_nil (h : G.Reads e [] none) : G.Reads e.butNot [] none :=
  .noSecond (.notAhead h) .noAny

end Reads

end Grammar

end Stencil
