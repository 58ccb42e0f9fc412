import Stencil.Json.Quoted
import Stencil.Value.Basic

/-!
# Reading JSON

A machine with a stack of the lists and maps that are still open. Each step reads at least one
character, so the machine halts.

* `Json.Frame`      an open list or map and what it holds so far;
* `Json.Phase`      whether a value is expected next, or one has just been read;
* `Json.step`       one step of the machine;
* `Json.run`        all steps;
* `Value.ofJson?`   the value that a text spells, or what is wrong with the text.
-/

namespace Stencil

namespace Json

/-- a list or a map that is still open; the items of a list are kept last first -/
inductive Frame
  | items (done : List Value)
  | entries (done : Table Value) (key : Text)

/-- what the machine does next -/
inductive Phase
  | expect
  | close (v : Value)

/-- the result of a step -/
inductive Next
  | halt (r : Except Stop Value)
  | go (phase : Phase) (stack : List Frame) (rest : Text)

/-- so many lists and maps inside each other are too many -/
def depthBound : Nat := 128

/-- the four characters that may stand between the parts of JSON text -/
def isFiller (c : Char) : Bool := c == ' ' || c == '\n' || c == '\t' || c == '\r'

/-- the text after its fillers -/
def skip (t : Text) : Text := t.dropWhile isFiller

/-- the text after a word that has to be there -/
def readWord : Text → Text → Except Stop Text
  | [], t => .ok t
  | _ :: _, [] => .error ⟨.endInValue, [], 0⟩
  | c :: w, d :: t => if c = d then readWord w t else .error ⟨.expectedWord, d :: t, 1⟩

/-- a key and the colon after it, the opening quotation mark being read already -/
def readKey (t : Text) : Read Text :=
  match readQuoted t with
  | .error s => .error s
  | .ok (k, r) =>
    match skip r with
    | [] => .error ⟨.endInObject, [], 0⟩
    | ':' :: r' => .ok (k, r')
    | r' => .error ⟨.expectedColon, r', 1⟩

def fail (cause : Cause) (rest : Text) (past : Nat) : Next := .halt (.error ⟨cause, rest, past⟩)

def closeWith (stack : List Frame) (r : Read Value) : Next :=
  match r with
  | .error s => .halt (.error s)
  | .ok (v, rest) => .go (.close v) stack rest

/-- the start of a value; `t` has no filler in front -/
def stepExpect (stack : List Frame) (t : Text) : Next :=
  match t with
  | [] => fail .endInValue [] 0
  | c :: r =>
    if c = 'n' then closeWith stack ((readWord "ull".toList r).map fun u => (.null, u))
    else if c = 't' then closeWith stack ((readWord "rue".toList r).map fun u => (.bool true, u))
    else if c = 'f' then closeWith stack ((readWord "alse".toList r).map fun u => (.bool false, u))
    else if c = '\"' then closeWith stack ((readQuoted r).map fun (s, u) => (.string s, u))
    else if c = '[' then
      if depthBound ≤ stack.length + 1 then fail .tooDeep t 1
      else match skip r with
        | [] => fail .endInList [] 0
        | ']' :: r' => .go (.close (.list [])) stack r'
        | r' => .go .expect (.items [] :: stack) r'
    else if c = '\x7b' then
      if depthBound ≤ stack.length + 1 then fail .tooDeep t 1
      else match skip r with
        | [] => fail .endInObject [] 0
        | '\x7d' :: r' => .go (.close (.map [])) stack r'
        | '\"' :: r' =>
          match readKey r' with
          | .error s => .halt (.error s)
          | .ok (k, u) => .go .expect (.entries [] k :: stack) u
        | r' => fail .keyNotText r' 1
    else if c = '-' ∨ c.isDigit then closeWith stack ((readNumber t).map fun (n, u) => (.number n, u))
    else fail .expectedValue t 1

/-- what follows the value `v` in what is open; `t` has no filler in front -/
def stepClose (v : Value) (stack : List Frame) (t : Text) : Next :=
  match stack with
  | [] => if t = [] then .halt (.ok v) else fail .trailingText t 1
  | .items done :: stack =>
    match t with
    | [] => fail .endInList [] 0
    | ']' :: r => .go (.close (.list (v :: done).reverse)) stack r
    | ',' :: r =>
      match skip r with
      | [] => fail .endInValue [] 0
      | ']' :: r' => fail .trailingComma (']' :: r') 1
      | r' => .go .expect (.items (v :: done) :: stack) r'
    | r => fail .expectedListComma r 1
  | .entries done key :: stack =>
    match t with
    | [] => fail .endInObject [] 0
    | '\x7d' :: r => .go (.close (.map (done.insert key v))) stack r
    | ',' :: r =>
      match skip r with
      | [] => fail .endInValue [] 0
      | '\x7d' :: r' => fail .trailingComma ('\x7d' :: r') 1
      | '\"' :: r' =>
        match readKey r' with
        | .error s => .halt (.error s)
        | .ok (k, u) => .go .expect (.entries (done.insert key v) k :: stack) u
      | r' => fail .keyNotText r' 1
    | r => fail .expectedObjectComma r 1

def step (phase : Phase) (stack : List Frame) (t : Text) : Next :=
  match phase with
  | .expect => stepExpect stack (skip t)
  | .close v => stepClose v stack (skip t)

/-! ## each step reads something -/

theorem length_skip_le (t : Text) : (skip t).length ≤ t.length :=
  (List.dropWhile_sublist isFiller).length_le

theorem length_skip_cons {t r : Text} {c : Char} (h : skip t = c :: r) : r.length < t.length := by
  have hl := length_skip_le t
  rw [h, List.length_cons] at hl
  omega

theorem length_readWord {w t r : Text} (h : readWord w t = .ok r) : r.length ≤ t.length := by
  induction w generalizing t with
  | nil =>
    simp only [readWord, Except.ok.injEq] at h
    exact Nat.le_of_eq (congrArg List.length h.symm)
  | cons c w ih =>
    cases t with
    | nil => simp [readWord] at h
    | cons d t =>
      simp only [readWord] at h
      split at h
      · have hl := ih h
        simp only [List.length_cons]
        omega
      · simp at h

theorem length_readKey {t r k : Text} (h : readKey t = .ok (k, r)) : r.length < t.length := by
  unfold readKey at h
  split at h
  · simp at h
  · rename_i hq
    have hl := length_readQuoted hq
    split at h
    · simp at h
    · rename_i hs
      have hk := length_skip_cons hs
      simp only [Except.ok.injEq, Prod.mk.injEq] at h
      rw [← h.2]
      omega
    · simp at h

theorem length_closeWith {stack s : List Frame} {x : Read Value} {p : Phase} {r t : Text}
    (hx : ∀ v u, x = .ok (v, u) → u.length < t.length)
    (h : closeWith stack x = .go p s r) : r.length < t.length := by
  unfold closeWith at h
  split at h
  · simp at h
  · rename_i v u
    simp only [Next.go.injEq] at h
    rw [← h.2.2]
    exact hx v u rfl

theorem length_map_read {α β : Type} {x : Read α} {f : α → β} {t : Text}
    (hx : ∀ v u, x = .ok (v, u) → u.length < t.length) (v : β) (u : Text)
    (h : (x.map fun (a, b) => (f a, b)) = .ok (v, u)) : u.length < t.length := by
  cases x with
  | error e => simp [Except.map] at h
  | ok y =>
    simp only [Except.map, Except.ok.injEq, Prod.mk.injEq] at h
    have hl := hx y.1 y.2 rfl
    rw [← h.2]
    exact hl

theorem length_map_word {x : Except Stop Text} {a : Value} {c : Char} {t : Text}
    (hx : ∀ u, x = .ok u → u.length ≤ t.length) (v : Value) (u : Text)
    (h : (x.map fun b => (a, b)) = .ok (v, u)) : u.length < (c :: t).length := by
  cases x with
  | error e => simp [Except.map] at h
  | ok y =>
    simp only [Except.map, Except.ok.injEq, Prod.mk.injEq] at h
    have hl := hx y rfl
    rw [← h.2, List.length_cons]
    omega

theorem length_stepExpect {stack s : List Frame} {p : Phase} {t r : Text}
    (h : stepExpect stack t = .go p s r) : r.length < t.length := by
  unfold stepExpect at h
  split at h
  · simp [fail] at h
  rename_i c u
  split at h
  · exact length_closeWith (length_map_word fun _ hw => length_readWord hw) h
  split at h
  · exact length_closeWith (length_map_word fun _ hw => length_readWord hw) h
  split at h
  · exact length_closeWith (length_map_word fun _ hw => length_readWord hw) h
  split at h
  · refine length_closeWith (length_map_read fun _ _ hw => ?_) h
    have hl := length_readQuoted hw
    rw [List.length_cons]
    omega
  split at h
  · split at h
    · simp [fail] at h
    have hl := length_skip_le u
    split at h <;> rename_i hs
    · simp [fail] at h
    · rw [hs, List.length_cons] at hl
      simp only [Next.go.injEq] at h
      rw [← h.2.2, List.length_cons]
      omega
    · simp only [Next.go.injEq] at h
      rw [← h.2.2, List.length_cons]
      omega
  split at h
  · split at h
    · simp [fail] at h
    have hl := length_skip_le u
    split at h <;> rename_i hs
    · simp [fail] at h
    · rw [hs, List.length_cons] at hl
      simp only [Next.go.injEq] at h
      rw [← h.2.2, List.length_cons]
      omega
    · rw [hs, List.length_cons] at hl
      split at h
      · simp at h
      · rename_i hk
        have hk := length_readKey hk
        simp only [Next.go.injEq] at h
        rw [← h.2.2, List.length_cons]
        omega
    · simp [fail] at h
  split at h
  · exact length_closeWith (length_map_read fun _ _ hw => length_readNumber hw) h
  · simp [fail] at h

theorem length_stepClose {v : Value} {stack s : List Frame} {p : Phase} {t r : Text}
    (h : stepClose v stack t = .go p s r) : r.length < t.length := by
  unfold stepClose at h
  split at h
  · split at h <;> simp [fail] at h
  · split at h
    · simp [fail] at h
    · simp only [Next.go.injEq] at h
      rw [← h.2.2, List.length_cons]
      omega
    · rename_i u
      have hl := length_skip_le u
      split at h
      · simp [fail] at h
      · simp [fail] at h
      · simp only [Next.go.injEq] at h
        rw [← h.2.2, List.length_cons]
        omega
    · simp [fail] at h
  · split at h
    · simp [fail] at h
    · simp only [Next.go.injEq] at h
      rw [← h.2.2, List.length_cons]
      omega
    · rename_i u
      have hl := length_skip_le u
      split at h <;> rename_i hs
      · simp [fail] at h
      · simp [fail] at h
      · rw [hs, List.length_cons] at hl
        split at h
        · simp at h
        · rename_i hk
          have hk := length_readKey hk
          simp only [Next.go.injEq] at h
          rw [← h.2.2, List.length_cons]
          omega
      · simp [fail] at h
    · simp [fail] at h

theorem length_step {phase p : Phase} {stack s : List Frame} {t r : Text}
    (h : step phase stack t = .go p s r) : r.length < t.length := by
  have hl := length_skip_le t
  cases phase with
  | expect => exact Nat.lt_of_lt_of_le (length_stepExpect h) hl
  | close v => exact Nat.lt_of_lt_of_le (length_stepClose h) hl

/-! ## the machine -/

def run (phase : Phase) (stack : List Frame) (t : Text) : Except Stop Value :=
  match _ : step phase stack t with
  | .halt r => r
  | .go p s r => run p s r
termination_by t.length
decreasing_by
  rename_i h
  exact length_step h

end Json

def Value.ofJson? (t : Text) : Except Json.Fault Value :=
  match Json.run .expect [] t with
  | .ok v => .ok v
  | .error s => .error (s.fault t)

end Stencil
