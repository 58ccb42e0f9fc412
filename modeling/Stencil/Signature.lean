import Stencil.Problem
import Stencil.Reference.Unit

/-!
# Signatures

What a command or a reference takes behind its name.

* `Signature`          the least and the greatest number of parameters, and the modifiers;
* `Sorted`             arguments sorted into parameters, modifiers, and what is dropped;
* `Signature.sortRest` sorts the arguments after those that are always parameters;
* `Checked`            the parameters and modifiers that are left, and the problems noted;
* `Signature.check`    checks arguments against a signature.
-/

namespace Stencil

/-- the parameters and modifiers that a command or a reference takes -/
structure Signature where
  least : Nat
  most : Nat
  keywords : List Text

/-- arguments, sorted; each class keeps their order -/
structure Sorted where
  params : List Text
  modifiers : List Modifier
  dropped : List Problem
  surplus : List Text

/-- what is left of the arguments after checking, and the problems noted -/
structure Checked where
  params : List Text
  modifiers : List Modifier
  isValid : Bool
  problems : List Problem

namespace Checked

def has (c : Checked) (m : Modifier) : Bool := m ∈ c.modifiers

/-- whether the command works on the variables around it, and not on a copy of them -/
def isUnscoped (c : Checked) : Bool := c.has .unscoped

end Checked

namespace Signature

/-- sort arguments, `held` parameters being there already: a modifier is kept if its keyword is in
the signature, and a text that is none is a parameter as long as there is room -/
def sortRest (sig : Signature) (s : Subject) (held : Nat) : List Text → Sorted
  | [] => ⟨[], [], [], []⟩
  | a :: as =>
    match Modifier.read a with
    | .ok m =>
      let r := sortRest sig s held as
      if m.keyword ∈ sig.keywords then { r with modifiers := m :: r.modifiers }
      else { r with dropped := .modifierNotAllowed m s :: r.dropped }
    | .error (.badArgument spec) =>
      let r := sortRest sig s held as
      { r with dropped := .malformedModifier spec s :: r.dropped }
    | .error .unknown =>
      if held < sig.most then
        let r := sortRest sig s (held + 1) as
        { r with params := a :: r.params }
      else
        let r := sortRest sig s held as
        { r with surplus := a :: r.surplus }

/-- check arguments: the first ones are parameters whatever they are, the others are sorted -/
def check (sig : Signature) (s : Subject) (args : List Text) : Checked :=
  let rest := sortRest sig s sig.least (args.drop sig.least)
  let params := args.take sig.least ++ rest.params
  let tooMany :=
    if rest.surplus = [] then [] else [.tooManyParameters s sig.most rest.surplus]
  let notEnough :=
    if params.length < sig.least then [.notEnoughParameters s sig.least params.length] else []
  ⟨params, rest.modifiers, sig.least ≤ params.length, rest.dropped ++ tooMany ++ notEnough⟩

/-! ## where parameters and modifiers come from -/

theorem mem_of_mem_sortRest_params (sig : Signature) (s : Subject) (held : Nat) (as : List Text)
    {p : Text} (h : p ∈ (sig.sortRest s held as).params) : p ∈ as := by
  induction as generalizing held with
  | nil => simp [sortRest] at h
  | cons a as ih =>
    simp only [sortRest] at h
    split at h
    · split at h <;> exact List.mem_cons_of_mem _ (ih held h)
    · exact List.mem_cons_of_mem _ (ih held h)
    · split at h
      · rcases List.mem_cons.mp h with rfl | h
        · exact List.mem_cons_self
        · exact List.mem_cons_of_mem _ (ih (held + 1) h)
      · exact List.mem_cons_of_mem _ (ih held h)

theorem read_of_mem_sortRest_modifiers (sig : Signature) (s : Subject) (held : Nat)
    (as : List Text) {m : Modifier} (h : m ∈ (sig.sortRest s held as).modifiers) :
    ∃ a ∈ as, Modifier.read a = .ok m := by
  induction as generalizing held with
  | nil => simp [sortRest] at h
  | cons a as ih =>
    have later : ∀ held, m ∈ (sig.sortRest s held as).modifiers →
        ∃ b ∈ a :: as, Modifier.read b = .ok m := by
      intro held hm
      obtain ⟨b, hb, hr⟩ := ih held hm
      exact ⟨b, List.mem_cons_of_mem _ hb, hr⟩
    simp only [sortRest] at h
    split at h
    · rename_i n hn
      split at h
      · rcases List.mem_cons.mp h with rfl | h
        · exact ⟨a, List.mem_cons_self, hn⟩
        · exact later held h
      · exact later held h
    · exact later held h
    · split at h
      · exact later (held + 1) h
      · exact later held h

theorem mem_of_mem_check_params (sig : Signature) (s : Subject) (args : List Text) {p : Text}
    (h : p ∈ (sig.check s args).params) : p ∈ args := by
  rcases List.mem_append.mp h with h | h
  · exact List.mem_of_mem_take h
  · exact List.mem_of_mem_drop (mem_of_mem_sortRest_params sig s _ _ h)

theorem read_of_mem_check_modifiers (sig : Signature) (s : Subject) (args : List Text)
    {m : Modifier} (h : m ∈ (sig.check s args).modifiers) :
    ∃ a ∈ args, Modifier.read a = .ok m := by
  obtain ⟨a, ha, hr⟩ := read_of_mem_sortRest_modifiers sig s _ _ h
  exact ⟨a, List.mem_of_mem_drop ha, hr⟩

/-! ## the size of the indices -/

def indexSize : List Modifier → Nat
  | [] => 0
  | m :: ms => m.size + indexSize ms

@[simp] theorem indexSize_nil : indexSize [] = 0 := rfl

@[simp] theorem indexSize_cons (m : Modifier) (ms : List Modifier) :
    indexSize (m :: ms) = m.size + indexSize ms := rfl

theorem indexSize_sortRest (sig : Signature) (s : Subject) (held : Nat) (as : List Text) :
    indexSize (sig.sortRest s held as).modifiers ≤ spacedLength as := by
  induction as generalizing held with
  | nil => simp [sortRest]
  | cons a as ih =>
    simp only [sortRest, spacedLength_cons]
    split
    · rename_i m hm
      have hs := Modifier.size_of_read hm
      have hi := ih held
      split
      · simp only [indexSize_cons]
        omega
      · simp only
        omega
    · have hi := ih held
      simp only
      omega
    · split
      · have hi := ih (held + 1)
        simp only
        omega
      · have hi := ih held
        simp only
        omega

theorem spacedLength_drop (n : Nat) (ts : List Text) : spacedLength (ts.drop n) ≤ spacedLength ts := by
  induction ts generalizing n with
  | nil => simp
  | cons t ts ih =>
    cases n with
    | zero => simp
    | succ n =>
      have h := ih n
      simp only [List.drop_succ_cons, spacedLength_cons]
      omega

theorem indexSize_check (sig : Signature) (s : Subject) (args : List Text) :
    indexSize (sig.check s args).modifiers ≤ spacedLength args :=
  Nat.le_trans (indexSize_sortRest sig s _ _) (spacedLength_drop _ _)

end Signature

end Stencil
