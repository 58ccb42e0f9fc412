import Stencil.Render.Command

/-!
# The roles of arguments

Checking arguments gives each of them one role.  The first ones are parameters whatever they spell;
a later one is a modifier, or one that is dropped, or else a further parameter as long as there is
room, and surplus when there is none.

* `Role`                     what an argument is taken for;
* `Signature.Plays`          the role of an argument at a place, as many parameters being held;
* `Signature.Casting`        the roles of all arguments;
* `Signature.rolesOf`, `Signature.casting_iff`   there is one way to give them;
* `Signature.sortRest_eq`, `Signature.check_eq`   what is sorted and checked, told by the roles;
* `Signature.check_roles`    what is left of the arguments, and the problems noted;
* `Signature.mem_modifiers_check_iff`   the modifiers among what is left;
* `Signature.exists_check_of_sublist`   arguments without some of their modifiers.
-/

namespace Stencil

/-- what an argument is taken for -/
inductive Role
  | positional
  | modifier (m : Modifier)
  | dropped (p : Problem)
  | further
  | surplus
deriving DecidableEq

namespace Role

def isParam : Role → Bool
  | positional => true
  | further => true
  | _ => false

def isSurplus : Role → Bool
  | surplus => true
  | _ => false

def modifier? : Role → Option Modifier
  | modifier m => some m
  | _ => none

def problem? : Role → Option Problem
  | dropped p => some p
  | _ => none

def put (a : Text) (sorted : Sorted) : Role → Sorted
  | positional => { sorted with params := a :: sorted.params }
  | modifier m => { sorted with modifiers := m :: sorted.modifiers }
  | dropped p => { sorted with dropped := p :: sorted.dropped }
  | further => { sorted with params := a :: sorted.params }
  | surplus => { sorted with surplus := a :: sorted.surplus }

theorem modifiers_put (a : Text) (sorted : Sorted) (r : Role) :
    (r.put a sorted).modifiers = r.modifier?.toList ++ sorted.modifiers := by
  cases r <;> rfl

/-- the arguments whose roles are of a kind, in their order -/
def select (kind : Role → Bool) (args : List Text) (roles : List Role) : List Text :=
  ((args.zip roles).filter fun x => kind x.2).map Prod.fst

theorem select_cons (kind : Role → Bool) (a : Text) (args : List Text) (r : Role)
    (roles : List Role) : select kind (a :: args) (r :: roles) =
      if kind r then a :: select kind args roles else select kind args roles := by
  rw [select, List.zip_cons_cons, List.filter_cons]
  split <;> rfl

theorem select_same (kind : Role → Bool) (r : Role) (args args' : List Text) (roles : List Role) :
    select kind (args ++ args') (args.map (fun _ => r) ++ roles) =
      (if kind r then args else []) ++ select kind args' roles := by
  induction args with
  | nil => split <;> rfl
  | cons a args ih =>
    rw [List.cons_append, List.map_cons, List.cons_append, select_cons, ih]
    split <;> rfl

end Role

/-- a modifier without an argument is spelled by its keyword alone -/
theorem Modifier.read_eq_ok_iff_of_bare {m : Modifier} (h : m ∈ bare) {spec : Text} :
    read spec = .ok m ↔ spec = m.keyword := by
  have hnone := argument?_of_mem_bare h
  constructor
  · intro hr
    rcases read_cases hr with ⟨-, hs⟩ | ⟨a, -, -, rfl⟩ | ⟨a, f, -, -, rfl⟩ | ⟨a, f, -, -, rfl⟩
    · exact hs
    · cases hnone
    · cases hnone
    · cases hnone
  · rintro rfl
    cases m with
    | index expr => cases hnone
    | parse f => cases hnone
    | load f => cases hnone
    | order o => cases o <;> rfl
    | _ => rfl

namespace Signature

/-- the role of the argument `a` at the place `i`, with `held` parameters in front of it -/
inductive Plays (sig : Signature) (s : Subject) (i held : Nat) (a : Text) : Role → Prop
  | positional (hi : i < sig.least) : Plays sig s i held a .positional
  | modifier {m : Modifier} (hi : sig.least ≤ i) (hr : Modifier.read a = .ok m)
      (hk : m.keyword ∈ sig.keywords) : Plays sig s i held a (.modifier m)
  | notAllowed {m : Modifier} (hi : sig.least ≤ i) (hr : Modifier.read a = .ok m)
      (hk : m.keyword ∉ sig.keywords) : Plays sig s i held a (.dropped (.modifierNotAllowed m s))
  | malformed (hi : sig.least ≤ i) (hr : Modifier.read a = .error (.badArgument a)) :
      Plays sig s i held a (.dropped (.malformedModifier a s))
  | further (hi : sig.least ≤ i) (hr : Modifier.read a = .error .unknown)
      (hheld : held < sig.most) : Plays sig s i held a .further
  | surplus (hi : sig.least ≤ i) (hr : Modifier.read a = .error .unknown)
      (hheld : sig.most ≤ held) : Plays sig s i held a .surplus

/-- one role for each argument, the parameters in front of it being counted -/
structure Casting (sig : Signature) (s : Subject) (args : List Text) (roles : List Role) : Prop where
  length_eq : roles.length = args.length
  plays : ∀ i a r, args[i]? = some a → roles[i]? = some r →
    sig.Plays s i ((roles.take i).countP Role.isParam) a r

end Signature

namespace Signature

variable (sig : Signature) (s : Subject)

/-! ## the one way to give roles -/

def laterRole (held : Nat) (a : Text) : Role :=
  match Modifier.read a with
  | .ok m =>
    if sig.keywords.contains m.keyword then .modifier m else .dropped (.modifierNotAllowed m s)
  | .error (.badArgument spec) => .dropped (.malformedModifier spec s)
  | .error .unknown => if held < sig.most then .further else .surplus

def roleAt (i held : Nat) (a : Text) : Role :=
  if i < sig.least then .positional else sig.laterRole s held a

/-- the roles of some arguments, `i` arguments and among them `held` parameters being in front -/
def rolesFrom (i held : Nat) : List Text → List Role
  | [] => []
  | a :: as =>
    let r := sig.roleAt s i held a
    r :: rolesFrom (i + 1) (if r.isParam then held + 1 else held) as

def rolesOf (args : List Text) : List Role := sig.rolesFrom s 0 0 args

variable {s}

theorem laterRole_of_read {held : Nat} {a : Text} {m : Modifier} (hr : Modifier.read a = .ok m) :
    sig.laterRole s held a =
      if m.keyword ∈ sig.keywords then .modifier m else .dropped (.modifierNotAllowed m s) := by
  rw [laterRole, hr]
  simp only [List.contains_iff_mem]

theorem plays_iff {i held : Nat} {a : Text} {r : Role} :
    sig.Plays s i held a r ↔ r = sig.roleAt s i held a := by
  constructor
  · intro h
    cases h with
    | positional hi => exact (if_pos hi).symm
    | modifier hi hr hk =>
      rw [roleAt, if_neg (Nat.not_lt.mpr hi), sig.laterRole_of_read hr, if_pos hk]
    | notAllowed hi hr hk =>
      rw [roleAt, if_neg (Nat.not_lt.mpr hi), sig.laterRole_of_read hr, if_neg hk]
    | malformed hi hr => rw [roleAt, if_neg (Nat.not_lt.mpr hi), laterRole, hr]
    | further hi hr hheld =>
      rw [roleAt, if_neg (Nat.not_lt.mpr hi), laterRole, hr]
      exact (if_pos hheld).symm
    | surplus hi hr hheld =>
      rw [roleAt, if_neg (Nat.not_lt.mpr hi), laterRole, hr]
      exact (if_neg (Nat.not_lt.mpr hheld)).symm
  · rintro rfl
    by_cases hi : i < sig.least
    · rw [roleAt, if_pos hi]
      exact .positional hi
    have hle := Nat.not_lt.mp hi
    rw [roleAt, if_neg hi]
    cases hr : Modifier.read a with
    | ok m =>
      rw [sig.laterRole_of_read hr]
      by_cases hk : m.keyword ∈ sig.keywords
      · rw [if_pos hk]
        exact .modifier hle hr hk
      · rw [if_neg hk]
        exact .notAllowed hle hr hk
    | error e =>
      rw [laterRole, hr]
      cases e with
      | badArgument spec =>
        obtain rfl := Modifier.eq_of_read_badArgument hr
        exact .malformed hle hr
      | unknown =>
        by_cases hheld : held < sig.most
        · simp only [if_pos hheld]
          exact .further hle hr hheld
        · simp only [if_neg hheld]
          exact .surplus hle hr (Nat.not_lt.mp hheld)

theorem rolesFrom_iff {i held : Nat} {args : List Text} {roles : List Role} :
    (roles.length = args.length ∧ ∀ j a r, args[j]? = some a → roles[j]? = some r →
      sig.Plays s (i + j) (held + (roles.take j).countP Role.isParam) a r) ↔
      roles = sig.rolesFrom s i held args := by
  induction args generalizing i held roles with
  | nil =>
    constructor
    · exact fun h => List.eq_nil_of_length_eq_zero h.1
    · rintro rfl
      exact ⟨rfl, fun j a r ha => by simp at ha⟩
  | cons a args ih =>
    cases roles with
    | nil => exact ⟨fun h => absurd h.1 (by simp), fun h => by cases h⟩
    | cons r roles =>
      have hcount (j : Nat) : held + ((r :: roles).take (j + 1)).countP Role.isParam =
          (if r.isParam then held + 1 else held) + (roles.take j).countP Role.isParam := by
        rw [List.take_succ_cons, List.countP_cons]
        split <;> omega
      have hplace (j : Nat) : i + (j + 1) = i + 1 + j := by omega
      rw [rolesFrom, List.cons.injEq, ← plays_iff]
      constructor
      · rintro ⟨hlength, hplays⟩
        have hfirst : sig.Plays s i held a r := hplays 0 a r rfl rfl
        have hrest := ih.mp ⟨Nat.succ.inj hlength, fun j b q hb hq => by
          have hnext := hplays (j + 1) b q hb hq
          rw [hcount, hplace] at hnext
          exact hnext⟩
        obtain rfl := (plays_iff sig).mp hfirst
        exact ⟨hfirst, hrest⟩
      · rintro ⟨hfirst, hrest⟩
        obtain rfl := (plays_iff sig).mp hfirst
        obtain ⟨hlength, hplays⟩ := ih.mpr hrest
        refine ⟨congrArg (· + 1) hlength, fun j b q hb hq => ?_⟩
        cases j with
        | zero =>
          obtain rfl := Option.some.inj hb
          obtain rfl := Option.some.inj hq
          exact hfirst
        | succ j =>
          rw [hcount, hplace]
          exact hplays j b q hb hq

theorem casting_iff {args : List Text} {roles : List Role} :
    sig.Casting s args roles ↔ roles = sig.rolesOf s args := by
  rw [rolesOf, ← rolesFrom_iff]
  simp only [Nat.zero_add]
  exact ⟨fun h => ⟨h.1, h.2⟩, fun h => ⟨h.1, h.2⟩⟩

/-! ## what is sorted, told by the roles -/

theorem rolesFrom_cons_of_le {i held : Nat} (hi : sig.least ≤ i) (a : Text) (as : List Text) :
    sig.rolesFrom s i held (a :: as) = sig.laterRole s held a :: sig.rolesFrom s (i + 1)
      (if (sig.laterRole s held a).isParam then held + 1 else held) as := by
  rw [rolesFrom, roleAt, if_neg (Nat.not_lt.mpr hi)]

theorem sortRest_cons (held : Nat) (a : Text) (as : List Text) : sig.sortRest s held (a :: as) =
    (sig.laterRole s held a).put a (sig.sortRest s
      (if (sig.laterRole s held a).isParam then held + 1 else held) as) := by
  rw [sortRest]
  cases hr : Modifier.read a with
  | ok m =>
    rw [sig.laterRole_of_read hr]
    dsimp only
    split <;> rfl
  | error e =>
    rw [laterRole, hr]
    cases e with
    | badArgument spec => rfl
    | unknown =>
      dsimp only
      split <;> rfl

theorem sortRest_eq {i held : Nat} (hi : sig.least ≤ i) (as : List Text) :
    let roles := sig.rolesFrom s i held as
    sig.sortRest s held as = ⟨Role.select Role.isParam as roles, roles.filterMap Role.modifier?,
      roles.filterMap Role.problem?, Role.select Role.isSurplus as roles⟩ := by
  induction as generalizing i held with
  | nil => rfl
  | cons a as ih =>
    intro roles
    have hroles : roles = _ := rolesFrom_cons_of_le sig hi a as
    rw [hroles, sortRest_cons, ih (Nat.le_succ_of_le hi), Role.select_cons, Role.select_cons]
    cases sig.laterRole s held a <;> rfl

theorem rolesFrom_of_le {i : Nat} (hi : i ≤ sig.least) (args : List Text) :
    sig.rolesFrom s i i args = (args.take (sig.least - i)).map (fun _ => Role.positional) ++
      sig.rolesFrom s sig.least sig.least (args.drop (sig.least - i)) := by
  induction args generalizing i with
  | nil => rw [List.take_nil, List.drop_nil]; rfl
  | cons a args ih =>
    rcases Nat.lt_or_eq_of_le hi with hlt | rfl
    · obtain ⟨k, hk⟩ : ∃ k, sig.least - i = k + 1 := ⟨sig.least - i - 1, by omega⟩
      have hrest : sig.least - (i + 1) = k := by omega
      rw [rolesFrom, roleAt, if_pos hlt, hk, List.take_succ_cons, List.drop_succ_cons, ← hrest]
      exact congrArg _ (ih hlt)
    · rw [Nat.sub_self]
      rfl

theorem rolesOf_eq (args : List Text) : sig.rolesOf s args =
    (args.take sig.least).map (fun _ => Role.positional) ++
      sig.rolesFrom s sig.least sig.least (args.drop sig.least) :=
  rolesFrom_of_le sig (Nat.zero_le _) args

theorem select_rolesOf (kind : Role → Bool) (args : List Text) :
    Role.select kind args (sig.rolesOf s args) =
      (if kind .positional then args.take sig.least else []) ++
        Role.select kind (args.drop sig.least)
          (sig.rolesFrom s sig.least sig.least (args.drop sig.least)) := by
  have hsame := Role.select_same kind .positional (args.take sig.least) (args.drop sig.least)
    (sig.rolesFrom s sig.least sig.least (args.drop sig.least))
  rwa [List.take_append_drop, ← rolesOf_eq] at hsame

theorem select_isParam (args : List Text) : Role.select Role.isParam args (sig.rolesOf s args) =
    args.take sig.least ++ Role.select Role.isParam (args.drop sig.least)
      (sig.rolesFrom s sig.least sig.least (args.drop sig.least)) :=
  select_rolesOf sig Role.isParam args

theorem select_isSurplus (args : List Text) :
    Role.select Role.isSurplus args (sig.rolesOf s args) =
      Role.select Role.isSurplus (args.drop sig.least)
        (sig.rolesFrom s sig.least sig.least (args.drop sig.least)) :=
  select_rolesOf sig Role.isSurplus args

theorem filterMap_rolesOf {α : Type} {f : Role → Option α} (hf : f .positional = none)
    (args : List Text) : (sig.rolesOf s args).filterMap f =
      (sig.rolesFrom s sig.least sig.least (args.drop sig.least)).filterMap f := by
  rw [rolesOf_eq, List.filterMap_append, List.filterMap_map]
  simp [hf]

theorem select_isParam_of_lt {args : List Text} (h : args.length < sig.least) :
    Role.select Role.isParam args (sig.rolesOf s args) = args := by
  have hle := Nat.le_of_lt h
  rw [select_isParam, List.drop_eq_nil_of_le hle, List.take_of_length_le hle]
  exact List.append_nil args

theorem le_length_select_isParam {args : List Text} (h : sig.least ≤ args.length) :
    sig.least ≤ (Role.select Role.isParam args (sig.rolesOf s args)).length := by
  rw [select_isParam, List.length_append, List.length_take_of_le h]
  exact Nat.le_add_right _ _

/-- what is noted about surplus arguments -/
def tooMany (s : Subject) (surplus : List Text) : List Problem :=
  if surplus = [] then [] else [.tooManyParameters s sig.most surplus]

theorem check_eq (args : List Text) :
    let roles := sig.rolesOf s args
    sig.check s args = ⟨Role.select Role.isParam args roles, roles.filterMap Role.modifier?,
      sig.least ≤ args.length, roles.filterMap Role.problem? ++
        sig.tooMany s (Role.select Role.isSurplus args roles) ++
        if args.length < sig.least then [.notEnoughParameters s sig.least args.length] else []⟩ := by
  intro roles
  have hsort : sig.sortRest s sig.least (args.drop sig.least) = _ :=
    sortRest_eq sig (Nat.le_refl _) (args.drop sig.least)
  have hparams : Role.select Role.isParam args roles = _ := select_isParam sig args
  have hsurplus : Role.select Role.isSurplus args roles = _ := select_isSurplus sig args
  have hmodifiers : roles.filterMap Role.modifier? = _ := filterMap_rolesOf sig rfl args
  have hproblems : roles.filterMap Role.problem? = _ := filterMap_rolesOf sig rfl args
  rw [check, hsort, ← hparams, ← hsurplus, ← hmodifiers, ← hproblems]
  dsimp only
  rw [tooMany]
  by_cases h : args.length < sig.least
  · have hall : Role.select Role.isParam args roles = args := select_isParam_of_lt sig h
    rw [hall]
  · have hle := Nat.not_lt.mp h
    have hlength : sig.least ≤ (Role.select Role.isParam args roles).length :=
      le_length_select_isParam sig hle
    rw [if_neg h, if_neg (Nat.not_lt.mpr hlength), decide_eq_true hlength, decide_eq_true hle]

/-! ## the partition -/

/-- a parameter is held only as long as there is room -/
theorem length_select_isParam_le {i held : Nat} (hi : sig.least ≤ i) (hheld : held ≤ sig.most)
    (as : List Text) :
    held + (Role.select Role.isParam as (sig.rolesFrom s i held as)).length ≤ sig.most := by
  induction as generalizing i held with
  | nil => exact hheld
  | cons a as ih =>
    have hnext : sig.least ≤ i + 1 := Nat.le_succ_of_le hi
    have hroom : (sig.laterRole s held a).isParam = true → held + 1 ≤ sig.most := by
      intro hparam
      have hplays : sig.Plays s i held a (sig.roleAt s i held a) := (plays_iff sig).mpr rfl
      rw [roleAt, if_neg (Nat.not_lt.mpr hi)] at hplays
      generalize sig.laterRole s held a = r at hparam hplays
      cases hplays with
      | positional hlt => omega
      | further _ _ hlt => exact hlt
      | _ => cases hparam
    rw [rolesFrom_cons_of_le sig hi, Role.select_cons]
    split
    · rename_i hparam
      have hrest := ih hnext (hroom hparam)
      rw [List.length_cons]
      omega
    · exact ih hnext hheld

theorem severity_of_mem_problems {i held : Nat} {as : List Text} {p : Problem}
    (h : p ∈ (sig.rolesFrom s i held as).filterMap Role.problem?) : p.severity = .warning := by
  induction as generalizing i held with
  | nil => cases h
  | cons a as ih =>
    rw [rolesFrom, List.filterMap_cons] at h
    have hplays : sig.Plays s i held a (sig.roleAt s i held a) := (plays_iff sig).mpr rfl
    generalize sig.roleAt s i held a = r at h hplays
    cases hplays with
    | notAllowed => exact (List.mem_cons.mp h).elim (fun he => he ▸ rfl) ih
    | malformed => exact (List.mem_cons.mp h).elim (fun he => he ▸ rfl) ih
    | _ => exact ih h

/-- **Every argument has one role.**  There is one way to give each argument a role.  The parameters
and the modifiers that are left are the arguments with these roles, in their order.  The problems are
one for each argument that is dropped, in their order, then one for all that are surplus, if there
are any, and one if parameters are lacking; all of them are warnings.  The arguments are accepted if
there are enough of them, and then the first ones are held as parameters and no more than there is
room for; if they are not accepted, nothing else is noted. -/
theorem check_roles (h : sig.least ≤ sig.most) (args : List Text) :
    let checked := sig.check s args
    ∃ roles : List Role, (∀ roles', sig.Casting s args roles' ↔ roles' = roles) ∧
      checked.params = Role.select Role.isParam args roles ∧
      checked.modifiers = roles.filterMap Role.modifier? ∧
      checked.problems = roles.filterMap Role.problem? ++
        sig.tooMany s (Role.select Role.isSurplus args roles) ++
        (if args.length < sig.least then [.notEnoughParameters s sig.least args.length] else []) ∧
      (∀ p ∈ checked.problems, p.severity = .warning) ∧
      (checked.isValid = true ↔ sig.least ≤ args.length) ∧
      (checked.isValid = true →
        sig.least ≤ checked.params.length ∧ checked.params.length ≤ sig.most ∧
          ∀ i < sig.least, ∃ a, args[i]? = some a ∧ checked.params[i]? = some a) ∧
      (checked.isValid = false →
        checked.problems = [.notEnoughParameters s sig.least args.length]) := by
  intro checked
  have hchecked : checked = _ := check_eq sig args
  have hvalid : checked.isValid = true ↔ sig.least ≤ args.length := by
    rw [hchecked]
    exact decide_eq_true_iff
  refine ⟨sig.rolesOf s args, fun _ => casting_iff sig, ?_, ?_, ?_, ?_, hvalid, ?_, ?_⟩
  · rw [hchecked]
  · rw [hchecked]
  · rw [hchecked]
  · intro p hp
    rw [hchecked] at hp
    rcases List.mem_append.mp hp with hp | hp
    · rcases List.mem_append.mp hp with hp | hp
      · exact severity_of_mem_problems sig hp
      · rw [tooMany] at hp
        split at hp
        · cases hp
        · exact List.mem_singleton.mp hp ▸ rfl
    · split at hp
      · exact List.mem_singleton.mp hp ▸ rfl
      · cases hp
  · intro haccepted
    have hle := hvalid.mp haccepted
    have hparams : checked.params = _ :=
      (congrArg Checked.params hchecked).trans (select_isParam sig args)
    have hlength : (args.take sig.least).length = sig.least := List.length_take_of_le hle
    refine ⟨?_, ?_, fun i hi => ?_⟩
    · rw [hparams, List.length_append, hlength]
      exact Nat.le_add_right _ _
    · rw [hparams, List.length_append, hlength]
      exact length_select_isParam_le sig (Nat.le_refl _) h _
    · have hfirst : i < (args.take sig.least).length := Nat.lt_of_lt_of_eq hi hlength.symm
      have hgiven := List.getElem?_eq_getElem (Nat.lt_of_lt_of_le hi hle)
      refine ⟨args[i], hgiven, ?_⟩
      rw [hparams, List.getElem?_append_left hfirst, List.getElem?_take_of_lt hi, hgiven]
  · intro hrefused
    have hlt : args.length < sig.least := by
      refine Nat.not_le.mp fun hle => ?_
      rw [hvalid.mpr hle] at hrefused
      cases hrefused
    have hroles : sig.rolesOf s args = args.map fun _ => Role.positional := by
      rw [rolesOf_eq, List.drop_eq_nil_of_le (Nat.le_of_lt hlt),
        List.take_of_length_le (Nat.le_of_lt hlt)]
      exact List.append_nil _
    have hsurplus : Role.select Role.isSurplus args (sig.rolesOf s args) = [] := by
      rw [select_isSurplus, List.drop_eq_nil_of_le (Nat.le_of_lt hlt)]
      rfl
    rw [hchecked, hsurplus, tooMany, if_pos rfl, if_pos hlt, hroles, List.filterMap_map]
    simp [Role.problem?]

/-- arguments of all roles behind the name that `define` gives, which is itself a modifier elsewhere -/
theorem check_roles_define :
    let sig := CommandKind.define.signature
    let s := Subject.command "define".toList
    let args : List Text := ["trim".toList, "at(".toList, "a".toList, "unscoped".toList, "b".toList,
      "pure".toList, "trim".toList, "c".toList]
    let roles : List Role := [.positional, .dropped (.malformedModifier "at(".toList s), .further,
      .modifier .unscoped, .surplus, .dropped (.modifierNotAllowed .pure s), .modifier .trim, .surplus]
    sig.least ≤ sig.most ∧ sig.Casting s args roles ∧
      (sig.check s args).params = ["trim".toList, "a".toList] ∧
      (sig.check s args).modifiers = [.unscoped, .trim] ∧
      (sig.check s args).problems = [.malformedModifier "at(".toList s, .modifierNotAllowed .pure s,
        .tooManyParameters s 2 ["b".toList, "c".toList]] := by
  intro sig s args roles
  have hle : sig.least ≤ sig.most := by decide
  have hcasting : sig.Casting s args roles := (casting_iff sig).mpr (by decide)
  obtain ⟨roles', honly, hparams, hmodifiers, hproblems, -⟩ := check_roles sig (s := s) hle args
  obtain rfl := (honly roles).mp hcasting
  exact ⟨hle, hcasting, hparams, hmodifiers, hproblems⟩

/-! ## the modifiers that are left -/

theorem modifier?_laterRole_iff {held : Nat} {a : Text} {m : Modifier} :
    (sig.laterRole s held a).modifier? = some m ↔
      m.keyword ∈ sig.keywords ∧ Modifier.read a = .ok m := by
  cases hr : Modifier.read a with
  | ok n =>
    rw [sig.laterRole_of_read hr, Except.ok.injEq]
    by_cases hk : n.keyword ∈ sig.keywords
    · rw [if_pos hk, Role.modifier?, Option.some.injEq]
      exact ⟨fun h => ⟨h ▸ hk, h⟩, fun h => h.2⟩
    · rw [if_neg hk]
      refine iff_of_false (fun h => by cases h) ?_
      rintro ⟨hm, rfl⟩
      exact hk hm
  | error e =>
    refine iff_of_false (fun h => ?_) fun h => by cases h.2
    rw [laterRole, hr] at h
    cases e with
    | badArgument spec => cases h
    | unknown =>
      dsimp only at h
      split at h
      · cases h
      · cases h

theorem mem_modifiers_sortRest_iff {held : Nat} {as : List Text} {m : Modifier} :
    m ∈ (sig.sortRest s held as).modifiers ↔
      m.keyword ∈ sig.keywords ∧ ∃ a ∈ as, Modifier.read a = .ok m := by
  induction as generalizing held with
  | nil => exact ⟨nofun, fun ⟨_, a, ha, _⟩ => absurd ha List.not_mem_nil⟩
  | cons a as ih =>
    rw [sortRest_cons, Role.modifiers_put, List.mem_append, ih, Option.mem_toList,
      modifier?_laterRole_iff, ← and_or_left]
    simp only [List.mem_cons, exists_eq_or_imp]

/-- the modifiers that are left are those that the arguments behind the first ones spell and that
may stand there -/
theorem mem_modifiers_check_iff {args : List Text} {m : Modifier} :
    m ∈ (sig.check s args).modifiers ↔
      m.keyword ∈ sig.keywords ∧ ∃ a ∈ args.drop sig.least, Modifier.read a = .ok m :=
  mem_modifiers_sortRest_iff sig

theorem mem_modifiers_check_iff_of_bare {args : List Text} {m : Modifier} (h : m ∈ Modifier.bare)
    (hk : m.keyword ∈ sig.keywords) :
    m ∈ (sig.check s args).modifiers ↔ m.keyword ∈ args.drop sig.least := by
  rw [mem_modifiers_check_iff]
  constructor
  · rintro ⟨-, a, ha, hr⟩
    rw [Modifier.read_eq_ok_iff_of_bare h] at hr
    exact hr ▸ ha
  · intro hm
    exact ⟨hk, m.keyword, hm, (Modifier.read_eq_ok_iff_of_bare h).mpr rfl⟩

/-! ## fewer modifiers -/

theorem exists_sortRest_of_sublist {held : Nat} {as : List Text} {ms : List Modifier}
    (h : ms.Sublist (sig.sortRest s held as).modifiers) :
    ∃ as', as'.Sublist as ∧
      sig.sortRest s held as' = { sig.sortRest s held as with modifiers := ms } := by
  induction as generalizing held ms with
  | nil =>
    obtain rfl := List.sublist_nil.mp h
    exact ⟨[], List.Sublist.refl [], rfl⟩
  | cons a as ih =>
    rw [sortRest_cons] at h ⊢
    have hkept {as' : List Text} := sortRest_cons sig (s := s) held a as'
    cases hrole : sig.laterRole s held a with
    | modifier m =>
      rw [hrole] at h hkept
      rcases List.sublist_cons_iff.mp h with hout | ⟨ms', rfl, hin⟩
      · obtain ⟨as', hsub, hsort⟩ := ih hout
        exact ⟨as', hsub.cons a, hsort⟩
      · obtain ⟨as', hsub, hsort⟩ := ih hin
        exact ⟨a :: as', hsub.cons_cons a, hkept.trans (congrArg (Role.put a · _) hsort)⟩
    | _ =>
      rw [hrole] at h hkept
      obtain ⟨as', hsub, hsort⟩ := ih h
      exact ⟨a :: as', hsub.cons_cons a, hkept.trans (congrArg (Role.put a · _) hsort)⟩

/-- some of the accepted modifiers are left out with the arguments that spell them, and nothing else
changes -/
theorem exists_check_of_sublist {args : List Text} {ms : List Modifier}
    (h : ms.Sublist (sig.check s args).modifiers) :
    ∃ args', args'.Sublist args ∧
      sig.check s args' = { sig.check s args with modifiers := ms } := by
  obtain ⟨as', hsub, hsort⟩ := sig.exists_sortRest_of_sublist h
  have hfewer := (List.Sublist.refl (args.take sig.least)).append hsub
  rw [List.take_append_drop] at hfewer
  refine ⟨args.take sig.least ++ as', hfewer, ?_⟩
  have hparts : (args.take sig.least ++ as').take sig.least = args.take sig.least ∧
      (args.take sig.least ++ as').drop sig.least = as' := by
    rcases Nat.le_total sig.least args.length with hle | hle
    · have hlength := List.length_take_of_le hle
      exact ⟨List.take_left' hlength, List.drop_left' hlength⟩
    · rw [List.drop_eq_nil_of_le hle] at hsub
      obtain rfl := List.sublist_nil.mp hsub
      rw [List.append_nil, List.take_take, Nat.min_self]
      exact ⟨rfl, List.drop_eq_nil_of_le (List.length_take_le _ _)⟩
  unfold check
  rw [hparts.1, hparts.2, hsort]

end Signature

/-! ## the arguments of commands -/

namespace CommandKind

variable (kind : CommandKind) (s : Subject) (args : List Text)

theorem isValid_check :
    (kind.signature.check s args).isValid = decide (kind.signature.least ≤ args.length) := by
  rw [Signature.check_eq]

/-- any command works on the scope itself if that is asked for behind its first parameters -/
theorem isUnscoped_check : (kind.signature.check s args).isUnscoped =
    decide ("unscoped".toList ∈ args.drop kind.signature.least) := by
  have hbare : Modifier.unscoped ∈ Modifier.bare := by decide
  have hk : Modifier.unscoped.keyword ∈ kind.signature.keywords := by cases kind <;> decide
  exact decide_eq_decide.mpr (kind.signature.mem_modifiers_check_iff_of_bare hbare hk)

end CommandKind

/-- a command that is given the parameters it needs -/
theorem Setting.command_of_params {σ : Type} (set : Setting σ) {head : Head} {kind : CommandKind}
    (rawBody : Text) (body : Body σ) (scope : Scope) (h : CommandKind.ofName? head.name = some kind)
    (hp : kind.signature.least ≤ head.params.length) :
    set.command head rawBody body scope = (do
      .noteAll (kind.signature.check (.command head.name) head.params).problems
      set.runKind kind (kind.signature.check (.command head.name) head.params) rawBody body
        scope) := by
  refine set.command_of_valid rawBody body scope h ?_
  rw [CommandKind.isValid_check]
  exact decide_eq_true hp

end Stencil
