import Stencil.Text.Blank

/-!
# Modifiers

A modifier is written as a keyword, or as a keyword with an argument in parentheses.

* `Format`              how a text is interpreted by `parse(…)` and `load(…)`;
* `Format.ofKeyword?_eq_some_iff`   the words that are read as formats are those that are written;
* `Order`               the orders of an iteration;
* `Modifier`            what can be written behind the parameters of a command or reference;
* `Modifier.keyword`    the word before the parentheses;
* `Modifier.display`    a modifier as text;
* `Modifier.read`       the modifier that a text spells, or why it is none;
* `Modifier.keyword_of_mem_words`   the words that are read as keywords are those that are written.
-/

namespace Stencil

theorem Text.mem_of_lookup {α : Type} {table : List (Text × α)} {t : Text} {a : α}
    (h : table.lookup t = some a) : (t, a) ∈ table := by
  obtain ⟨before, behind, rfl, -⟩ := List.lookup_eq_some_iff.mp h
  exact List.mem_append_right _ List.mem_cons_self

/-! ## formats -/

/-- how a text is interpreted: as a template, as a template whose output is Markdown, as Markdown,
as JSON, or as it is -/
inductive Format
  | template
  | markdownTemplate
  | markdown
  | json
  | text
deriving DecidableEq, Repr

namespace Format

def keyword : Format → Text
  | template => "ib".toList
  | markdownTemplate => "md".toList
  | markdown => "puremd".toList
  | json => "json".toList
  | text => "text".toList

/-- the words that are read as formats -/
def words : List (Text × Format) :=
  [("ib".toList, template), ("md".toList, markdownTemplate), ("puremd".toList, markdown),
    ("json".toList, json), ("text".toList, text)]

/-- the format that a word stands for -/
def ofKeyword? (t : Text) : Option Format := words.lookup t

/-- the words that are read are the words that are written -/
theorem ofKeyword?_eq_some_iff {t : Text} {f : Format} : ofKeyword? t = some f ↔ f.keyword = t := by
  constructor
  · intro h
    have hmem : (t, f) ∈ words := Text.mem_of_lookup h
    simp only [words, List.mem_cons, Prod.mk.injEq, List.not_mem_nil, or_false] at hmem
    rcases hmem with ⟨rfl, rfl⟩ | ⟨rfl, rfl⟩ | ⟨rfl, rfl⟩ | ⟨rfl, rfl⟩ | ⟨rfl, rfl⟩ <;> rfl
  · rintro rfl
    cases f <;> rfl

end Format

/-! ## orders -/

/-- the orders of an iteration -/
inductive Order
  | reversed
  | alphabetical
  | alphareversed
  | increasing
  | decreasing
  | randomized
deriving DecidableEq, Repr

namespace Order

/-- all orders, the first ones going before the others if several are asked for -/
def all : List Order := [reversed, alphabetical, alphareversed, increasing, decreasing, randomized]

def keyword : Order → Text
  | reversed => "reversed".toList
  | alphabetical => "alphabetical".toList
  | alphareversed => "alphareversed".toList
  | increasing => "increasing".toList
  | decreasing => "decreasing".toList
  | randomized => "randomized".toList

end Order

/-! ## modifiers -/

/-- what can be written behind the parameters of a command or a reference -/
inductive Modifier
  | call
  | index (expr : Text)
  | uppercase
  | lowercase
  | capitalize
  | capitalizeFirst
  | trim
  | parse (f : Format)
  | load (f : Format)
  | unscoped
  | pure
  | order (o : Order)
deriving DecidableEq, Repr

/-- why a text is no modifier: its keyword is none, or its argument is missing or wrong -/
inductive Misreading
  | unknown
  | badArgument (spec : Text)
deriving DecidableEq, Repr

namespace Modifier

def keyword : Modifier → Text
  | call => "call".toList
  | index _ => "at".toList
  | uppercase => "uppercase".toList
  | lowercase => "lowercase".toList
  | capitalize => "capitalize".toList
  | capitalizeFirst => "capitalize-first".toList
  | trim => "trim".toList
  | parse _ => "parse".toList
  | load _ => "load".toList
  | unscoped => "unscoped".toList
  | pure => "pure".toList
  | order o => o.keyword

def argument? : Modifier → Option Text
  | index expr => some expr
  | parse f => some f.keyword
  | load f => some f.keyword
  | _ => none

def display (m : Modifier) : Text :=
  match m.argument? with
  | some a => m.keyword ++ '(' :: a ++ [')']
  | none => m.keyword

def bare : List Modifier :=
  [call, uppercase, lowercase, capitalize, capitalizeFirst, trim, unscoped, pure]
    ++ Order.all.map order

theorem argument?_of_mem_bare {m : Modifier} (h : m ∈ bare) : m.argument? = none := by
  revert m
  decide

/-- what follows the keyword of a written modifier -/
inductive Tail
  | none
  | unclosed
  | argument (a : Text)
deriving DecidableEq, Repr

/-- the keyword of a written modifier, and what follows it -/
def split (spec : Text) : Text × Tail :=
  match Text.cutAt '(' spec with
  | Option.none => (spec, .none)
  | some (name, rest) =>
    match Text.dropEnd? ')' rest with
    | Option.none => (name, .unclosed)
    | some a => (name, .argument a)

def withFormat? (make : Format → Modifier) : Tail → Option Modifier
  | .argument a => (Format.ofKeyword? a.trim).map make
  | _ => Option.none

/-- a modifier with an index, which must not be empty -/
def withIndex? : Tail → Option Modifier
  | .argument a => if a.trim = [] then Option.none else some (index a.trim)
  | _ => Option.none

def withNothing? (m : Modifier) (tail : Tail) : Option Modifier :=
  if tail = .none then some m else Option.none

/-- what has to follow a keyword: nothing, an index, or a format -/
inductive Form
  | alone (m : Modifier)
  | index
  | parse
  | load
deriving DecidableEq

def Form.make? : Form → Tail → Option Modifier
  | alone m => withNothing? m
  | index => withIndex?
  | parse => withFormat? .parse
  | load => withFormat? .load

/-- the words that are read as keywords -/
def words : List (Text × Form) :=
  [("call".toList, .alone call),
    ("at".toList, .index),
    ("uppercase".toList, .alone uppercase),
    ("lowercase".toList, .alone lowercase),
    ("capitalize".toList, .alone capitalize),
    ("capitalize-first".toList, .alone capitalizeFirst),
    ("trim".toList, .alone trim),
    ("parse".toList, .parse),
    ("load".toList, .load),
    ("unscoped".toList, .alone unscoped),
    ("pure".toList, .alone pure),
    ("reversed".toList, .alone (order .reversed)),
    ("alphabetical".toList, .alone (order .alphabetical)),
    ("alphareversed".toList, .alone (order .alphareversed)),
    ("increasing".toList, .alone (order .increasing)),
    ("decreasing".toList, .alone (order .decreasing)),
    ("randomized".toList, .alone (order .randomized))]

/-- how the modifier with a keyword is made of what follows the keyword -/
def builder? (name : Text) : Option (Tail → Option Modifier) := (words.lookup name).map Form.make?

def read (spec : Text) : Except Misreading Modifier :=
  match builder? (split spec).1 with
  | Option.none => .error .unknown
  | some make =>
    match make (split spec).2 with
    | some m => .ok m
    | Option.none => .error (.badArgument spec)

/-! ## what was read -/

theorem split_none {spec : Text} (h : (split spec).2 = .none) : (split spec).1 = spec := by
  unfold split at h ⊢
  split at h
  · rfl
  · split at h <;> simp at h

theorem eq_of_split {spec a : Text} (h : (split spec).2 = .argument a) :
    spec = (split spec).1 ++ '(' :: a ++ [')'] := by
  unfold split at h ⊢
  split at h
  · simp at h
  · rename_i name rest hc
    split at h
    · simp at h
    · rename_i a' ha
      simp only [Tail.argument.injEq] at h
      subst h
      rw [Text.eq_of_cutAt hc, Text.eq_of_dropEnd? ha]
      simp

/-- up to its first parenthesis a text is a keyword, and what follows ends with the last one -/
theorem split_argument {name : Text} (h : '(' ∉ name) (a : Text) :
    split (name ++ '(' :: a ++ [')']) = (name, .argument a) := by
  have hcut : Text.cutAt '(' (name ++ '(' :: a ++ [')']) = some (name, a ++ [')']) := by
    rw [List.append_assoc]
    exact Text.cutAt_append h _
  rw [split, hcut]
  simp only [Text.dropEnd?_concat]

/-- a text spells what the builder for its keyword makes of the rest -/
theorem read_eq_ok_iff {spec : Text} {m : Modifier} : read spec = .ok m ↔
    ∃ make, builder? (split spec).1 = some make ∧ make (split spec).2 = some m := by
  unfold read
  cases builder? (split spec).1 with
  | none => simp
  | some make => cases hm : make (split spec).2 <;> simp [hm]

theorem read_eq_unknown_iff {spec : Text} :
    read spec = .error .unknown ↔ builder? (split spec).1 = Option.none := by
  unfold read
  cases builder? (split spec).1 with
  | none => simp
  | some make => cases hm : make (split spec).2 <;> simp [hm]

/-- a text that is refused for what follows its keyword is reported as it is -/
theorem eq_of_read_badArgument {a spec : Text}
    (h : read a = .error (.badArgument spec)) : spec = a := by
  unfold read at h
  split at h
  · cases h
  split at h
  · cases h
  · cases h
    rfl

theorem eq_of_withFormat? {make : Format → Modifier} {tail : Tail} {m : Modifier}
    (h : withFormat? make tail = some m) :
    ∃ a f, tail = .argument a ∧ Format.ofKeyword? a.trim = some f ∧ m = make f := by
  unfold withFormat? at h
  split at h
  · obtain ⟨f, hf, rfl⟩ := Option.map_eq_some_iff.mp h
    exact ⟨_, f, rfl, hf, rfl⟩
  · simp at h

theorem eq_of_withIndex? {tail : Tail} {m : Modifier} (h : withIndex? tail = some m) :
    ∃ a, tail = .argument a ∧ a.trim ≠ [] ∧ m = index a.trim := by
  unfold withIndex? at h
  split at h
  · split at h
    · simp at h
    · rename_i hne
      simp only [Option.some.injEq] at h
      exact ⟨_, rfl, hne, h.symm⟩
  · simp at h

/-- an index that is not empty is displayed as it can be read, if nothing is trimmed from it -/
theorem read_index {expr : Text} (hne : expr ≠ []) (ht : expr.trim = expr) :
    read (index expr).display = .ok (index expr) := by
  have hat : '(' ∉ "at".toList := by decide
  have hsplit : split (index expr).display = ("at".toList, .argument expr) :=
    split_argument hat expr
  rw [read_eq_ok_iff, hsplit]
  refine ⟨withIndex?, rfl, ?_⟩
  show (if expr.trim = [] then Option.none else some (index expr.trim)) = _
  rw [ht, if_neg hne]

theorem eq_of_withNothing? {m m' : Modifier} {tail : Tail} (h : withNothing? m tail = some m') :
    tail = .none ∧ m' = m := by
  unfold withNothing? at h
  split at h
  · rename_i ht
    exact ⟨ht, (Option.some.inj h).symm⟩
  · cases h

/-- the words that are read are the keywords that are written -/
theorem keyword_of_mem_words {p : Text × Form} (h : p ∈ words) :
    p = ((index []).keyword, .index) ∨ p = ((parse .text).keyword, .parse) ∨
      p = ((load .text).keyword, .load) ∨ ∃ m ∈ bare, p = (m.keyword, .alone m) := by
  revert p
  decide

/-- a keyword takes an index, a format, or nothing -/
theorem builder?_cases {name : Text} {make : Tail → Option Modifier}
    (h : builder? name = some make) :
    (name = "at".toList ∧ make = withIndex?) ∨
      (name = "parse".toList ∧ make = withFormat? parse) ∨
      (name = "load".toList ∧ make = withFormat? load) ∨
      ∃ m ∈ bare, m.keyword = name ∧ make = withNothing? m := by
  obtain ⟨form, hform, rfl⟩ := Option.map_eq_some_iff.mp h
  have hmem : (name, form) ∈ words := Text.mem_of_lookup hform
  rcases keyword_of_mem_words hmem with hp | hp | hp | ⟨m, hm, hp⟩ <;> cases hp
  · exact .inl ⟨rfl, rfl⟩
  · exact .inr (.inl ⟨rfl, rfl⟩)
  · exact .inr (.inr (.inl ⟨rfl, rfl⟩))
  · exact .inr (.inr (.inr ⟨m, hm, rfl, rfl⟩))

/-- a text is a modifier in four ways: as a keyword alone, as an index, or with a format -/
theorem read_cases {spec : Text} {m : Modifier} (h : read spec = .ok m) :
    (m ∈ bare ∧ spec = m.keyword) ∨
      (∃ a : Text, spec = "at".toList ++ '(' :: a ++ [')'] ∧ a.trim ≠ [] ∧ m = index a.trim) ∨
      (∃ (a : Text) (f : Format), spec = "parse".toList ++ '(' :: a ++ [')'] ∧
        Format.ofKeyword? a.trim = some f ∧ m = parse f) ∨
      ∃ (a : Text) (f : Format), spec = "load".toList ++ '(' :: a ++ [')'] ∧
        Format.ofKeyword? a.trim = some f ∧ m = load f := by
  obtain ⟨make, hb, hm⟩ := read_eq_ok_iff.mp h
  rcases builder?_cases hb with ⟨hn, rfl⟩ | ⟨hn, rfl⟩ | ⟨hn, rfl⟩ | ⟨b, hmem, hn, rfl⟩
  · obtain ⟨a, ht, hne, hma⟩ := eq_of_withIndex? hm
    exact .inr (.inl ⟨a, hn ▸ eq_of_split ht, hne, hma⟩)
  · obtain ⟨a, f, ht, hf, hmf⟩ := eq_of_withFormat? hm
    exact .inr (.inr (.inl ⟨a, f, hn ▸ eq_of_split ht, hf, hmf⟩))
  · obtain ⟨a, f, ht, hf, hmf⟩ := eq_of_withFormat? hm
    exact .inr (.inr (.inr ⟨a, f, hn ▸ eq_of_split ht, hf, hmf⟩))
  · obtain ⟨ht, rfl⟩ := eq_of_withNothing? hm
    exact .inl ⟨hmem, by rw [hn, split_none ht]⟩

/-! ## the size of an index -/

def size : Modifier → Nat
  | index expr => expr.length + 1
  | _ => 1

theorem one_le_size (m : Modifier) : 1 ≤ m.size := by
  cases m <;> exact Nat.le_add_left 1 _

theorem size_of_mem_bare {m : Modifier} (h : m ∈ bare) : m.size = 1 := by
  have ha := argument?_of_mem_bare h
  cases m with
  | index expr => simp [argument?] at ha
  | _ => rfl

theorem size_of_read {spec : Text} {m : Modifier} (h : read spec = .ok m) :
    m.size ≤ spec.length + 1 := by
  rcases read_cases h with ⟨hm, -⟩ | ⟨a, hs, -, rfl⟩ | ⟨a, f, -, -, rfl⟩ | ⟨a, f, -, -, rfl⟩
  · rw [size_of_mem_bare hm]
    exact Nat.le_add_left 1 _
  · have ht := Text.length_trim_le a
    rw [hs]
    simp only [size, List.length_append, List.length_cons]
    omega
  · exact Nat.le_add_left 1 _
  · exact Nat.le_add_left 1 _

end Modifier

end Stencil
