import Stencil.Text.Basic

/-!
# Tables

A table holds values under texts, in the order of the texts.

* `Table.get? t k`       the value under `k`;
* `Table.insert t k v`   the table with `v` under `k`;
* `Table.erase t k`      the table with nothing under `k`;
* `Table.ofList`         the table of some entries, where a later entry replaces an earlier one;
* `Table.get?_insert`   what is found after an entry is put in.
-/

namespace Stencil

/-- values under texts, in the order of the texts -/
abbrev Table (α : Type) := List (Text × α)

namespace Table

variable {α : Type}

def get? : Table α → Text → Option α
  | [], _ => none
  | (k, v) :: t, x => if k = x then some v else get? t x

def insert : Table α → Text → α → Table α
  | [], x, a => [(x, a)]
  | (k, v) :: t, x, a =>
    if k = x then (x, a) :: t
    else if Text.compare x k = .lt then (x, a) :: (k, v) :: t
    else (k, v) :: insert t x a

def erase : Table α → Text → Table α
  | [], _ => []
  | (k, v) :: t, x => if k = x then erase t x else (k, v) :: erase t x

def has (t : Table α) (x : Text) : Bool := (get? t x).isSome

def ofList (es : List (Text × α)) : Table α := es.foldl (fun t e => insert t e.1 e.2) []

theorem get?_insert (t : Table α) (x y : Text) (a : α) :
    get? (insert t x a) y = if x = y then some a else get? t y := by
  induction t with
  | nil => simp [insert, get?]
  | cons e t ih =>
    obtain ⟨k, v⟩ := e
    simp only [insert]
    split
    · rename_i h
      subst h
      by_cases hy : k = y <;> simp [get?, hy]
    · rename_i h
      split
      · simp [get?]
      · simp only [get?, ih]
        by_cases hk : k = y
        · have hx : ¬x = y := fun e => h (hk.trans e.symm)
          simp [hk, hx]
        · simp [hk]

end Table

end Stencil
