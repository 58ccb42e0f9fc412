import Stencil.Proofs.Calls.Evaluator

/-!
# Bounds that were met

A template that is inside too many others is refused, and so is a round after too many.  The one
thing that is done then is to note the bound, and no bound is noted by anything else.

* `Problem.isLimit`       whether a problem is that a bound was met;
* `Task.refusal?`         the problem of a task that is refused;
* `Run.WithinLimits x`    the run `x` notes no bound;
* `Signature.isLimit_of_mem_check_problems`, `Template.isLimit_of_mem_problems` and others   what is
                          noted in between is no bound.
-/

namespace Stencil

def Problem.isLimit : Problem → Bool
  | depthExceeded _ => true
  | loopStopped _ _ => true
  | _ => false

def Task.refusal? (o : Options) (f : Frame) {α : Type} : Task α → Option Problem
  | .template _ _ => if o.maxDepth ≤ f.depth then some (.depthExceeded o.maxDepth) else none
  | .round c taken _ =>
    if o.maxRounds ≤ taken then some (.loopStopped c.name o.maxRounds) else none
  | _ => none

/-- a run that notes no bound -/
abbrev Run.WithinLimits {σ α : Type} (x : Run σ α) : Prop := x.Notes fun p => p.isLimit = false

/-! ## what is noted in between -/

namespace Signature

theorem isLimit_of_mem_sortRest_dropped (sig : Signature) (s : Subject) (held : Nat)
    (args : List Text) {p : Problem} (h : p ∈ (sig.sortRest s held args).dropped) :
    p.isLimit = false := by
  induction args generalizing held with
  | nil => exact absurd h List.not_mem_nil
  | cons a args ih =>
    rw [sortRest] at h
    split at h
    · split at h
      · exact ih held h
      · rcases List.mem_cons.mp h with rfl | h
        · rfl
        · exact ih held h
    · rcases List.mem_cons.mp h with rfl | h
      · rfl
      · exact ih held h
    · split at h
      · exact ih (held + 1) h
      · exact ih held h

theorem isLimit_of_mem_check_problems (sig : Signature) (s : Subject) (args : List Text)
    {p : Problem} (h : p ∈ (sig.check s args).problems) : p.isLimit = false := by
  rcases List.mem_append.mp h with h | h
  · rcases List.mem_append.mp h with h | h
    · exact sig.isLimit_of_mem_sortRest_dropped s _ _ h
    · split at h
      · exact absurd h List.not_mem_nil
      · rw [List.mem_singleton.mp h]
        rfl
  · split at h
    · rw [List.mem_singleton.mp h]
      rfl
    · exact absurd h List.not_mem_nil

end Signature

theorem isLimit_of_mem_incrementProblems {t : Text} {p : Problem} (h : p ∈ incrementProblems t) :
    p.isLimit = false := by
  obtain ⟨entry, -, rfl⟩ := List.mem_map.mp h
  rfl

theorem LineShape.isLimit_of_mem_problems {line : Text} {p : Problem}
    (h : p ∈ (LineShape.of line).problems) : p.isLimit = false := by
  unfold LineShape.of at h
  split at h
  · exact absurd h List.not_mem_nil
  · split at h
    · split at h
      · rw [List.mem_singleton.mp h]
        rfl
      · exact absurd h List.not_mem_nil
    · split at h
      · rw [List.mem_singleton.mp h]
        rfl
      · split at h
        · rw [List.mem_singleton.mp h]
          rfl
        · exact absurd h List.not_mem_nil

theorem Template.isLimit_of_mem_problems {source : Text} {p : Problem}
    (h : p ∈ (read source).problems) : p.isLimit = false := by
  rcases List.mem_append.mp h with h | h
  · obtain ⟨line, -, hp⟩ := List.mem_flatMap.mp h
    exact LineShape.isLimit_of_mem_problems hp
  · rcases List.mem_append.mp h with h | h
    · obtain ⟨e, -, rfl⟩ := List.mem_map.mp h
      rfl
    · obtain ⟨name, -, rfl⟩ := List.mem_map.mp h
      rfl

namespace Setting

variable {σ : Type}

theorem lookup_withinLimits (name : Text) (scope : Scope) :
    (lookup name scope : Run σ Value).WithinLimits := by
  unfold lookup
  split
  · exact .pure _
  · exact .after_note rfl (.pure _)

theorem baseValue_withinLimits (name : Text) (type : Option Text) (scope : Scope) :
    (baseValue name type scope : Run σ Value).WithinLimits := by
  have hlookup : (lookup name scope : Run σ Value).WithinLimits := lookup_withinLimits name scope
  unfold baseValue
  split
  · exact hlookup
  · split
    · exact hlookup
    split
    · exact .pure _
    split
    · split
      · exact .pure _
      · exact .after_note rfl (.pure _)
    · exact .after_note rfl hlookup

theorem pickItem_withinLimits (s : Subject) (items : List Value) (expr : Text) (index : Value) :
    (pickItem s items expr index : Run σ Value).WithinLimits := by
  have hout : ∀ rounded : Number, (do
      Run.note (.indexOutOfRange rounded s items.length)
      pure .null : Run σ Value).WithinLimits :=
    fun _ => .after_note rfl (.pure _)
  unfold pickItem
  split
  · exact .after_note rfl (.pure _)
  · rename_i n hn
    -- whether the index had to be rounded is noted or not, and the item is looked up in either case
    show Run.WithinLimits (if _ then _ else _)
    split
    · refine .after_note rfl ?_
      split
      · split
        · exact .pure _
        · exact hout _
      · exact hout _
    · split
      · split
        · exact .pure _
        · exact hout _
      · exact hout _

theorem pickEntry_withinLimits (s : Subject) (entries : Table Value) (index : Value) :
    (pickEntry s entries index : Run σ Value).WithinLimits := by
  unfold pickEntry
  split
  · exact .pure _
  · exact .after_note rfl (.pure _)

theorem leave_withinLimits (s : Subject) (m : Modifier) (v : Value) :
    (leave s m v : Run σ Value).WithinLimits := .after_note rfl (.pure _)

theorem itemsOf_withinLimits (source : Text) (v : Value) :
    (itemsOf source v : Run σ (List Value)).WithinLimits := by
  unfold itemsOf
  split
  · exact .pure _
  · exact .after_note rfl (.pure _)

theorem rearrange_withinLimits (order : Order) (items : List Value) :
    (order.rearrange items : Run σ (List Value)).WithinLimits := by
  cases order with
  | randomized => exact .shuffle _
  | _ => exact .pure _

theorem inOrder_withinLimits (orders : List Order) (items : List Value) :
    (inOrder orders items : Run σ (List Value)).WithinLimits := by
  unfold inOrder
  split
  · exact .pure _
  · rename_i order rest
    have hrearrange : (order.rearrange items : Run σ (List Value)).WithinLimits :=
      rearrange_withinLimits order items
    split
    · exact .after_note rfl hrearrange
    · exact hrearrange

theorem definedValue_withinLimits (trim : Bool) (name kind text : Text) :
    (definedValue trim name kind text : Run σ Value).WithinLimits := by
  unfold definedValue
  split
  · split
    · exact .pure _
    · exact .after_note rfl (.pure _)
  · show Run.WithinLimits (if kind ≠ "string".toList then _ else _)
    split
    · exact .after_note rfl (.pure _)
    · exact .pure _

end Setting

end Stencil
