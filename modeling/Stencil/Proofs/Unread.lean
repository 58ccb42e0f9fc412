import Stencil.Proofs.Hereditary

/-!
# Names that a text cannot read

A text in which a name does not stand comes to read the variable of that name neither by escapes nor
by any way of cutting it.  It could still be handed the name inside a value, if it had `parse(…)` or
`load(…)` make a template of it.

* `Text.Unread x t`         the name `x` does not stand in `t`, nor do `parse(` and `load(`;
* `Modifier.Unread x m`     the same of the index of a modifier, which is neither of the two;
* `Reference.Unread x r`    the same of the name and the specifiers of a reference;
* `Text.Unread.mono`        what stands in a text reads no more than the text;
* `Text.Unread.unescape`    nor does the text with its escapes resolved.
-/

namespace Stencil

/-- a name without `#` and `\` that does not stand in a text, which does not interpret other texts
either -/
structure Text.Unread (x t : Text) : Prop where
  hash : '#' ∉ x
  backslash : '\\' ∉ x
  name : ¬x <:+: t
  parse : ¬"parse(".toList <:+: t
  load : ¬"load(".toList <:+: t

namespace Text.Unread

variable {x t : Text}

theorem mono (h : x.Unread t) {s : Text} (hs : s <:+: t) : x.Unread s where
  hash := h.hash
  backslash := h.backslash
  name := fun hx => h.name (hx.trans hs)
  parse := fun hp => h.parse (hp.trans hs)
  load := fun hl => h.load (hl.trans hs)

theorem ne (h : x.Unread t) : t ≠ x := by
  rintro rfl
  exact h.name List.infix_rfl

theorem unescape (h : x.Unread t) : x.Unread (unescape t) where
  hash := h.hash
  backslash := h.backslash
  name := fun hx => h.name (infix_of_infix_unescape h.hash h.backslash hx)
  parse := fun hp => h.parse (infix_of_infix_unescape (by decide) (by decide) hp)
  load := fun hl => h.load (infix_of_infix_unescape (by decide) (by decide) hl)

theorem hereditary : Hereditary x.Unread := ⟨fun h hs => h.mono hs, unescape⟩

theorem trim (h : x.Unread t) : x.Unread t.trim := hereditary.trim h

end Text.Unread

/-! ## modifiers -/

namespace Modifier

/-- a modifier whose index does not read a name, and which interprets no text -/
def Unread (x : Text) : Modifier → Prop
  | index expr => x.Unread expr
  | parse _ => False
  | load _ => False
  | _ => True

theorem unread_of_mem_bare {x : Text} {m : Modifier} (h : m ∈ bare) : m.Unread x := by
  have ha := argument?_of_mem_bare h
  cases m with
  | index expr => simp [argument?] at ha
  | parse f => simp [argument?] at ha
  | load f => simp [argument?] at ha
  | _ => trivial

theorem unread_of_read {x spec : Text} {m : Modifier} (h : x.Unread spec)
    (hr : read spec = .ok m) : m.Unread x := by
  rcases read_cases hr with ⟨hm, -⟩ | ⟨a, rfl, -, rfl⟩ | ⟨a, f, rfl, -, -⟩ | ⟨a, f, rfl, -, -⟩
  · exact unread_of_mem_bare hm
  · exact Text.Unread.hereditary.of_read_index h hr
  · exact absurd ⟨[], a ++ [')'], by simp⟩ h.parse
  · exact absurd ⟨[], a ++ [')'], by simp⟩ h.load

end Modifier

theorem Signature.unread_check (sig : Signature) (s : Subject) {x : Text} {args : List Text}
    (h : ∀ a ∈ args, x.Unread a) :
    (∀ p ∈ (sig.check s args).params, x.Unread p) ∧
      ∀ m ∈ (sig.check s args).modifiers, m.Unread x := by
  refine ⟨fun p hp => h p (sig.mem_of_mem_check_params s args hp), fun m hm => ?_⟩
  obtain ⟨a, ha, hr⟩ := sig.read_of_mem_check_modifiers s args hm
  exact Modifier.unread_of_read (h a ha) hr

/-! ## references -/

namespace Reference

/-- a reference neither the name nor a specifier of which reads a name -/
def Unread (x : Text) (r : Reference) : Prop :=
  x.Unread r.name ∧ ∀ s ∈ r.specifiers, x.Unread s

theorem unread_of_read? {x t : Text} {r : Reference} (h : x.Unread t) (hr : read? t = some r) :
    r.Unread x := Text.Unread.hereditary.of_read? h hr

end Reference

theorem Segment.unread_of_mem_scan {x line : Text} (h : x.Unread line) {r : Reference}
    (hr : .reference r ∈ scan line) : r.Unread x := Text.Unread.hereditary.of_mem_scan h hr

/-! ## the parts of a loop -/

theorem unread_of_mem_entriesOf {x t e : Text} (h : x.Unread t) (he : e ∈ entriesOf t) :
    x.Unread e := Text.Unread.hereditary.of_mem_entriesOf h he

theorem unread_of_mem_incrementsOf {x t : Text} {i : Increment} (h : x.Unread t)
    (hi : i ∈ incrementsOf t) : x.Unread i.name ∧ x.Unread i.delta :=
  Text.Unread.hereditary.of_mem_incrementsOf h hi

end Stencil
