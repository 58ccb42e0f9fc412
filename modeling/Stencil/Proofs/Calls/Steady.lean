import Stencil.Proofs.Calls.Returns
import Stencil.Proofs.Passive

/-!
# What does not depend on the world

Rendering asks the world for three things: a text that the host fetches, the value of a host
function, and a random order.  If the texts are always the same, no variable holds a host function,
and no row of nodes that comes to be rendered asks for a random order, then the world makes no
difference: calls have the same values, and the same problems are noted.

* `Host.Steady`               what the host fetches does not depend on its state;
* `Run.Steady P x`            in all worlds `x` has one value, with the property `P`, and notes the
                              same problems;
* `Task.Gives`                what is known of the values of a task that finds no host function;
* `Code.Steady P x`           so it is with code, and it hands no host function to its calls;
* `Task.Unshuffled`           a row of nodes that asks for no random order;
* `Code.steady_reference`, `Code.steady_nodes` and others   the code of each task;
* `Code.Returns.steady`       code that returns in one world returns in all worlds alike.
-/

namespace Stencil

def Host.Steady {σ : Type} (host : Host σ) : Prop :=
  ∀ path s s', (host.fetch path s).1 = (host.fetch path s').1

/-! ## runs -/

namespace Run

variable {σ α β : Type} {P : α → Prop} {Q : β → Prop}

def Steady (P : α → Prop) (x : Run σ α) : Prop :=
  ∀ w, P (x w).value ∧ ∀ w', (x w').value = (x w).value ∧ (x w').problems = (x w).problems

theorem Steady.pure {a : α} (h : P a) : Steady P (pure a : Run σ α) :=
  fun _ => ⟨h, fun _ => ⟨rfl, rfl⟩⟩

theorem Steady.bind {x : Run σ α} {f : α → Run σ β} (hx : x.Steady P)
    (hf : ∀ a, P a → (f a).Steady Q) : (x >>= f).Steady Q := by
  intro w
  obtain ⟨hp, hsame⟩ := hx w
  obtain ⟨hq, hnext⟩ := hf _ hp (x w).world
  refine ⟨hq, fun w' => ?_⟩
  obtain ⟨hv, hn⟩ := hsame w'
  obtain ⟨hv', hn'⟩ := hnext (x w').world
  rw [bind_apply, bind_apply, hv, hn, hv', hn']
  exact ⟨rfl, rfl⟩

theorem Steady.noteAll (ps : List Problem) : (noteAll ps : Run σ Unit).Steady fun _ => True :=
  fun _ => ⟨trivial, fun _ => ⟨rfl, rfl⟩⟩

theorem Steady.after_note {p : Problem} {x : Run σ α} (hx : x.Steady P) :
    (note p >>= fun _ => x : Run σ α).Steady P := (Steady.noteAll [p]).bind fun _ _ => hx

end Run

namespace Setting

open Value (Passive)

variable {σ : Type} {scope : Scope}

theorem lookup_steady (hs : scope.Passive) (name : Text) :
    (lookup name scope : Run σ Value).Steady Passive := by
  unfold lookup
  split
  · rename_i v hv
    exact .pure (hs.of_get? hv)
  · exact .after_note (.pure .null)

theorem baseValue_steady (hs : scope.Passive) (name : Text) (type : Option Text) :
    (baseValue name type scope : Run σ Value).Steady Passive := by
  have hlookup : (lookup name scope : Run σ Value).Steady Passive := lookup_steady hs name
  unfold baseValue
  split
  · exact hlookup
  · split
    · exact hlookup
    split
    · exact .pure (.string _)
    split
    · split
      · exact .pure (.number _)
      · exact .after_note (.pure (.number _))
    · exact .after_note hlookup

theorem pickItem_steady {items : List Value} (hitems : ∀ v ∈ items, v.Passive) (s : Subject)
    (expr : Text) (index : Value) :
    (pickItem s items expr index : Run σ Value).Steady Passive := by
  have hout : ∀ rounded : Number, (do
      Run.note (.indexOutOfRange rounded s items.length)
      pure .null : Run σ Value).Steady Passive :=
    fun _ => .after_note (.pure .null)
  unfold pickItem
  split
  · exact .after_note (.pure .null)
  · rename_i n hn
    -- whether the index had to be rounded is noted or not, and the item is looked up in either case
    show Run.Steady _ (if _ then _ else _)
    split
    · refine .after_note ?_
      split
      · split
        · rename_i v hv
          exact .pure (hitems v (List.mem_of_getElem? hv))
        · exact hout _
      · exact hout _
    · split
      · split
        · rename_i v hv
          exact .pure (hitems v (List.mem_of_getElem? hv))
        · exact hout _
      · exact hout _

theorem pickEntry_steady {entries : Table Value} (hentries : Scope.Passive entries) (s : Subject)
    (index : Value) : (pickEntry s entries index : Run σ Value).Steady Passive := by
  unfold pickEntry
  split
  · rename_i v hv
    exact .pure (hentries.of_get? hv)
  · exact .after_note (.pure .null)

theorem leave_steady {v : Value} (hv : v.Passive) (s : Subject) (m : Modifier) :
    (leave s m v : Run σ Value).Steady Passive := .after_note (.pure hv)

theorem itemsOf_steady {v : Value} (hv : v.Passive) (source : Text) :
    (itemsOf source v : Run σ (List Value)).Steady fun items => ∀ w ∈ items, w.Passive := by
  unfold itemsOf
  split
  · cases hv with
    | list h => exact .pure h
  · exact .after_note (.pure fun _ hw => absurd hw List.not_mem_nil)

/-- sorting by keys loses nothing and adds nothing -/
theorem passive_of_sorted {κ : Type} {key : Value → κ} {le : κ × Value → κ × Value → Bool}
    {items : List Value} (hitems : ∀ v ∈ items, v.Passive) :
    ∀ v ∈ ((items.map (Value.withKey key)).mergeSort le).map (·.2), v.Passive := by
  intro v hv
  obtain ⟨e, he, rfl⟩ := List.mem_map.mp hv
  obtain ⟨w, hw, rfl⟩ := List.mem_map.mp (List.mem_mergeSort.mp he)
  exact hitems w hw

theorem rearrange_steady {order : Order} (ho : order ≠ .randomized) {items : List Value}
    (hitems : ∀ v ∈ items, v.Passive) :
    (order.rearrange items : Run σ (List Value)).Steady fun items => ∀ v ∈ items, v.Passive := by
  cases order with
  | reversed => exact .pure fun v hv => hitems v (List.mem_reverse.mp hv)
  | alphabetical => exact .pure (passive_of_sorted hitems)
  | alphareversed => exact .pure fun v hv => passive_of_sorted hitems v (List.mem_reverse.mp hv)
  | increasing => exact .pure (passive_of_sorted hitems)
  | decreasing => exact .pure (passive_of_sorted hitems)
  | randomized => exact absurd rfl ho

theorem inOrder_steady {orders : List Order} (ho : .randomized ∉ orders) {items : List Value}
    (hitems : ∀ v ∈ items, v.Passive) :
    (inOrder orders items : Run σ (List Value)).Steady fun items => ∀ v ∈ items, v.Passive := by
  unfold inOrder
  split
  · exact .pure hitems
  · rename_i order rest
    have hrearrange : (order.rearrange items : Run σ (List Value)).Steady
        fun items => ∀ v ∈ items, v.Passive :=
      rearrange_steady (List.ne_of_not_mem_cons ho).symm hitems
    split
    · exact .after_note hrearrange
    · exact hrearrange

theorem definedValue_steady (trim : Bool) (name kind text : Text) :
    (definedValue trim name kind text : Run σ Value).Steady Passive := by
  unfold definedValue
  split
  · split
    · exact .pure (.number _)
    · exact .after_note (.pure (.number _))
  · show Run.Steady _ (if kind ≠ "string".toList then _ else _)
    split
    · exact .after_note (.pure (.string _))
    · exact .pure (.string _)

end Setting

/-! ## code -/

namespace Task

def scope {α : Type} : Task α → Scope
  | reference _ scope => scope
  | interpret _ _ scope => scope
  | load _ _ scope => scope
  | template _ scope => scope
  | nodes _ scope => scope
  | rounds _ _ scope => scope
  | round _ _ scope => scope

/-- the values of a task that finds no host function -/
def Gives {α : Type} : Task α → α → Prop
  | reference _ _ => Value.Passive
  | interpret _ _ _ => Value.Passive
  | load _ _ _ => Value.Passive
  | template _ _ => fun _ => True
  | nodes _ _ => fun r => Scope.Passive r.2
  | rounds _ _ _ => fun r => Scope.Passive r.2
  | round _ _ _ => fun r => Scope.Passive r.2

end Task

namespace Code

variable {σ α β : Type} {P : α → Prop} {Q : β → Prop}

def Steady (P : α → Prop) : Code σ α → Prop
  | ret a => P a
  | act x next => x.Steady fun b => (next b).Steady P
  | call _ t next => t.scope.Passive ∧ ∀ b, t.Gives b → (next b).Steady P

namespace Steady

theorem pure {a : α} (h : P a) : (pure a : Code σ α).Steady P := h

theorem bind {x : Code σ α} {g : α → Code σ β} (hx : x.Steady P)
    (hg : ∀ a, P a → (g a).Steady Q) : (x >>= g).Steady Q := by
  change (x.bind g).Steady Q
  induction x with
  | ret a => exact hg a hx
  | act x next ih => exact fun w => ⟨ih _ (hx w).1, (hx w).2⟩
  | call s t next ih => exact ⟨hx.1, fun b hb => ih b (hx.2 b hb)⟩

theorem lift {x : Run σ α} (h : x.Steady P) : (lift x).Steady P := h

theorem ask {s : Shift} {t : Task α} (h : t.scope.Passive) : (ask s t : Code σ α).Steady t.Gives :=
  ⟨h, fun _ hb => hb⟩

end Steady

/-! ### references -/

section
variable {scope : Scope} (hs : scope.Passive)
include hs

theorem steady_resolve (text : Text) :
    (resolve text scope : Code σ Value).Steady Value.Passive := by
  unfold resolve
  split
  · split
    · exact .ask hs
    · exact .lift (.after_note (.pure .null))
  · exact .lift (Setting.lookup_steady hs text)

theorem steady_index (expr : Text) : (index expr scope : Code σ Value).Steady Value.Passive := by
  unfold index
  split
  · exact steady_resolve hs _
  · unfold literalIndex
    split
    · exact .pure (.number _)
    · exact .pure (.string _)

theorem steady_applyToText (s : Subject) (m : Modifier) (t : Text) :
    (applyToText s m t scope : Code σ Value).Steady Value.Passive := by
  cases m with
  | parse fmt => exact .ask hs
  | load fmt => exact .ask hs
  | uppercase => exact .pure (.string _)
  | lowercase => exact .pure (.string _)
  | capitalize => exact .pure (.string _)
  | capitalizeFirst => exact .pure (.string _)
  | trim => exact .pure (.string _)
  | _ => exact .lift (Setting.leave_steady (.string t) _ _)

/-- a value that is no host function is not called -/
theorem steady_apply (host : Host σ) (s : Subject) (m : Modifier) {v : Value} (hv : v.Passive) :
    (apply host s m v scope).Steady Value.Passive := by
  unfold apply
  split
  · exact steady_applyToText hs s _ _
  · cases hv with
    | list h => exact (steady_index hs _).bind fun i _ => .lift (Setting.pickItem_steady h _ _ i)
  · cases hv with
    | map h => exact (steady_index hs _).bind fun i _ => .lift (Setting.pickEntry_steady h _ i)
  · cases hv
  · exact .lift (Setting.leave_steady hv _ _)

theorem steady_applyAll (host : Host σ) (s : Subject) (ms : List Modifier) {v : Value}
    (hv : v.Passive) : (applyAll host s ms v scope).Steady Value.Passive := by
  induction ms generalizing v with
  | nil => exact .pure hv
  | cons m ms ih =>
    rw [applyAll]
    split
    · exact .lift (.after_note (.pure hv))
    · exact (steady_apply hs host s m hv).bind fun w hw => ih hw

theorem steady_reference (host : Host σ) (r : Reference) :
    (reference host r scope).Steady Value.Passive := by
  refine Steady.bind (.lift (.noteAll _)) fun _ _ => ?_
  refine Steady.bind (.lift (Setting.baseValue_steady hs _ _)) fun v hv => ?_
  exact steady_applyAll hs host _ _ hv

theorem steady_substitute (line : Text) :
    (substitute line scope : Code σ Text).Steady fun _ => True := by
  unfold substitute
  induction Segment.scan line with
  | nil => exact .pure trivial
  | cons s ss ih =>
    have hsegment : (segment scope s : Code σ Text).Steady fun _ => True := by
      cases s with
      | literal t => exact .pure trivial
      | reference r => exact Steady.bind (.ask hs) fun _ _ => .pure trivial
      | empty => exact .lift (.after_note (.pure trivial))
      | unclosed rest => exact .lift (.after_note (.pure trivial))
    rw [segments]
    exact hsegment.bind fun t _ => ih.bind fun u _ => .pure trivial

/-! ### texts and templates -/

theorem steady_interpret (host : Host σ) (text : Text) (fmt : Format) :
    (interpret host text fmt scope).Steady Value.Passive := by
  have hcall : (ask .here (.template text scope) : Code σ (Option Text)).Steady fun _ => True :=
    .ask hs
  cases fmt with
  | template =>
    refine hcall.bind fun output _ => ?_
    cases output with
    | none => exact .pure .null
    | some t => exact .pure (.string t)
  | markdownTemplate =>
    refine hcall.bind fun output _ => ?_
    cases output with
    | none => exact .pure .null
    | some t => exact .pure (.string _)
  | markdown => exact .pure (.string _)
  | json =>
    rw [interpret]
    cases hread : Value.decode? text with
    | ok v => exact .pure (Value.passive_of_decode? hread)
    | error e => exact .lift (.after_note (.pure .null))
  | text => exact .pure (.string _)

theorem steady_load {host : Host σ} (hhost : host.Steady) (f : Frame) (path : Text)
    (fmt : Format) : (load host f path fmt scope).Steady Value.Passive := by
  unfold load
  split
  · exact .lift (.after_note (.pure .null))
  · have hfetch : (Run.onHost (host.fetch path)).Steady fun _ => True :=
      fun w => ⟨trivial, fun w' => ⟨hhost path w'.host w.host, rfl⟩⟩
    refine Steady.bind (.lift hfetch) fun r _ => ?_
    cases r with
    | error e => exact .lift (.after_note (.pure .null))
    | ok contents => exact .ask hs

theorem steady_template (o : Options) (f : Frame) (source : Text) :
    (template o f source scope : Code σ (Option Text)).Steady fun _ => True := by
  unfold template
  split
  · exact .lift (.after_note (.pure trivial))
  · refine Steady.bind (.lift (.noteAll _)) fun _ _ => ?_
    exact Steady.bind (.ask hs) fun _ _ => .pure trivial

/-! ### counting loops -/

theorem steady_operand (arg : Text) : (operand arg scope : Code σ Value).Steady Value.Passive := by
  unfold operand
  split
  · exact steady_resolve hs _
  · split
    · exact .pure (.number _)
    · exact .lift (.after_note (.pure .null))

theorem steady_startValue (raw : Text) :
    (startValue raw scope : Code σ Value).Steady Value.Passive := by
  unfold startValue
  split
  · exact steady_resolve hs _
  · exact .pure (.string _)

theorem steady_start (entry : Text) : (start entry scope : Code σ Scope).Steady Scope.Passive := by
  unfold start
  split
  · exact .pure (hs.insert _ (.number _))
  · refine (steady_startValue hs _).bind fun v _ => ?_
    split
    · exact .pure (hs.insert _ (.number _))
    · exact .lift (.after_note (.pure (hs.insert _ (.number _))))

omit hs in
theorem steady_startAll (es : List Text) {scope : Scope} (hs : scope.Passive) :
    (startAll es scope : Code σ Scope).Steady Scope.Passive := by
  induction es generalizing scope with
  | nil => exact .pure hs
  | cons e es ih =>
    rw [startAll]
    exact (steady_start hs e).bind fun started hstarted => ih hstarted

theorem steady_increment (i : Increment) :
    (increment i scope : Code σ Scope).Steady Scope.Passive := by
  refine (steady_operand hs _).bind fun v _ => ?_
  split
  · exact .lift (.after_note (.pure hs))
  · split
    · exact .pure (hs.insert _ (.number _))
    · exact .lift (.after_note (.pure hs))

omit hs in
theorem steady_incrementAll (is : List Increment) {scope : Scope} (hs : scope.Passive) :
    (incrementAll is scope : Code σ Scope).Steady Scope.Passive := by
  induction is generalizing scope with
  | nil => exact .pure hs
  | cons i is ih =>
    rw [incrementAll]
    exact (steady_increment hs i).bind fun after hafter => ih hafter

theorem steady_rounds (c : Counting) (taken : Nat) :
    (rounds c taken scope : Code σ (List Text × Scope)).Steady fun r => Scope.Passive r.2 := by
  refine Steady.bind (.lift (Setting.lookup_steady hs _)) fun l _ => ?_
  refine (steady_operand hs _).bind fun r _ => ?_
  split
  · exact .ask hs
  · exact .pure hs

theorem steady_round (o : Options) (c : Counting) (taken : Nat) :
    (round o c taken scope : Code σ (List Text × Scope)).Steady fun r => Scope.Passive r.2 := by
  unfold round
  split
  · exact .lift (.after_note (.pure hs))
  · refine Steady.bind (.ask hs) fun r hr => ?_
    refine (steady_incrementAll c.increments hr).bind fun after hafter => ?_
    exact Steady.bind (.ask hafter) fun rest hrest => .pure hrest

/-! ### commands -/

theorem steady_inScope (unscoped : Bool) {g : Scope → Code σ (α × Scope)}
    (hg : (g scope).Steady fun r => Scope.Passive r.2) :
    (inScope unscoped scope g).Steady fun r => Scope.Passive r.2 := by
  refine hg.bind fun r hr => ?_
  cases unscoped with
  | false => exact .pure hs
  | true => exact .pure hr

theorem steady_body (ns : List Node) :
    (body ns scope : Code σ (List Text × Scope)).Steady fun r => Scope.Passive r.2 := .ask hs

theorem steady_cond (unscoped : Bool) (condition : Text) (ns : List Node) :
    (cond unscoped condition ns scope : Code σ Outcome).Steady fun o => o.bound.Passive := by
  refine (steady_resolve hs _).bind fun v _ => ?_
  split
  · exact (steady_inScope hs unscoped (steady_body hs ns)).bind fun r hr => .pure hr
  · exact .pure hs

theorem steady_count (unscoped : Bool) (init name op bound step : Text) (ns : List Node) :
    (count unscoped init name op bound step ns scope : Code σ Outcome).Steady
      fun o => o.bound.Passive := by
  unfold count
  split
  · exact .lift (.after_note (.pure hs))
  · refine Steady.bind (.lift (.noteAll _)) fun _ _ => ?_
    refine (steady_inScope hs unscoped ?_).bind fun r hr => .pure hr
    exact (steady_startAll _ hs).bind fun started hstarted => .ask hstarted

omit hs in
theorem steady_eachRound (name : Text) (ns : List Node) {vs : List Value}
    (hvs : ∀ v ∈ vs, v.Passive) {scope : Scope} (hs : scope.Passive) :
    (eachRound name ns vs scope : Code σ (List Text × Scope)).Steady
      fun r => Scope.Passive r.2 := by
  induction vs generalizing scope with
  | nil => exact .pure hs
  | cons v vs ih =>
    obtain ⟨hv, hrest⟩ := List.forall_mem_cons.mp hvs
    rw [eachRound]
    refine Steady.bind (.ask (hs.insert name hv)) fun r hr => ?_
    exact (ih hrest hr).bind fun rest hrest => .pure hrest

theorem steady_each (unscoped : Bool) {orders : List Order} (ho : .randomized ∉ orders)
    (name source : Text) (ns : List Node) :
    (each unscoped orders name source ns scope : Code σ Outcome).Steady
      fun o => o.bound.Passive := by
  refine (steady_resolve hs _).bind fun v hv => ?_
  refine Steady.bind (.lift (Setting.itemsOf_steady hv _)) fun items hitems => ?_
  refine Steady.bind (.lift (Setting.inOrder_steady ho hitems)) fun ordered hordered => ?_
  exact (steady_inScope hs unscoped (steady_eachRound name ns hordered hs)).bind
    fun r hr => .pure hr

theorem steady_define (unscoped trim : Bool) (nameText : Text) (kind : Option Text)
    (ns : List Node) : (define unscoped trim nameText kind ns scope : Code σ Outcome).Steady
      fun o => o.bound.Passive := by
  refine (steady_substitute hs _).bind fun t _ => ?_
  split
  · exact .lift (.after_note (.pure hs))
  · refine (steady_inScope hs unscoped (steady_body hs ns)).bind fun r hr => ?_
    refine Steady.bind (.lift (Setting.definedValue_steady _ _ _ _)) fun v hv => ?_
    exact .pure (hr.insert _ hv)

theorem steady_md (host : Host σ) (unscoped verbatim : Bool) (rawBody : Text) (ns : List Node) :
    (md host unscoped verbatim rawBody ns scope).Steady fun o => o.bound.Passive := by
  unfold md
  split
  · exact .pure hs
  · exact (steady_inScope hs unscoped (steady_body hs ns)).bind fun r hr => .pure hr

end

/-! ### rows of nodes -/

/-- a word that stands behind no command of a row is not among the orders that a command asks for -/
theorem notMem_requested {sig : Signature} {s : Subject} {args : List Text} {order : Order}
    (h : order.keyword ∉ args) : order ∉ Order.requested (sig.check s args).modifiers := by
  intro hmem
  have hmodifier : .order order ∈ (sig.check s args).modifiers :=
    of_decide_eq_true (List.mem_filter.mp hmem).2
  obtain ⟨spec, hspec, hread⟩ := sig.read_of_mem_check_modifiers s args hmodifier
  rcases Modifier.read_cases hread with ⟨-, rfl⟩ | ⟨_, -, -, hm⟩ | ⟨_, _, -, -, hm⟩ |
    ⟨_, _, -, -, hm⟩
  · exact h hspec
  · cases hm
  · cases hm
  · cases hm

end Code

/-- no command of a row asks for a random order -/
def Node.Unshuffled (ns : List Node) : Prop :=
  ∀ head rawBody body, .command head rawBody body ∈ ns → Order.randomized.keyword ∉ head.params

def Task.Unshuffled {α : Type} : Task α → Prop
  | .nodes ns _ => Node.Unshuffled ns
  | _ => True

namespace Code

variable {σ : Type} {scope : Scope} (hs : scope.Passive)

section
include hs

theorem steady_command (host : Host σ) {head : Head} (h : Order.randomized.keyword ∉ head.params)
    (rawBody : Text) (ns : List Node) :
    (command host head rawBody ns scope).Steady fun o => o.bound.Passive := by
  unfold command
  split
  · exact .lift (.after_note (.pure hs))
  · rename_i k hk
    refine Steady.bind (.lift (.noteAll _)) fun _ _ => ?_
    split
    · unfold kind
      split
      · exact steady_cond hs _ _ ns
      · exact steady_count hs _ _ _ _ _ _ ns
      · exact steady_each hs _ (notMem_requested h) _ _ ns
      · exact steady_define hs _ _ _ _ ns
      · exact steady_md hs host _ _ rawBody ns
      · exact .pure hs
    · exact .pure hs

end

theorem steady_nodes (host : Host σ) {ns : List Node} (hns : Node.Unshuffled ns) {scope : Scope}
    (hs : scope.Passive) : (nodes host ns scope).Steady fun r => Scope.Passive r.2 := by
  induction ns generalizing scope with
  | nil => exact .pure hs
  | cons n ns ih =>
    have hnode : (node host n scope).Steady fun o => o.bound.Passive := by
      cases n with
      | text line => exact (steady_substitute hs line).bind fun t _ => .pure hs
      | command head rawBody body =>
        exact steady_command hs host (hns head rawBody body List.mem_cons_self) rawBody body
    have hrow : Node.Unshuffled ns :=
      fun head rawBody body h => hns head rawBody body (List.mem_cons_of_mem _ h)
    rw [nodes]
    exact hnode.bind fun o ho => (ih hrow ho).bind fun rest hrest => .pure hrest

end Code

/-- **the world makes no difference to the code of a task** that finds no host function and is no
row of nodes that asks for a random order -/
theorem Task.steady_code {σ α : Type} (o : Options) {host : Host σ} (hhost : host.Steady)
    (f : Frame) (t : Task α) (ht : t.Unshuffled) (hs : t.scope.Passive) :
    (t.code o host f).Steady t.Gives := by
  cases t with
  | reference r scope => exact Code.steady_reference hs host r
  | interpret text fmt scope => exact Code.steady_interpret hs host text fmt
  | load path fmt scope => exact Code.steady_load hs hhost f path fmt
  | template source scope => exact Code.steady_template hs o f source
  | nodes ns scope => exact Code.steady_nodes host ht hs
  | rounds c taken scope => exact Code.steady_rounds hs c taken
  | round c taken scope => exact Code.steady_round hs o c taken

/-! ## runs of code -/

section
variable {σ : Type} {o : Options} {host : Host σ} {ok : Call → Call → Prop}
  (hhost : host.Steady) (hok : ∀ d d', ok d d' → d'.task.Unshuffled)
include hhost hok

/-- steady code that returns in a world returns in every world, with the same value and the same
problems -/
theorem Code.Returns.steady {α : Type} {c : Call} {x : Code σ α} {P : α → Prop} {w : World σ}
    {r : Result σ α} (h : x.Returns o host ok c w r) (hx : x.Steady P) (w' : World σ) :
    P r.value ∧ ∃ after, x.Returns o host ok c w' ⟨r.value, r.problems, after⟩ := by
  induction h generalizing w' with
  | ret => exact ⟨hx, w', .ret⟩
  | @act c α β y next w r h ih =>
    obtain ⟨hnext, hsame⟩ := hx w
    obtain ⟨hvalue, hproblems⟩ := hsame w'
    obtain ⟨hp, after, hr⟩ := ih hnext (y w').world
    refine ⟨hp, after, ?_⟩
    rw [← hvalue] at hr
    rw [← hproblems]
    exact .act hr
  | @call c α β s t next w r q hc hr hq ihr ihq =>
    obtain ⟨hs, hnext⟩ := hx
    have hcode : (t.code o host (c.frame.shift s)).Steady t.Gives :=
      t.steady_code o hhost _ (hok _ _ hc) hs
    obtain ⟨hgives, middle, hr'⟩ := ihr hcode w'
    obtain ⟨hp, after, hq'⟩ := ihq (hnext _ hgives) middle
    exact ⟨hp, after, .call hc hr' hq'⟩

/-- **A call that finds no host function**, and that on its way renders no row of nodes asking for a
random order, has the same value and notes the same problems in all worlds -/
theorem Call.eval_steady {c : Call} (hc : c.task.Unshuffled) (hs : c.task.scope.Passive)
    {w : World σ} {r : Result σ c.α} (h : c.Returns o host ok w r) (w' : World σ) :
    (c.eval o host w').value = (c.eval o host w).value ∧
      (c.eval o host w').problems = (c.eval o host w).problems := by
  have hcode : (c.code o host).Steady c.task.Gives := c.task.steady_code o hhost c.frame hc hs
  obtain ⟨-, after, hr⟩ := Code.Returns.steady hhost hok h hcode w'
  rw [← Call.Returns.eq h, ← Call.Returns.eq hr]
  exact ⟨rfl, rfl⟩

end

end Stencil
