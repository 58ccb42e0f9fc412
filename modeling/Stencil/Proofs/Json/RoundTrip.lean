import Stencil.Proofs.Json.Steps
import Stencil.Proofs.Tables
import Stencil.Scope

/-!
# Values read back

A value without callables, the numbers of which are whole and not too large, is read back from its
JSON form, if it does not nest too deep.  Negative zero is read back as zero, which is equal to it.

* `Value.isData`              a value that JSON can hold;
* `Value.levels`              how many lists and maps are inside each other in it;
* `Value.reread`              what it is read back as;
* `Json.run_toJson`           the JSON form of a value is read, whatever is open around it;
* `Value.eq_reread`           what is read back is equal to the value;
* `Value.decode_display`      a map is decoded from the text that stands for it.
-/

namespace Stencil

/-! ## values that JSON can hold -/

namespace Value

mutual

/-- whether JSON can hold a value: no callables, numbers that are whole and not too large, and maps
with their keys in order, as they are in every table (`isData_map_ofList`) -/
def isData : Value → Bool
  | null => true
  | bool _ => true
  | number n => n.isShortWhole
  | string _ => true
  | list items => itemsAreData items
  | map entries => entriesAreData entries && decide (Table.Ascending entries)
  | callable _ => false

def itemsAreData : List Value → Bool
  | [] => true
  | v :: vs => isData v && itemsAreData vs

def entriesAreData : List (Text × Value) → Bool
  | [] => true
  | (_, v) :: es => isData v && entriesAreData es

end

mutual

/-- how many lists and maps are inside each other in a value -/
def levels : Value → Nat
  | list items => itemsLevels items + 1
  | map entries => entriesLevels entries + 1
  | _ => 0

def itemsLevels : List Value → Nat
  | [] => 0
  | v :: vs => max (levels v) (itemsLevels vs)

def entriesLevels : List (Text × Value) → Nat
  | [] => 0
  | (_, v) :: es => max (levels v) (entriesLevels es)

end

mutual

/-- what a value is read back as: its zeros have no sign -/
def reread : Value → Value
  | number n => number n.unsignZero
  | list items => list (rereadItems items)
  | map entries => map (rereadEntries entries)
  | v => v

def rereadItems : List Value → List Value
  | [] => []
  | v :: vs => reread v :: rereadItems vs

def rereadEntries : List (Text × Value) → List (Text × Value)
  | [] => []
  | (k, v) :: es => (k, reread v) :: rereadEntries es

end

end Value

namespace Json

theorem opens_toJson {v : Value} (h : v.isData = true) (t : Text) : Opens (v.toJson ++ t) := by
  cases v with
  | null => exact ⟨'n', "ull".toList ++ t, rfl, rfl, by decide⟩
  | bool b =>
    cases b with
    | false => exact ⟨'f', "alse".toList ++ t, rfl, rfl, by decide⟩
    | true => exact ⟨'t', "rue".toList ++ t, rfl, rfl, by decide⟩
  | number n =>
    obtain ⟨k, hk, hq⟩ := Number.exists_of_isShortWhole (h : n.isShortWhole = true)
    have hwritten := number_eq hk hq
    obtain ⟨c, r, hr, hc⟩ := exists_start_intDigits k t
    refine ⟨c, r, ?_, isFiller_of_number hc, ?_⟩
    · show number n ++ t = c :: r
      rw [hwritten, hr]
    · rintro rfl
      revert hc
      decide
  | string s => exact ⟨'\"', _, rfl, rfl, by decide⟩
  | list items => exact ⟨'[', _, rfl, rfl, by decide⟩
  | map entries => exact ⟨'\x7b', _, rfl, rfl, by decide⟩
  | callable f => cases h

open Value

theorem toJson_list_cons (v : Value) (vs : List Value) (t : Text) :
    (Value.list (v :: vs)).toJson ++ t =
      '[' :: (v.toJson ++ (commas (itemsToJson vs) ++ ']' :: t)) := by
  rw [toJson, itemsToJson, join_cons]
  simp only [List.cons_append, List.append_assoc, List.nil_append]

theorem toJson_map_cons (k : Text) (v : Value) (es : List (Text × Value)) (t : Text) :
    (Value.map ((k, v) :: es)).toJson ++ t =
      '\x7b' :: (quote k ++ ':' :: (v.toJson ++ (commas (entriesToJson es) ++ '\x7d' :: t))) := by
  rw [toJson, entriesToJson, join_cons]
  simp only [List.cons_append, List.append_assoc, List.nil_append]

mutual

/-- **The JSON form of a value is read**, whatever is open around it, to what the value is read back
as; what stands behind it must not go on with a number -/
theorem run_toJson (v : Value) (hv : v.isData = true) (stack : List Frame)
    (hl : v.levels + stack.length < depthBound) {t : Text} (ht : NumberEnds t) :
    run .expect stack (v.toJson ++ t) = run (.close v.reread) stack t := by
  match v with
  | .null => exact run_null stack t
  | .bool b => exact run_bool b stack t
  | .number n => exact run_number hv stack ht
  | .string s => exact run_quote s stack t
  | .list [] =>
    have hdepth : stack.length + 1 < depthBound := by
      rw [levels] at hl
      omega
    exact run_emptyList hdepth
  | .list (v :: vs) =>
    rw [isData, itemsAreData, Bool.and_eq_true] at hv
    rw [levels, itemsLevels] at hl
    have hinner : v.levels + (Frame.items [] :: stack).length < depthBound := by
      rw [List.length_cons]
      omega
    rw [toJson_list_cons, run_openList (by omega) (opens_toJson hv.1 _),
      run_toJson v hv.1 _ hinner (numberEnds_commas _ numberEnds_bracket t),
      run_items vs hv.2 v.reread [] stack (by omega) t]
    rfl
  | .map [] =>
    have hdepth : stack.length + 1 < depthBound := by
      rw [levels] at hl
      omega
    exact run_emptyMap hdepth
  | .map ((k, v) :: es) =>
    rw [isData, entriesAreData, Bool.and_eq_true, Bool.and_eq_true, decide_eq_true_eq] at hv
    rw [levels, entriesLevels] at hl
    have hinner : v.levels + (Frame.entries [] k :: stack).length < depthBound := by
      rw [List.length_cons]
      omega
    rw [toJson_map_cons, run_openMap (by omega) k,
      run_toJson v hv.1.1 _ hinner (numberEnds_commas _ numberEnds_brace t),
      run_entries es hv.1.2 v.reread [] k stack (by omega) hv.2 t]
    rfl

theorem run_items (vs : List Value) (hvs : itemsAreData vs = true) (w : Value) (done : List Value)
    (stack : List Frame) (hl : itemsLevels vs + stack.length + 1 < depthBound) (t : Text) :
    run (.close w) (.items done :: stack) (commas (itemsToJson vs) ++ ']' :: t) =
      run (.close (.list (done.reverse ++ w :: rereadItems vs))) stack t := by
  match vs with
  | [] =>
    rw [itemsToJson, rereadItems, ← List.reverse_cons]
    exact run_closeList w done
  | v :: vs =>
    rw [itemsAreData, Bool.and_eq_true] at hvs
    rw [itemsLevels] at hl
    have hinner : v.levels + (Frame.items (w :: done) :: stack).length < depthBound := by
      rw [List.length_cons]
      omega
    rw [itemsToJson, commas_cons, run_nextItem w done (opens_toJson hvs.1 _),
      run_toJson v hvs.1 _ hinner (numberEnds_commas _ numberEnds_bracket t),
      run_items vs hvs.2 v.reread (w :: done) stack (by omega) t, List.reverse_cons,
      List.append_assoc]
    rfl

/-- the entries behind the first one; their keys come after all keys in front of them -/
theorem run_entries (es : List (Text × Value)) (hes : entriesAreData es = true) (w : Value)
    (done : Table Value) (key : Text) (stack : List Frame)
    (hl : entriesLevels es + stack.length + 1 < depthBound)
    (ho : Table.Ascending (done ++ (key, w) :: es)) (t : Text) :
    run (.close w) (.entries done key :: stack) (commas (entriesToJson es) ++ '\x7d' :: t) =
      run (.close (.map (done ++ (key, w) :: rereadEntries es))) stack t := by
  have hlast := Table.insert_last (Table.lt_of_ascending_append ho) w
  match es with
  | [] =>
    rw [entriesToJson, rereadEntries, ← hlast]
    exact run_closeMap w done key
  | (k, v) :: es =>
    rw [entriesAreData, Bool.and_eq_true] at hes
    rw [entriesLevels] at hl
    have hinner : v.levels + (Frame.entries (done.insert key w) k :: stack).length < depthBound := by
      rw [List.length_cons]
      omega
    have hnext : Table.Ascending (done.insert key w ++ (k, v.reread) :: es) := by
      rw [hlast, List.append_assoc]
      unfold Table.Ascending at ho ⊢
      rw [List.map_append] at ho ⊢
      exact ho
    rw [entriesToJson, commas_cons, List.append_assoc, List.cons_append, run_nextEntry w done key k,
      run_toJson v hes.1 _ hinner (numberEnds_commas _ numberEnds_brace t),
      run_entries es hes.2 v.reread (done.insert key w) k stack (by omega) hnext t, hlast,
      List.append_assoc]
    rfl

end

end Json

/-! ## equality -/

namespace Number

theorem eq_of_toRat? {m n : Number} {q : Rat} (hm : m.toRat? = some q) (hn : n.toRat? = some q) :
    m.eq n = true := by
  have hfinite {l : Number} (h : l.toRat? = some q) :
      l.isNaN = false ∧ l.level = 0 ∧ l.finitePart = q := by
    refine ⟨?_, ?_, congrArg (Option.getD · 0) h⟩
    · cases l with
      | nan s => cases h
      | _ => rfl
    · cases l with
      | nan s => cases h
      | infinity s => cases h
      | _ => rfl
  obtain ⟨hm1, hm2, hm3⟩ := hfinite hm
  obtain ⟨hn1, hn2, hn3⟩ := hfinite hn
  have hirrefl : ¬q < q := Rat.lt_irrefl
  rw [eq, compare?, hm1, hn1, hm2, hn2, hm3, hn3]
  simp only [Bool.or_self, Bool.false_eq_true, if_false, Int.lt_irrefl, hirrefl, decide_true]

end Number

namespace Value

mutual

/-- a value is equal to what it is read back as -/
theorem eq_reread (v : Value) (h : v.isData = true) : v.reread.eq v = true := by
  match v with
  | .null => rfl
  | .bool b => exact beq_self_eq_true b
  | .number n =>
    obtain ⟨k, -, hq⟩ := Number.exists_of_isShortWhole (h : n.isShortWhole = true)
    exact Number.eq_of_toRat? ((Number.toRat?_unsignZero n).trans hq) hq
  | .string s => exact beq_self_eq_true s
  | .list items => exact eqItems_reread items h
  | .map entries =>
    rw [isData, Bool.and_eq_true] at h
    exact eqEntries_reread entries h.1

theorem eqItems_reread (vs : List Value) (h : itemsAreData vs = true) :
    eqItems (rereadItems vs) vs = true := by
  match vs with
  | [] => rfl
  | v :: vs =>
    rw [itemsAreData, Bool.and_eq_true] at h
    rw [rereadItems, eqItems, eq_reread v h.1, eqItems_reread vs h.2]
    rfl

theorem eqEntries_reread (es : List (Text × Value)) (h : entriesAreData es = true) :
    eqEntries (rereadEntries es) es = true := by
  match es with
  | [] => rfl
  | (k, v) :: es =>
    rw [entriesAreData, Bool.and_eq_true] at h
    rw [rereadEntries, eqEntries, eq_reread v h.1, eqEntries_reread es h.2, beq_self_eq_true]
    rfl

end

/-- **A map is decoded from the text that stands for it in output**: decoding succeeds, and gives a
value that is equal to the map, if the map holds no callables, all its numbers are whole and below
the bound, and at most 127 lists and maps are inside each other, itself included. -/
theorem decode_display (entries : List (Text × Value)) (h : (map entries).isData = true)
    (hl : (map entries).levels ≤ 127) :
    ∃ v, decode? (map entries).display = .ok v ∧ v.eq (map entries) = true := by
  have hdepth : (map entries).levels + ([] : List Json.Frame).length < Json.depthBound :=
    Nat.lt_succ_of_le hl
  have hrun := Json.run_toJson (map entries) h [] hdepth Json.numberEnds_nil
  rw [List.append_nil, Json.run_done] at hrun
  have hdisplay : (map entries).display = (map entries).toJson := rfl
  have hread : ofJson? (map entries).display = .ok (map entries).reread := by
    rw [hdisplay]
    unfold ofJson?
    rw [hrun]
  refine ⟨(map entries).reread, ?_, eq_reread _ h⟩
  rw [decode?, hread]

theorem isData_map_ofList (es : List (Text × Value)) :
    (map (Table.ofList es)).isData = entriesAreData (Table.ofList es) := by
  rw [isData, decide_eq_true (Table.ascending_ofList es), Bool.and_true]

/-- a map with a negative zero, an empty map, a control character, and a key in need of escapes -/
def nestedMap : List (Text × Value) := Table.ofList
  [("k".toList, number (.ofInt (-8999999999999999))),
    ("\"\\\n".toList, list [number .negZero, map [], string ['\x01', 'é'], null])]

theorem decode_display_nestedMap :
    (map nestedMap).isData = true ∧ (map nestedMap).levels = 3 ∧
      (map nestedMap).display =
        "\x7b\"\\\"\\\\\\n\":[0,\x7b\x7d,\"\\u0001é\",null],\"k\":-8999999999999999\x7d".toList ∧
      ∃ v, decode? (map nestedMap).display = .ok v ∧ v.eq (map nestedMap) = true := by
  have hdata : (map nestedMap).isData = true := by
    rw [nestedMap, isData_map_ofList]
    decide +kernel
  have hlevels : (map nestedMap).levels = 3 := by decide +kernel
  refine ⟨hdata, hlevels, by decide +kernel, decode_display nestedMap hdata ?_⟩
  rw [hlevels]
  decide

end Value

end Stencil
