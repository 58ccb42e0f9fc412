import Stencil.Text.Blank
import Stencil.Text.CaseTable

/-!
# Letter case of texts

* `Text.upperOf`, `Text.lowerOf`   the upper and lower case of one character, which may be several;
* `Text.toUpper`                   the upper case of a text;
* `Text.toLower`                   the lower case of a text; a capital sigma that ends a word
                                   becomes `ς`, any other becomes `σ`;
* `Text.capitalizeFirst`           the first character in upper case, the rest as it is;
* `Text.capitalizeWords`           the same for every word, words being separated by white space.
-/

namespace Stencil.Text

/-! ## one character -/

/-- the image of a character under a case table: an expansion, a run, or the character itself -/
def caseImage (expansions : List (Nat × List Nat)) (runs : List CaseRun) (c : Char) : Text :=
  match expansions.lookup c.toNat with
  | some ns => ns.map Char.ofNat
  | none =>
    match runs.findSome? (·.image? c.toNat) with
    | some n => [Char.ofNat n]
    | none => [c]

def upperOf (c : Char) : Text := caseImage upperExpansions upperRuns c

def lowerOf (c : Char) : Text := caseImage lowerExpansions lowerRuns c

def isCased (c : Char) : Bool := inRanges casedRanges c

/-- a character that does not end a word, such as an apostrophe or an accent -/
def isCaseIgnorable (c : Char) : Bool := inRanges caseIgnorableRanges c

/-! ## whole texts -/

def toUpper (t : Text) : Text := t.flatMap upperOf

/-- whether the first character that is not passed over is a letter with case -/
def startsCased (t : Text) : Bool :=
  match t.dropWhile isCaseIgnorable with
  | [] => false
  | c :: _ => isCased c

/-- the lower case of `t` when the characters `before`, nearest first, stand in front of it -/
def lowerAfter (before : Text) : Text → Text
  | [] => []
  | c :: t =>
    let image :=
      if c = 'Σ' then (if startsCased before && !startsCased t then ['ς'] else ['σ'])
      else lowerOf c
    image ++ lowerAfter (c :: before) t

def toLower (t : Text) : Text := lowerAfter [] t

def capitalizeFirst : Text → Text
  | [] => []
  | c :: t => upperOf c ++ t

/-- capitalise the words of a text; `fresh` says whether a word may start at once -/
def capitalizeFrom (fresh : Bool) : Text → Text
  | [] => []
  | c :: t =>
    (if fresh && !isSpace c then upperOf c else [c]) ++ capitalizeFrom (isSpace c) t

/-- the first character of every word in upper case, the rest as it is -/
def capitalizeWords (t : Text) : Text := capitalizeFrom true t

end Stencil.Text
