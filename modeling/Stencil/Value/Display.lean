import Stencil.Json.Writer

/-!
# How values look in output

* `Value.display`   the text that stands for a value in output: nothing for null, the items of a
                    list separated by commas, compact JSON for a map.
-/

namespace Stencil.Value

mutual

def display : Value → Text
  | null => []
  | bool b => if b then "true".toList else "false".toList
  | number n => n.display
  | string t => t
  | list items => Text.join [','] (displayItems items)
  | map entries => toJson (map entries)
  | callable _ => "[function]".toList

def displayItems : List Value → List Text
  | [] => []
  | v :: vs => v.display :: displayItems vs

end

end Stencil.Value
