import VisualNovel.Json.Text
import VisualNovel.Json.Value
import VisualNovel.Decimal.Shortest

/-!
# Writing a document

The spread-out form: every item and member on a line of its own, two blanks of indentation for each
level, empty brackets closed at once.

* `Value.pretty`   the text of a value at a level of indentation;
* `render`         the text of a document.
-/

namespace VisualNovel.Json

def newLine (level : Nat) : List Char := '\n' :: List.replicate (2 * level) ' '

def Number.chars : Number → List Char
  | .int i => (toString i).toList
  | .float x => if x.isFinite then (Decimal.plain x).toList else ['n', 'u', 'l', 'l']

mutual

def Value.pretty (level : Nat) : Value → List Char
  | .null => ['n', 'u', 'l', 'l']
  | .garbled => ['n', 'u', 'l', 'l']
  | .bool true => ['t', 'r', 'u', 'e']
  | .bool false => ['f', 'a', 'l', 's', 'e']
  | .number n => n.chars
  | .text s => quote s.toList
  | .array [] => ['[', ']']
  | .array (v :: vs) =>
    '[' :: newLine (level + 1) ++ v.pretty (level + 1) ++ prettyItems (level + 1) vs ++
      newLine level ++ [']']
  | .object [] => ['{', '}']
  | .object ((k, v) :: ms) =>
    '{' :: newLine (level + 1) ++ quote k.toList ++ [':', ' '] ++ v.pretty (level + 1) ++
      prettyMembers (level + 1) ms ++ newLine level ++ ['}']

/-- the items after the first one -/
def prettyItems (level : Nat) : List Value → List Char
  | [] => []
  | v :: vs => ',' :: newLine level ++ v.pretty level ++ prettyItems level vs

/-- the members after the first one -/
def prettyMembers (level : Nat) : List (String × Value) → List Char
  | [] => []
  | (k, v) :: ms =>
    ',' :: newLine level ++ quote k.toList ++ [':', ' '] ++ v.pretty level ++ prettyMembers level ms

end

def render (v : Value) : String := String.ofList (v.pretty 0)

end VisualNovel.Json
