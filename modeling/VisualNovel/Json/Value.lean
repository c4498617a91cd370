import VisualNovel.Json.Numeral

/-!
# Values of a document

* `Value`          what a document holds; `garbled` stands where the grammar is kept but no value is
                   denoted, and no reader of a field accepts it;
* `Value.settle?`  the value with one member per key, the last one, if nothing in it is garbled and it
                   nests no deeper than a bound;
* `Value.text?` …  the value of one kind.
-/

namespace VisualNovel.Json

inductive Value
  | null
  | bool (b : Bool)
  | number (n : Number)
  | text (s : String)
  | array (items : List Value)
  | object (members : List (String × Value))
  /-- a numeral out of range, half of a pair of units, or an object with such a key -/
  | garbled

/-- one member per key, at the place and with the value of the last one -/
def lastMembers (members : List (String × Value)) : List (String × Value) :=
  members.foldr (fun m rest => if rest.any (·.1 == m.1) then rest else m :: rest) []

/-- brackets may nest `room` deep -/
def Value.settle? : Nat → Value → Option Value
  | _, .garbled => none
  | 0, .array _ => none
  | 0, .object _ => none
  | room + 1, .array items => (items.mapM (settle? room)).map .array
  | room + 1, .object members =>
    (members.mapM fun m => (settle? room m.2).map (m.1, ·)).map (.object ∘ lastMembers)
  | _, v => some v

/-! ## Values of one kind -/

def Value.text? : Value → Option String
  | .text s => some s
  | _ => none

def Value.bool? : Value → Option Bool
  | .bool b => some b
  | _ => none

def Value.natural? : Value → Option Nat
  | .number n => n.natural?
  | _ => none

def Value.float? : Value → Option Float
  | .number n => some n.toFloat
  | _ => none

def Value.float32? : Value → Option Float32
  | .number n => some n.toFloat32
  | _ => none

def Value.array? : Value → Option (List Value)
  | .array items => some items
  | _ => none

def Value.object? : Value → Option (List (String × Value))
  | .object members => some members
  | _ => none

/-- `null` or a value that `read` accepts -/
def Value.option? {α : Type} (read : Value → Option α) : Value → Option (Option α)
  | .null => some none
  | v => (read v).map some

def Value.list? {α : Type} (read : Value → Option α) (v : Value) : Option (List α) :=
  v.array?.bind (·.mapM read)

/-! ## Building values -/

def Value.nat (n : Nat) : Value := .number (.int n)

def Value.ofOption {α : Type} (write : α → Value) : Option α → Value
  | none => .null
  | some a => write a

end VisualNovel.Json
