import VisualNovel.Json.Value
import VisualNovel.Table

/-!
# Records and tables in a document

A record is written as an object, or as an array of its fields in their order. A field that is left out
takes its default if it has one. A table is written as an object; the last member of a key counts.

* `Record.get?`       a field, by its place and its names; a field given twice is refused;
* `Value.variant?`    the name of an alternative without contents;
* `Value.table?`      a table of values of one kind.
-/

namespace VisualNovel.Json

inductive Record
  | named (members : List (String × Value))
  | listed (items : List Value)

def Value.record? : Value → Option Record
  | .object members => some (.named members)
  | .array items => some (.listed items)
  | _ => none

/-- a list holds no more than `arity` fields -/
def Record.fits (arity : Nat) : Record → Bool
  | .named _ => true
  | .listed items => items.length ≤ arity

/-- the value of a field, if it is given at all; nothing if it is given twice -/
def Record.find? (index : Nat) (names : List String) : Record → Option (Option Value)
  | .named members =>
    match members.filter fun m => names.contains m.1 with
    | [] => some none
    | [m] => some (some m.2)
    | _ => none
  | .listed items => some items[index]?

section
variable {α : Type}

def Record.get? (r : Record) (index : Nat) (names : List String) (read : Value → Option α)
    (absent : Option α) : Option α :=
  match r.find? index names with
  | none => none
  | some none => absent
  | some (some v) => read v

/-- a record of `arity` fields, read field by field -/
def Value.read? (v : Value) (arity : Nat) (build : Record → Option α) : Option α := do
  let r ← v.record?
  if r.fits arity then build r else none

/-- an alternative without contents: its name, or an object that gives it nothing -/
def Value.variant? : Value → Option String
  | .text s => some s
  | .object [(s, .null)] => some s
  | .object [(s, .object [])] => some s
  | _ => none

def Value.table? (read : Value → Option α) (v : Value) : Option (Table String α) := do
  let members ← v.object?
  return Table.ofList (← members.mapM fun (k, v) => (read v).map (k, ·))

end

end VisualNovel.Json
