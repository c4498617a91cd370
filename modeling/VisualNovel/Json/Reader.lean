import VisualNovel.Json.Token

/-!
# Reading a document

A document is read token by token, with a stack of the brackets that are still open.

* `Frame`        an open bracket that waits for a value;
* `State`        what may come next;
* `State.step?`  the state after one token;
* `parse?`       the value of a whole text.
-/

namespace VisualNovel.Json

/-- an open bracket and what it holds so far, backwards -/
inductive Bracket
  | array (items : List Value)
  | object (members : List (Option String × Value))

/-- an open bracket that waits for the value of an item, or of the member with this key -/
inductive Frame
  | item (items : List Value)
  | member (members : List (Option String × Value)) (key : Option String)

inductive State
  /-- a value is due -/
  | value (outer : List Frame)
  /-- a bracket has just been opened -/
  | opened (b : Bracket) (outer : List Frame)
  /-- a bracket has received a value -/
  | filled (b : Bracket) (outer : List Frame)
  | key (members : List (Option String × Value)) (outer : List Frame)
  | colon (members : List (Option String × Value)) (key : Option String) (outer : List Frame)
  | whole (v : Value)

def State.put (v : Value) : List Frame → State
  | [] => .whole v
  | .item items :: outer => .filled (.array (v :: items)) outer
  | .member members k :: outer => .filled (.object ((k, v) :: members)) outer

/-- an object whose keys are texts -/
def Value.ofMembers (members : List (Option String × Value)) : Value :=
  match members.mapM fun m => m.1.map (·, m.2) with
  | some ms => .object ms
  | none => .garbled

def Value.ofText : Option String → Value
  | some s => .text s
  | none => .garbled

/-- a token where a value is due -/
def State.begin? (outer : List Frame) : Token → Option State
  | .scalar v => some (.put v outer)
  | .text t => some (.put (.ofText t) outer)
  | .openArray => some (.opened (.array []) outer)
  | .openObject => some (.opened (.object []) outer)
  | _ => none

def State.step? : State → Token → Option State
  | .value outer, t => begin? outer t
  | .opened (.array _) outer, .closeArray => some (.put (.array []) outer)
  | .opened (.array _) outer, t => begin? (.item [] :: outer) t
  | .opened (.object _) outer, .closeObject => some (.put (.object []) outer)
  | .opened (.object _) outer, .text k => some (.colon [] k outer)
  | .filled (.array items) outer, .comma => some (.value (.item items :: outer))
  | .filled (.array items) outer, .closeArray => some (.put (.array items.reverse) outer)
  | .filled (.object members) outer, .comma => some (.key members outer)
  | .filled (.object members) outer, .closeObject => some (.put (.ofMembers members.reverse) outer)
  | .key members outer, .text k => some (.colon members k outer)
  | .colon members k outer, .colon => some (.value (.member members k :: outer))
  | _, _ => none

def State.run? (s : State) : List Token → Option State
  | [] => some s
  | t :: ts => (s.step? t).bind (run? · ts)

theorem State.run?_append (s : State) (ts us : List Token) :
    s.run? (ts ++ us) = (s.run? ts).bind (·.run? us) := by
  induction ts generalizing s with
  | nil => rfl
  | cons t ts ih =>
    cases h : s.step? t with
    | none => simp [run?, h]
    | some s' => simp [run?, h, ih]

/-- the value of a text that holds one value and nothing else -/
def parse? (text : String) : Option Value := do
  let ts ← tokens? text.toList
  match ← (State.value []).run? ts with
  | .whole v => some v
  | _ => none

end VisualNovel.Json
