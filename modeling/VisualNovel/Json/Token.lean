import VisualNovel.Json.Text
import VisualNovel.Json.Value

/-!
# Tokens of a document

* `Token`     a bracket, a separator, a text or another scalar;
* `token?`    the token at the start of a text, with what follows it;
* `tokens?`   all tokens of a text, with blanks between them.
-/

namespace VisualNovel.Json

inductive Token
  | openArray
  | closeArray
  | openObject
  | closeObject
  | comma
  | colon
  /-- no content: half of a pair of units stands alone -/
  | text (content : Option String)
  | scalar (v : Value)

def isSpace (c : Char) : Bool := c == ' ' || c == '\t' || c == '\n' || c == '\r'

/-! ## Numerals -/

def isDigit (c : Char) : Bool := '0' ≤ c && c ≤ '9'
def digitValue (c : Char) : Nat := c.toNat - 48

/-- one digit at least -/
def digits? (cs : List Char) : Option (List Nat × List Char) :=
  match cs.takeWhile isDigit with
  | [] => none
  | ds => some (ds.map digitValue, cs.dropWhile isDigit)

/-- no zero stands before another digit -/
def whole? (cs : List Char) : Option (List Nat × List Char) :=
  match digits? cs with
  | some (0 :: _ :: _, _) => none
  | r => r

def fraction? : List Char → Option (Option (List Nat) × List Char)
  | '.' :: cs => (digits? cs).map fun (ds, rest) => (some ds, rest)
  | cs => some (none, cs)

def sign : List Char → Bool × List Char
  | '-' :: cs => (true, cs)
  | '+' :: cs => (false, cs)
  | cs => (false, cs)

def exponent? : List Char → Option (Option Int × List Char)
  | c :: cs =>
    if c == 'e' || c == 'E' then
      let (negative, cs) := sign cs
      (digits? cs).map fun (ds, rest) =>
        let n : Nat := ds.foldl (fun n d => n * 10 + d) 0
        (some (if negative then -n else n), rest)
    else some (none, c :: cs)
  | [] => some (none, [])

def unsigned? (negative : Bool) (cs : List Char) : Option (Notation × List Char) := do
  let (whole, cs) ← whole? cs
  let (fraction, cs) ← fraction? cs
  let (exponent, cs) ← exponent? cs
  return (⟨negative, whole, fraction, exponent⟩, cs)

def numeral? : List Char → Option (Notation × List Char)
  | '-' :: cs => unsigned? true cs
  | cs => unsigned? false cs

/-! ## All tokens -/

def token? : List Char → Option (Token × List Char)
  | '[' :: cs => some (.openArray, cs)
  | ']' :: cs => some (.closeArray, cs)
  | '{' :: cs => some (.openObject, cs)
  | '}' :: cs => some (.closeObject, cs)
  | ',' :: cs => some (.comma, cs)
  | ':' :: cs => some (.colon, cs)
  | '"' :: cs => (readPieces? cs).map fun (ps, rest) => (.text ((join? ps).map String.ofList), rest)
  | 'n' :: 'u' :: 'l' :: 'l' :: cs => some (.scalar .null, cs)
  | 't' :: 'r' :: 'u' :: 'e' :: cs => some (.scalar (.bool true), cs)
  | 'f' :: 'a' :: 'l' :: 's' :: 'e' :: cs => some (.scalar (.bool false), cs)
  | cs => (numeral? cs).map fun (n, rest) =>
    (.scalar (match n.value? with | some v => .number v | none => .garbled), rest)

/-- every token takes a character at least, so `fuel` need not exceed the length of the text -/
def tokensFrom? : Nat → List Char → Option (List Token)
  | 0, cs => if cs.all isSpace then some [] else none
  | fuel + 1, cs =>
    match cs.dropWhile isSpace with
    | [] => some []
    | c :: cs => do
      let (t, rest) ← token? (c :: cs)
      let ts ← tokensFrom? fuel rest
      return t :: ts

def tokens? (cs : List Char) : Option (List Token) := tokensFrom? cs.length cs

end VisualNovel.Json
