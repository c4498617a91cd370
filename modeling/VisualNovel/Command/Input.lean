import VisualNovel.Text.Blank

/-!
# What a player types

* `natural?`            a number in digits, with a plus sign if one likes, within 64 bits;
* `PlayerInput.parse`   what a line asks for.
-/

namespace VisualNovel

def digit? (c : Char) : Option Nat := if '0' ≤ c && c ≤ '9' then some (c.toNat - 48) else none

def digitsValue? (value : Nat) : List Char → Option Nat
  | [] => some value
  | c :: cs => (digit? c).bind fun d => digitsValue? (value * 10 + d) cs

def natural? (cs : List Char) : Option Nat :=
  let digits := match cs with | '+' :: ds => ds | ds => ds
  if digits.isEmpty then none else (digitsValue? 0 digits).filter (· < UInt64.size)

inductive PlayerInput
  /-- starts, goes on, or shows the rest of a line -/
  | activate
  /-- takes an option, counted from zero -/
  | choose (index : Nat)
  | debug
  | quit
  | unknown (text : String)
deriving DecidableEq

/-- options are typed as numbers from one on -/
def PlayerInput.parse (input : String) : PlayerInput :=
  let text := String.ofList (Text.trim input.toList)
  match text with
  | "" => activate
  | "q" | "quit" => quit
  | "d" | "debug" => debug
  | _ =>
    match natural? text.toList with
    | some (n + 1) => choose n
    | _ => unknown text

end VisualNovel
