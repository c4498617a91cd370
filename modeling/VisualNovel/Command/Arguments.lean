import VisualNovel.Command.Input
import VisualNovel.Text.Fragment

/-!
# The arguments of the program

The first argument is the command. What starts with two dashes is an option; the other arguments are
taken in their order, wherever the options stand.

* `Command`         what the program can do;
* `Command.parse`   the command of a list of arguments, or what is wrong with them;
* `optionValue?`    the argument after an option.
-/

namespace VisualNovel

inductive Command
  | help
  | play (directory : String) (debug : Bool)
  /-- `choice` counts from zero -/
  | rehearse (directory : String) (choice : Nat) (json : Bool)
  | review (directory : String) (config : Option String)
  | convert (transcript : String) (output : Option String)
  | mapAssets (directory : String)
deriving DecidableEq

inductive UsageError
  | noCommand
  | missing (what : String)
  | unknownCommand (name : String)
deriving DecidableEq

def isOption (arg : String) : Bool := (Text.dropStart? ['-', '-'] arg.toList).isSome

def optionValue? (name : String) : List String → Option String
  | [] => none
  | arg :: args => if arg = name then args.head? else optionValue? name args

/-- the option that is always taken is typed as a number from one on; anything else counts as one -/
def choiceOf (args : List String) : Nat :=
  (((optionValue? "--choice" args).bind fun v => natural? v.toList).getD 1) - 1

def gameDirectory (first : Option String) (command : String → Command) : Except UsageError Command :=
  match first with
  | some directory => .ok (command directory)
  | none => .error (.missing "game directory")

def Command.parse (args : List String) : Except UsageError Command :=
  match args with
  | [] => .error .noCommand
  | name :: rest =>
    let operands := rest.filter (!isOption ·)
    match name with
    | "--help" | "-h" => .ok help
    | "play" => gameDirectory operands.head? (play · (args.contains "--debug"))
    | "dry-run" => gameDirectory operands.head? (rehearse · (choiceOf args) (args.contains "--json"))
    | "check" => gameDirectory operands.head? (review · (optionValue? "--lint-config" args))
    | "convert" =>
      match operands with
      | transcript :: others => .ok (convert transcript others.head?)
      | [] => .error (.missing "transcript file")
    | "map-assets" => gameDirectory operands.head? mapAssets
    | _ => .error (.unknownCommand name)

end VisualNovel
