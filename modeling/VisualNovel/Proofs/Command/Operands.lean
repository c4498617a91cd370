import Mathlib.Data.List.Basic
import Mathlib.Tactic.Tauto
import VisualNovel.Command.Arguments

/-!
# Options and the game directory

The game directory of a command is the first argument that is no option, and the value of an option is
the argument behind it. The two are looked for apart from each other: the value stays among the
arguments that are no options. So an option that has a value stands behind the directory.

* `operands`                the arguments that are no options;
* `Valued`                  the commands that an option gives a value to;
* `Valued.intended`         what is run in the first argument that is neither an option nor the value;
* `Valued.Mistakes`         the value stands where the directory is looked for;
* `Valued.parse_name`       what is run;
* `Valued.operands_head?_eq_iff`   when the two directories are the same;
* `Valued.parse_moved_iff`  where an option can be moved to;
* `valued_options_stand_behind`   what this means for all arguments of these commands.
-/

namespace VisualNovel

/-- the arguments that are no options -/
def operands (args : List String) : List String := args.filter (!isOption ·)

/-- the commands that an option gives a value to -/
inductive Valued
  | dryRun
  | check

namespace Valued

def name : Valued → String
  | dryRun => "dry-run"
  | check => "check"

def option : Valued → String
  | dryRun => "--choice"
  | check => "--lint-config"

def run (value : Option String) (json : Bool) (directory : String) : Valued → Command
  | dryRun => .rehearse directory (((value.bind fun v => natural? v.toList).getD 1) - 1) json
  | check => .review directory value

end Valued

/-- the arguments without the value of an option, which is the one behind its first use -/
def withoutValue (option : String) : List String → List String
  | [] => []
  | arg :: args => if arg = option then arg :: args.tail else arg :: withoutValue option args

namespace Valued

def runIn (c : Valued) (args : List String) (directory : String) : Command :=
  c.run (optionValue? c.option args) (args.contains "--json") directory

/-- what is run in the first argument that is neither an option nor the value of one -/
def intended (c : Valued) (args : List String) : Except UsageError Command :=
  gameDirectory (operands (withoutValue c.option args)).head? (c.runIn args)

/-- the value is the first argument that is no option, and the next one is another -/
def Mistakes (c : Valued) (args : List String) : Prop :=
  ∃ flags value rest, args = flags ++ c.option :: value :: rest ∧ c.option ∉ flags ∧
    operands flags = [] ∧ isOption value = false ∧ (operands rest).head? ≠ some value

end Valued

section
variable {option value : String} {args flags rest : List String}

/-! ## The two scans -/

theorem operands_append (args args' : List String) :
    operands (args ++ args') = operands args ++ operands args' := List.filter_append ..

theorem operands_cons_option (is_option : isOption option = true) (args : List String) :
    operands (option :: args) = operands args := by
  rw [operands, List.filter_cons_of_neg (by simp [is_option]), operands]

theorem operands_cons_operand (is_operand : isOption value = false) (args : List String) :
    operands (value :: args) = value :: operands args := by
  rw [operands, List.filter_cons_of_pos (by simp [is_operand]), operands]

theorem first_use_unique {flags' rest' : List String} (first : option ∉ flags)
    (first' : option ∉ flags') (same : flags ++ option :: rest = flags' ++ option :: rest') :
    flags = flags' ∧ rest = rest' := by
  have before {flags rest : List String} (first : option ∉ flags) :
      (flags ++ option :: rest).takeWhile (· ≠ option) = flags := by
    rw [List.takeWhile_append_of_pos, List.takeWhile_cons_of_neg (by simp), List.append_nil]
    intro flag mem
    simpa using ne_of_mem_of_not_mem mem first
  have flags_same : flags = flags' := by rw [← before first, same, before first']
  subst flags_same
  exact ⟨rfl, (List.cons.inj (List.append_cancel_left same)).2⟩

theorem optionValue?_first (first : option ∉ flags) (rest : List String) :
    optionValue? option (flags ++ option :: rest) = rest.head? := by
  induction flags with
  | nil => rw [List.nil_append, optionValue?, if_pos rfl]
  | cons flag flags ih =>
    rw [List.mem_cons, not_or] at first
    rw [List.cons_append, optionValue?, if_neg (Ne.symm first.1), ih first.2]

theorem withoutValue_first (first : option ∉ flags) (rest : List String) :
    withoutValue option (flags ++ option :: rest) = flags ++ option :: rest.tail := by
  induction flags with
  | nil => rw [List.nil_append, withoutValue, if_pos rfl, List.nil_append]
  | cons flag flags ih =>
    rw [List.mem_cons, not_or] at first
    rw [List.cons_append, withoutValue, if_neg (Ne.symm first.1), ih first.2, List.cons_append]

theorem withoutValue_of_not_mem (unused : option ∉ args) : withoutValue option args = args := by
  induction args with
  | nil => rfl
  | cons arg args ih =>
    rw [List.mem_cons, not_or] at unused
    rw [withoutValue, if_neg (Ne.symm unused.1), ih unused.2]

end

/-! ## What is run -/

theorem gameDirectory_eq_iff {first first' : Option String} {command : String → Command}
    (injective : ∀ d d', command d = command d' → d = d') :
    gameDirectory first command = gameDirectory first' command ↔ first = first' := by
  refine ⟨fun same => ?_, fun same => by rw [same]⟩
  cases first with
  | none => cases first' with
    | none => rfl
    | some d' => cases same
  | some d => cases first' with
    | none => cases same
    | some d' => rw [injective d d' (Except.ok.inj same)]

namespace Valued

variable {c : Valued}

theorem isOption_option (c : Valued) : isOption c.option = true := by cases c <;> rfl

theorem runIn_injective {args : List String} (d d' : String)
    (same : c.runIn args d = c.runIn args d') : d = d' := by
  cases c with
  | dryRun => exact (Command.rehearse.inj same).1
  | check => exact (Command.review.inj same).1

theorem parse_name (c : Valued) (args : List String) :
    Command.parse (c.name :: args) = gameDirectory (operands args).head? (c.runIn args) := by
  cases c <;> rfl

/-! ## The value and the directory -/

variable {value : String} {args flags rest : List String}

theorem mistakes_iff (first : c.option ∉ flags) : c.Mistakes (flags ++ c.option :: value :: rest) ↔
    operands flags = [] ∧ isOption value = false ∧ (operands rest).head? ≠ some value := by
  constructor
  · rintro ⟨flags', value', rest', same, first', before, is_operand, next⟩
    obtain ⟨rfl, behind⟩ := first_use_unique first first' same
    obtain ⟨rfl, rfl⟩ := List.cons.inj behind
    exact ⟨before, is_operand, next⟩
  · rintro ⟨before, is_operand, next⟩
    exact ⟨flags, value, rest, rfl, first, before, is_operand, next⟩

theorem not_mistakes_without_value (first : c.option ∉ flags) :
    ¬ c.Mistakes (flags ++ [c.option]) := by
  rintro ⟨flags', value, rest, same, first', -⟩
  cases (first_use_unique first first' same).2

theorem operands_head?_eq_iff (c : Valued) (args : List String) :
    (operands args).head? = (operands (withoutValue c.option args)).head? ↔ ¬ c.Mistakes args := by
  by_cases used : c.option ∈ args
  · obtain ⟨flags, args, rfl, first⟩ := List.eq_append_cons_of_mem used
    rw [withoutValue_first first]
    rcases args with _ | ⟨value, rest⟩
    · exact iff_of_true rfl (not_mistakes_without_value first)
    rw [mistakes_iff first, List.tail_cons, operands_append, operands_append,
      operands_cons_option c.isOption_option, operands_cons_option c.isOption_option]
    cases is_option : isOption value with
    | true => simp [operands_cons_option is_option]
    | false =>
      rw [operands_cons_operand is_option]
      cases operands flags with
      | nil =>
        simp only [List.nil_append, List.head?_cons, true_and, not_not]
        exact eq_comm
      | cons directory _ => simp
  · rw [withoutValue_of_not_mem used]
    refine iff_of_true rfl ?_
    rintro ⟨flags, value, rest, rfl, -⟩
    exact used (by simp)

theorem parse_of_mistake (first : c.option ∉ flags) (before : operands flags = [])
    (is_operand : isOption value = false) :
    Command.parse (c.name :: (flags ++ c.option :: value :: rest)) =
      .ok (c.run (some value) ((flags ++ c.option :: value :: rest).contains "--json") value) := by
  rw [parse_name, operands_append, before, List.nil_append, operands_cons_option c.isOption_option,
    operands_cons_operand is_operand]
  simp only [List.head?_cons, gameDirectory, runIn, optionValue?_first first]

/-! ## Moving an option -/

variable {before between after : List String}

theorem runIn_moved (first : c.option ∉ before ++ between) :
    c.runIn (before ++ c.option :: value :: (between ++ after)) =
      c.runIn (before ++ between ++ c.option :: value :: after) := by
  have first' : c.option ∉ before := fun m => first (List.mem_append_left _ m)
  have flags : (before ++ c.option :: value :: (between ++ after)).contains "--json" =
      (before ++ between ++ c.option :: value :: after).contains "--json" := by
    rw [Bool.eq_iff_iff]
    simp only [List.contains_iff_mem, List.mem_append, List.mem_cons]
    tauto
  funext directory
  rw [runIn, runIn, optionValue?_first first, optionValue?_first first', flags]
  rfl

theorem parse_moved_iff (first : c.option ∉ before ++ between) :
    Command.parse (c.name :: (before ++ c.option :: value :: (between ++ after))) =
      Command.parse (c.name :: (before ++ between ++ c.option :: value :: after)) ↔
    operands before ≠ [] ∨ isOption value = true ∨
      ∀ directory ∈ (operands between).head?, directory = value := by
  rw [parse_name, parse_name, runIn_moved first, gameDirectory_eq_iff runIn_injective]
  simp only [operands_append, operands_cons_option c.isOption_option]
  cases is_option : isOption value with
  | true => simp [operands_cons_option is_option, operands_append]
  | false =>
    rw [operands_cons_operand is_option, operands_cons_operand is_option, operands_append]
    rcases operands before with _ | ⟨directory, _⟩
    · rcases operands between with _ | ⟨directory, _⟩
      · simp
      · simp [eq_comm]
    · simp

end Valued

/-- **An option that has a value stands behind the directory.** A command runs in the first argument
that is neither an option nor the value taken by one, exactly if this value is not the first argument
that is no option (or is the directory's own name). If it is, it is taken for the directory. An option
can be moved together with its value over other arguments just if there is an argument before it that is
no option, its value looks like an option itself, or no other directory is among the arguments it is
moved over. -/
theorem valued_options_stand_behind (c : Valued) :
    (∀ args, Command.parse (c.name :: args) = c.intended args ↔ ¬ c.Mistakes args) ∧
    (∀ flags value rest, c.option ∉ flags → operands flags = [] → isOption value = false →
      Command.parse (c.name :: (flags ++ c.option :: value :: rest)) =
        .ok (c.run (some value) ((flags ++ c.option :: value :: rest).contains "--json") value)) ∧
    ∀ before value between after, c.option ∉ before ++ between →
      (Command.parse (c.name :: (before ++ c.option :: value :: (between ++ after))) =
        Command.parse (c.name :: (before ++ between ++ c.option :: value :: after)) ↔
      operands before ≠ [] ∨ isOption value = true ∨
        ∀ directory ∈ (operands between).head?, directory = value) := by
  refine ⟨fun args => ?_, fun _ _ _ => Valued.parse_of_mistake, fun _ _ _ _ => Valued.parse_moved_iff⟩
  rw [Valued.parse_name, Valued.intended, gameDirectory_eq_iff Valued.runIn_injective,
    Valued.operands_head?_eq_iff]

/-- behind the directory, the value of an option is no directory, and may change places with other
options -/
theorem rules_behind_the_directory :
    Command.parse ["check", "--json", "game", "--lint-config", "rules", "--quiet"] =
        .ok (.review "game" (some "rules")) ∧
      Command.parse ["check", "--json", "game", "--lint-config", "rules", "--quiet"] =
        Command.parse ["check", "--json", "game", "--quiet", "--lint-config", "rules"] := by
  obtain ⟨runs, -, moved⟩ := valued_options_stand_behind .check
  have behind : operands ["--json", "game"] ≠ [] := by decide
  have first : Valued.check.option ∉ ["--json", "game"] := by decide
  constructor
  · refine ((runs (["--json", "game"] ++ "--lint-config" :: "rules" :: ["--quiet"])).2 ?_).trans rfl
    exact fun mistakes => behind ((Valued.mistakes_iff first).1 mistakes).1
  · exact (moved ["--json", "game"] "rules" ["--quiet"] [] (by decide)).2 (.inl behind)
/-- The number of an option is taken for the game directory. -/
theorem number_taken_for_a_directory :
    Command.parse ["dry-run", "--choice", "2", "game"] = .ok (.rehearse "2" 1 false) ∧
    Valued.dryRun.intended ["--choice", "2", "game"] = .ok (.rehearse "game" 1 false) ∧
    Command.parse ["dry-run", "game", "--choice", "2"] = .ok (.rehearse "game" 1 false) :=
  ⟨rfl, rfl, rfl⟩

end VisualNovel
