import Mathlib.Data.List.TakeWhile
import VisualNovel.Transcript.Convert

/-!
# Commands within a spoken line

A command stands on a line of its own, or between the texts of a spoken line. On a line of its own it
changes the background, the music or the characters; within a spoken line it is read for a character
alone, whatever it names.

* `Converter.cuesOf`           what a command on a line of its own is made into while no intro is open;
* `Converter.line_command`, `Converter.line_spoken`, `Converter.line_within`   the cues of such lines;
* `Converter.SameWithin`       the commands that are not read otherwise within a spoken line;
* `same_within_iff`            these are the ones that mean the same in both places;
* `music_lost_within`          a piece of music that is started in the one place only.
-/

namespace VisualNovel

open Transcript Text

/-! ## Last words -/

namespace Text

variable {cs : List Char}

theorem blank_of_lastWord? (none : lastWord? cs = none) : ∀ c ∈ cs, isBlank c = true := by
  unfold lastWord? at none
  split at none
  · rename_i blank
    intro c m
    exact List.dropWhile_eq_nil_iff.1 blank c (List.mem_reverse.2 m)
  · cases none

theorem trim_of_blank (blank : ∀ c ∈ cs, isBlank c = true) : trim cs = [] := by
  rw [trim, List.dropWhile_eq_nil_iff.2 blank, dropEndWhile_nil]

theorem exists_lastWord? (nonempty : cs ≠ []) (trimmed : trim cs = cs) :
    ∃ word, lastWord? cs = some word := by
  cases last : lastWord? cs with
  | some word => exact ⟨word, rfl⟩
  | none =>
    rw [trim_of_blank (blank_of_lastWord? last)] at trimmed
    exact absurd trimmed.symm nonempty

end Text

/-! ## What a command is read for -/

namespace Transcript

variable {c : Converter} {command : List Char}

theorem startsWith_iff {start : String} : startsWith start command = true ↔ start.toList <+: command := by
  rw [startsWith, List.isPrefixOf_iff_prefix]

theorem startsWith_eq_false_iff {start : String} :
    startsWith start command = false ↔ ¬ start.toList <+: command := by
  rw [Bool.eq_false_iff, Ne, startsWith_iff]

/-- what a command within a spoken line is made into is a character -/
theorem character_of_characterCue? {cue : Cue} (found : characterCue? command = some cue) :
    ∃ name action, cue = .character (some name) action := by
  unfold characterCue? at found
  dsimp only at found
  split at found
  · obtain ⟨word, -, rfl⟩ := Option.map_eq_some_iff.1 found
    exact ⟨_, _, rfl⟩
  · split at found
    · obtain ⟨word, -, rfl⟩ := Option.map_eq_some_iff.1 found
      exact ⟨_, _, rfl⟩
    · cases found

def castWords : List String := ["Load", "Fade in", "Fade out"]

theorem characterCue?_eq_none_iff {word : List Char} (last : lastWord? command = some word) :
    characterCue? command = none ↔ ∀ start ∈ castWords, ¬ start.toList <+: command := by
  unfold characterCue?
  simp only [last, Option.map_some, castWords, List.forall_mem_cons, List.not_mem_nil, false_imp_iff,
    implies_true, and_true, ← startsWith_iff, Bool.or_eq_true]
  split
  · rename_i shown
    constructor
    · nofun
    · rintro ⟨load, fadeIn, -⟩
      exact absurd shown (not_or.2 ⟨load, fadeIn⟩)
  · rename_i shown
    split
    · rename_i hidden
      constructor
      · nofun
      · rintro ⟨-, -, fadeOut⟩
        exact absurd hidden fadeOut
    · rename_i hidden
      obtain ⟨load, fadeIn⟩ := not_or.1 shown
      exact ⟨fun _ => ⟨load, fadeIn, hidden⟩, fun _ => rfl⟩

/-- the line holds nothing but this command -/
def IsCommand (line command : List Char) : Prop :=
  ∃ body, ']' ∉ body ∧ line = '[' :: (body ++ [']']) ∧ trim body = command

/-- the text names one of the backgrounds -/
def NamesBackground (c : Converter) (target : List Char) : Prop :=
  ∃ name ∈ c.backgrounds, name.toList <:+: target

theorem background?_eq_none_iff {target : List Char} :
    background? c target = none ↔ ¬ NamesBackground c target := by
  simp [background?, NamesBackground, holds_iff]

theorem plays?_eq_none_iff : plays? command = none ↔ ¬ "Play".toList <+: command := by
  rw [plays?, Option.map_eq_none_iff, Option.eq_none_iff_forall_ne_some]
  constructor
  · rintro none ⟨rest, e⟩
    exact none rest (dropStart?_iff.2 e.symm)
  · intro none rest found
    exact none ⟨rest, (dropStart?_iff.1 found).symm⟩

theorem fadesIn?_eq_none_iff :
    fadesIn? c command = none ↔
      (isMusic command = false → ∀ target, command = "Fade in".toList ++ target →
        ¬ NamesBackground c (trim target)) := by
  unfold fadesIn?
  split
  · rename_i music
    simp [music]
  · simp only [Option.bind_eq_none_iff, dropStart?_iff, background?_eq_none_iff]
    exact ⟨fun none _ => none, fun none => none (Bool.eq_false_iff.2 ‹_›)⟩

theorem fadesOut?_eq_none_iff :
    fadesOut? c command = none ↔
      ∀ target, command = "Fade out".toList ++ target →
        isMusic command = false ∧ ¬ NamesBackground c (trim target) := by
  simp only [fadesOut?, Option.bind_eq_none_iff, dropStart?_iff]
  refine forall₂_congr fun target _ => ?_
  split
  · rename_i music
    simp [music]
  · rename_i music
    rw [Option.map_eq_none_iff, background?_eq_none_iff]
    exact (and_iff_right (Bool.eq_false_iff.2 music)).symm

end Transcript

namespace Converter

variable (c : Converter) {s : State} {command : List Char}

/-- what a command on a line of its own is made into while no intro is open, unless it opens one -/
def cuesOf (command : List Char) : List Cue :=
  match fadesIn? c command, fadesOut? c command, plays? command with
  | some name, _, _ => [.background name]
  | none, some cue, _ => [cue]
  | none, none, some cue => [cue]
  | none, none, none => if isMusic command then [] else (characterCue? command).toList

/-- within a spoken line, a command is read as on a line of its own: it starts no music and names none
to a character, and no background fades in or out -/
structure SameWithin (command : List Char) : Prop where
  unplayed : ¬ "Play".toList <+: command
  silent : isMusic command = true → ∀ start ∈ castWords, ¬ start.toList <+: command
  fadeIn : ∀ target, command = "Fade in".toList ++ target → ¬ NamesBackground c (trim target)
  fadeOut : ∀ target, command = "Fade out".toList ++ target → ¬ NamesBackground c (trim target)

theorem sameWithin_iff {word : List Char} (last : lastWord? command = some word) :
    c.SameWithin command ↔
      fadesIn? c command = none ∧ fadesOut? c command = none ∧ plays? command = none ∧
        (isMusic command = true → characterCue? command = none) := by
  rw [fadesIn?_eq_none_iff, fadesOut?_eq_none_iff, plays?_eq_none_iff, characterCue?_eq_none_iff last]
  constructor
  · rintro ⟨unplayed, silent, fadeIn, fadeOut⟩
    refine ⟨fun _ => fadeIn, fun target e => ⟨?_, fadeOut target e⟩, unplayed, silent⟩
    rw [Bool.eq_false_iff]
    intro music
    exact silent music "Fade out" (by simp [castWords]) ⟨target, e.symm⟩
  · rintro ⟨fadeIn, fadeOut, unplayed, silent⟩
    refine ⟨unplayed, silent, fun target e => fadeIn ?_ target e, fun target e => (fadeOut target e).2⟩
    rw [Bool.eq_false_iff]
    intro music
    exact silent music "Fade in" (by simp [castWords]) ⟨target, e.symm⟩

/-- none of the cues that a command is made into only on a line of its own is one about a character -/
theorem cuesOf_eq_iff {word : List Char} (last : lastWord? command = some word) :
    (characterCue? command).toList = c.cuesOf command ↔ c.SameWithin command := by
  have only (cue : Cue) (other : ∀ name action, cue ≠ .character (some name) action) :
      (characterCue? command).toList ≠ [cue] := by
    intro e
    have found : characterCue? command = some cue := Option.mem_toList.1 (e ▸ List.mem_singleton_self cue)
    obtain ⟨name, action, rfl⟩ := character_of_characterCue? found
    exact other name action rfl
  rw [c.sameWithin_iff last, cuesOf]
  cases fadeIn : fadesIn? c command with
  | some name => simpa using only (.background name) nofun
  | none =>
    cases fadeOut : fadesOut? c command with
    | some cue =>
      obtain ⟨target, -, found⟩ := Option.bind_eq_some_iff.1 fadeOut
      have other : ∀ name action, cue ≠ .character (some name) action := by
        split at found
        · cases found
          nofun
        · obtain ⟨name, -, rfl⟩ := Option.map_eq_some_iff.1 found
          nofun
      simpa using only cue other
    | none =>
      cases played : plays? command with
      | some cue =>
        obtain ⟨name, -, rfl⟩ := Option.map_eq_some_iff.1 played
        simpa using only (.music .play _) nofun
      | none =>
        cases music : isMusic command with
        | true => simp
        | false => simp

theorem command_closed (closed : s.intro = none) (number : Nat) (lit : command ≠ "Black Screen".toList) :
    c.command s number command = (c.cuesOf command, s) := by
  have same : ({ s with intro := none } : State) = s := by rw [← closed]
  rw [Converter.command, if_neg lit, cuesOf, closed, same]
  cases fadesIn? c command with
  | some name => rfl
  | none =>
    cases fadesOut? c command with
    | some cue => rfl
    | none => cases plays? command <;> rfl

/-! ## The two lines -/

theorem wholeCommand?_eq_some_iff {line : List Char} :
    wholeCommand? line = some command ↔ IsCommand line command := by
  simp only [wholeCommand?, Option.bind_eq_bind, Option.bind_eq_some_iff, dropStart?_iff, dropEnd?_iff]
  constructor
  · rintro ⟨_, rfl, body, rfl, found⟩
    split at found
    · cases found
    · rename_i inner
      exact ⟨body, by simpa using inner, rfl, Option.some.inj found⟩
  · rintro ⟨body, inner, rfl, rfl⟩
    exact ⟨_, rfl, body, rfl, by simp [inner]⟩

theorem wholeCommand?_eq_none_iff {line : List Char} :
    wholeCommand? line = none ↔ ∀ command, ¬ IsCommand line command := by
  simp only [Option.eq_none_iff_forall_ne_some, ne_eq, wholeCommand?_eq_some_iff]

theorem line_command (s : State) (number : Nat) (inner : ']' ∉ command) :
    c.line s number ('[' :: (command ++ [']'])) = c.command s number (trim command) := by
  have whole : wholeCommand? ('[' :: (command ++ [']'])) = some (trim command) := by
    have body : dropEnd? [']'] (command ++ [']']) = some command := dropEnd?_iff.2 rfl
    simp [wholeCommand?, dropStart?, body, inner]
  simp [Converter.line, startsWith, whole]

theorem line_spoken (closed : s.intro = none) (number : Nat) (inside : List Char) :
    c.line s number ('<' :: (inside ++ ['>'])) =
      ((tokens ('<' :: (inside ++ ['>']))).filterMap (token? s.speaker), s) := by
  have whole : wholeCommand? ('<' :: (inside ++ ['>'])) = none := by simp [wholeCommand?, dropStart?]
  have speaker : dropEnd? [':'] ('<' :: (inside ++ ['>'])) = none := by simp [dropEnd?, dropStart?]
  have repaired : repair ('<' :: (inside ++ ['>'])) = '<' :: (inside ++ ['>']) := by
    rw [repair, if_neg]
    simp [List.getLast?_cons]
  simp [Converter.line, startsWith, whole, closed, speaker, repaired]

theorem line_within (closed : s.intro = none) (number : Nat) (before command after : List Char)
    (nonempty : command ≠ []) (inner : ']' ∉ command) (first : before ≠ []) (firstInner : '>' ∉ before)
    (last : after ≠ []) (lastInner : '>' ∉ after) :
    c.line s number
        ('<' :: (before ++ '>' :: ' ' :: '[' :: (command ++ ']' :: ' ' :: '<' :: (after ++ ['>'])))) =
      (dialogue s.speaker before :: (characterCue? command).toList ++ [dialogue s.speaker after], s) := by
  have spoken := c.line_spoken closed number
    (before ++ '>' :: ' ' :: '[' :: (command ++ ']' :: ' ' :: '<' :: after))
  simp only [List.append_assoc, List.cons_append] at spoken
  have split : tokens
      ('<' :: (before ++ '>' :: ' ' :: '[' :: (command ++ ']' :: ' ' :: '<' :: (after ++ ['>'])))) =
      [.text before, .command command, .text after] := by
    rw [tokens_text first firstInner, tokens_cons (by decide) (by decide),
      tokens_command nonempty inner, tokens_cons (by decide) (by decide), tokens_text last lastInner,
      tokens_nil]
  rw [spoken, split]
  cases cue : characterCue? command <;> simp [token?, cue]

end Converter

open Converter

/-- **When a command means the same within a spoken line.** While no intro is open, a line with a command
between two texts is made into the two lines of dialogue and the character that the command shows or
hides, if it is one that does; on a line of its own, the command may also fade a background in or out,
start or stop music, or be passed over since it names a piece of music. So it means the same in both
places if and only if it does none of these. -/
theorem same_within_iff (c : Converter) {s : State} (closed : s.intro = none) (number number' : Nat)
    (before command after : List Char) (nonempty : command ≠ []) (trimmed : trim command = command)
    (inner : ']' ∉ command) (lit : command ≠ "Black Screen".toList)
    (first : before ≠ []) (firstInner : '>' ∉ before) (last : after ≠ []) (lastInner : '>' ∉ after) :
    c.line s number
        ("<".toList ++ before ++ "> [".toList ++ command ++ "] <".toList ++ after ++ ">".toList) =
      (dialogue s.speaker before :: (characterCue? command).toList ++ [dialogue s.speaker after], s) ∧
    c.line s number' ("[".toList ++ command ++ "]".toList) = (c.cuesOf command, s) ∧
    ((characterCue? command).toList = c.cuesOf command ↔ c.SameWithin command) := by
  obtain ⟨word, isLast⟩ := exists_lastWord? nonempty trimmed
  have within :=
    c.line_within closed number before command after nonempty inner first firstInner last lastInner
  have alone := c.line_command s number' inner
  rw [trimmed, c.command_closed closed number' lit] at alone
  refine ⟨?_, ?_, c.cuesOf_eq_iff isLast⟩
  · simpa using within
  · simpa using alone

/-- a character enters in the middle of a line -/
theorem character_shown_within :
    let c : Converter := {}
    let command := "Load Mia_Smile".toList
    c.SameWithin command ∧
    (c.line {} 2 "<Wait.> [Load Mia_Smile] <Good.>".toList).1 =
      dialogue none "Wait.".toList :: (c.line {} 2 "[Load Mia_Smile]".toList).1 ++
        [dialogue none "Good.".toList] := by
  intro c command
  obtain ⟨within, alone, same⟩ := same_within_iff c (s := {}) rfl 2 2 "Wait.".toList command
    "Good.".toList (by decide) (by decide) (by decide) (by decide) (by decide) (by decide) (by decide)
    (by decide)
  have cues : (characterCue? command).toList = c.cuesOf command := rfl
  have shown : (c.line {} 2 "[Load Mia_Smile]".toList).1 = c.cuesOf command := congrArg Prod.fst alone
  refine ⟨same.1 cues, ?_⟩
  rw [shown, ← cues]
  exact congrArg Prod.fst within

/-- music that starts on a line of its own does not start in the middle of a line -/
theorem music_lost_within :
    let c : Converter := {}
    (c.line {} 2 "<Wait.> [Play Trial.ogg] <Good.>".toList).1 =
      [dialogue none "Wait.".toList, dialogue none "Good.".toList] ∧
    (c.line {} 2 "[Play Trial.ogg]".toList).1 = [.music .play (some "Trial.ogg")] := by
  intro c
  have within := c.line_within (s := {}) rfl 2 "Wait.".toList "Play Trial.ogg".toList "Good.".toList
    (by decide) (by decide) (by decide) (by decide) (by decide) (by decide)
  exact ⟨congrArg Prod.fst within, rfl⟩

end VisualNovel
